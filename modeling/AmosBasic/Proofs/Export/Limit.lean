import AmosBasic.Proofs.Export.Listing

namespace AmosBasic

section

variable {σ : Type} {sink : Sink σ} {receiver last : σ} {front : List Delivery} {delivery : Delivery}
  {error : DecodeError}

theorem Sink.give_of_accept? {calls : List Delivery} (taken : sink.accept? receiver calls = some last) :
    (sink.give receiver calls).refusal = none ∧ (sink.give receiver calls).receiver = last := by
  induction calls generalizing receiver with
  | nil => exact ⟨rfl, Option.some.inj taken⟩
  | cons first calls ih =>
    cases answer : (sink receiver first).refusal with
    | some error => simp [accept?, answer] at taken
    | none =>
      simp only [accept?, answer] at taken
      rw [give, Receipt.each, Receipt.andThen_of_accepted answer]
      exact ih taken

theorem Sink.Refuses.give (refuses : sink.Refuses receiver front delivery error last) (back : List Delivery) :
    (sink.give receiver (front ++ delivery :: back)).refusal = some error ∧
      (sink.give receiver (front ++ delivery :: back)).receiver = last := by
  obtain ⟨before, taken, refusal, kept⟩ := refuses
  obtain ⟨accepted, rfl⟩ := Sink.give_of_accept? taken
  rw [Sink.give_append, Receipt.andThen_of_accepted accepted]
  have stopped : sink.give (sink.give receiver front).receiver (delivery :: back) =
      sink (sink.give receiver front).receiver delivery := by
    rw [Sink.give, Receipt.each, Receipt.andThen_of_refused refusal]
  rw [stopped]
  exact ⟨refusal, kept⟩

theorem decode_settled (sink : Sink σ) (options : DecodeOptions) (sourceOnly : Bool) (source : Source) (receiver : σ) :
    let due := sinkCalls Sink.discard options sourceOnly (.fresh source ())
    let run := decode sink options sourceOnly (.fresh source receiver)
    run.2.receiver = (sink.give receiver due).receiver ∧
      run.1 = match (sink.give receiver due).refusal with
        | some error => .error error
        | none => (decode Sink.discard options sourceOnly (.fresh source ())).1 := by
  intro due run
  have willing : ∀ receiver delivery, (Sink.discard receiver delivery).refusal = none := fun _ _ => rfl
  obtain ⟨undisturbed, handed⟩ := sinkCalls_outcome options sourceOnly willing source ()
  have handed : due = (decodeOutcome options sourceOnly (Machine.fresh source ()).view).handed := handed
  -- All that is due is taken, or what is behind the first refusal is never handed over.
  rcases decode_cases sink options sourceOnly source receiver with ⟨final, taken, same, -⟩ |
    ⟨front, delivery, back, error, final, split, refuses, same, -⟩
  · rw [← handed] at taken
    obtain ⟨accepted, left⟩ := Sink.give_of_accept? taken
    rw [accepted, undisturbed, show run = _ from same, left]
    exact ⟨rfl, rfl⟩
  · obtain ⟨refused, left⟩ := refuses.give back
    rw [← split, ← handed] at refused left
    rw [refused, show run = _ from same, left]
    exact ⟨rfl, rfl⟩

end

def Receipt.relisted (receipt : Receipt Exporter) (listing : Listing) : Receipt Exporter :=
  { receipt with receiver := { receipt.receiver with listing } }

namespace Exporter

/-- What is done neither depends on the listing nor touches it. -/
def IgnoresListing (step : Exporter → Receipt Exporter) : Prop :=
  ∀ (exporter : Exporter) (listing : Listing), step { exporter with listing } = (step exporter).relisted listing

section IgnoresListing

variable {first next : Exporter → Receipt Exporter}

theorem IgnoresListing.andThen (before : IgnoresListing first) (after : IgnoresListing next) :
    IgnoresListing fun exporter => (first exporter).andThen next := by
  intro exporter listing
  dsimp only
  rw [before exporter listing]
  cases answer : (first exporter).refusal with
  | some error =>
    have relisted : ((first exporter).relisted listing).refusal = some error := answer
    rw [Receipt.andThen_of_refused answer, Receipt.andThen_of_refused relisted]
  | none =>
    have relisted : ((first exporter).relisted listing).refusal = none := answer
    have later : next ((first exporter).relisted listing).receiver = _ := after (first exporter).receiver listing
    rw [Receipt.andThen_of_accepted answer, Receipt.andThen_of_accepted relisted, later]
    rfl

theorem ignores_each {α : Type} {step : α → Exporter → Receipt Exporter} (each : ∀ item, IgnoresListing (step item))
    (items : List α) : IgnoresListing (Receipt.each step items) := by
  induction items with
  | nil => exact fun _ _ => rfl
  | cons item items ih => exact (each item).andThen ih

theorem ignores_makeFolders (folder : String) : IgnoresListing (makeFolders folder) := by
  intro exporter listing
  unfold makeFolders
  rcases exporter.tree.makeFolders folder with ⟨_ | _, _⟩ <;> rfl

theorem ignores_writeFile (path : String) (content : FileContent) : IgnoresListing (writeFile path content) := by
  intro exporter listing
  unfold writeFile
  cases exporter.tree.writeFile path content <;> rfl

theorem ignores_create (folder name : String) (content : FileContent) : IgnoresListing (create folder name content) :=
  (ignores_makeFolders folder).andThen (ignores_writeFile _ content)

theorem ignores_writeImage (folder name : String) (raster : Raster) :
    IgnoresListing (writeImage folder name raster) := by
  unfold writeImage
  split
  · exact fun _ _ => rfl
  · split
    · exact ignores_create folder name _
    · exact (ignores_create folder name _).andThen fun _ _ => rfl

theorem ignores_writeBankImage (kind : ImageKind) (raster : Raster) : IgnoresListing (writeBankImage kind raster) := by
  intro exporter listing
  have numbered := ignores_writeImage exporter.options.imageFolder (exporter.nextImage kind).1 raster
    (exporter.nextImage kind).2 listing
  cases kind <;> exact numbered

theorem ignores_writePicture (header : MemoryHeader) (picture : PackedPicture) :
    IgnoresListing (writePicture header picture) := by
  intro exporter listing
  unfold writePicture
  rcases picture.raster with ⟨error | raster, notes⟩
  · rfl
  · have noted : IgnoresListing fun exporter => { receiver := exporter, notes } := fun _ _ => rfl
    exact noted.andThen (ignores_writeImage _ _ raster) exporter listing

theorem ignores_bank (content : BankContent) : IgnoresListing fun exporter => receive exporter (.bank content) := by
  cases content with
  | images kind bank =>
    intro exporter listing
    simp only [receive, Receipt.foldl_andThen, accept, Receipt.andThen_accept]
    exact ignores_each (fun image : BankImage => ignores_writeBankImage kind image.raster) bank.images exporter listing
  | picture header picture => exact ignores_writePicture header picture
  | raw header payload =>
    exact fun exporter listing => ignores_create exporter.options.dataFolder _ _ exporter listing

theorem give_banks_ignores (contents : List BankContent) :
    IgnoresListing fun exporter => Sink.give receive exporter (contents.map .bank) := by
  induction contents with
  | nil => exact fun _ _ => rfl
  | cons content contents ih => exact (ignores_bank content).andThen ih

end IgnoresListing

def lineWrites (lines : List Line) : List String := lines.flatMap fun line => [line.text, "\n"]

theorem join_lineWrites (lines : List Line) : String.join (lineWrites lines) = listedText lines := by
  induction lines with
  | nil => rfl
  | cons line lines ih =>
    rw [lineWrites, List.flatMap_cons, String.join_append, ← lineWrites, ih, listedText, listedText, List.map_cons,
      String.join_cons]
    simp [String.join_cons]

variable {exporter : Exporter} {limit : Nat}

theorem give_lines_eq_each (lines : List Line) (exporter : Exporter) :
    Sink.give receive exporter (lines.map .line) = Receipt.each writeText (lineWrites lines) exporter := by
  induction lines generalizing exporter with
  | nil => rfl
  | cons line lines ih =>
    have rest : (fun later => Sink.give receive later (lines.map .line)) = Receipt.each writeText (lineWrites lines) :=
      funext ih
    have first : Sink.give receive exporter ((line :: lines).map .line) =
        (exporter.writeLine line.text).andThen fun later => Sink.give receive later (lines.map .line) := rfl
    rw [first, rest, writeLine, Receipt.andThen_assoc]
    rfl

theorem writeText_of_room (limited : exporter.listing.limit? = some limit) {text : String}
    (room : exporter.listing.text.utf8ByteSize + text.utf8ByteSize ≤ limit) :
    exporter.writeText text = accept (exporter.listed text) := by
  by_cases empty : text.isEmpty
  · obtain rfl := String.isEmpty_iff.mp empty
    simp [writeText, Listing.write, listed]
  · have fits : ¬ limit < exporter.listing.text.utf8ByteSize + text.utf8ByteSize := Nat.not_lt.mpr room
    simp [writeText, Listing.write, listed, empty, limited, fits]

theorem writeText_of_full (limited : exporter.listing.limit? = some limit) {text : String}
    (held : exporter.listing.text.utf8ByteSize ≤ limit)
    (full : limit < exporter.listing.text.utf8ByteSize + text.utf8ByteSize) :
    exporter.writeText text = exporter.refuse "listing is full" := by
  have written : ¬ text.isEmpty := by
    intro empty
    rw [String.isEmpty_iff.mp empty, String.utf8ByteSize_empty] at full
    omega
  simp [writeText, Listing.write, written, limited, full]

theorem each_writeText_of_room (limited : exporter.listing.limit? = some limit) {texts : List String}
    (room : exporter.listing.text.utf8ByteSize + (String.join texts).utf8ByteSize ≤ limit) :
    Receipt.each writeText texts exporter = accept (exporter.listed (String.join texts)) := by
  induction texts generalizing exporter with
  | nil => simp [Receipt.each, accept, listed]
  | cons text texts ih =>
    rw [String.join_cons, String.utf8ByteSize_append] at room
    have behind : (exporter.listed text).listing.limit? = some limit := limited
    rw [Receipt.each, writeText_of_room limited (by omega), accept, Receipt.andThen_accept, ih behind, listed_listed,
      String.join_cons]
    simp only [listed, String.utf8ByteSize_append]
    omega

theorem each_writeText_of_full (limited : exporter.listing.limit? = some limit) {texts : List String}
    (held : exporter.listing.text.utf8ByteSize ≤ limit)
    (full : limit < exporter.listing.text.utf8ByteSize + (String.join texts).utf8ByteSize) :
    ∃ front text back, texts = front ++ text :: back ∧
      exporter.listing.text.utf8ByteSize + (String.join front).utf8ByteSize ≤ limit ∧
      limit < exporter.listing.text.utf8ByteSize + (String.join (front ++ [text])).utf8ByteSize ∧
      Receipt.each writeText texts exporter = (exporter.listed (String.join front)).refuse "listing is full" := by
  induction texts generalizing exporter with
  | nil => simp at full; omega
  | cons text texts ih =>
    by_cases room : exporter.listing.text.utf8ByteSize + text.utf8ByteSize ≤ limit
    · have behind : (exporter.listed text).listing.limit? = some limit := limited
      have longer : (exporter.listed text).listing.text.utf8ByteSize =
          exporter.listing.text.utf8ByteSize + text.utf8ByteSize := String.utf8ByteSize_append
      rw [String.join_cons, String.utf8ByteSize_append] at full
      obtain ⟨front, next, back, rfl, fits, exceeds, stopped⟩ := ih behind (by omega) (by omega)
      refine ⟨text :: front, next, back, rfl, ?_, ?_, ?_⟩
      · rw [String.join_cons, String.utf8ByteSize_append]
        omega
      · rw [List.cons_append, String.join_cons, String.utf8ByteSize_append]
        omega
      · rw [Receipt.each, writeText_of_room limited room, accept, Receipt.andThen_accept, stopped, listed_listed,
          String.join_cons]
    · have refused := writeText_of_full limited held (Nat.lt_of_not_le room)
      refine ⟨[], text, texts, rfl, ?_, ?_, ?_⟩
      · simpa using held
      · simpa using Nat.lt_of_not_le room
      · rw [Receipt.each, refused, Receipt.andThen_of_refused rfl]
        simp [refuse, listed]

theorem join_le_of_prefix {front whole : List String} (first : front <+: whole) :
    (String.join front).utf8ByteSize ≤ (String.join whole).utf8ByteSize := by
  obtain ⟨back, rfl⟩ := first
  rw [String.join_append, String.utf8ByteSize_append]
  exact Nat.le_add_right _ _

section Calls

variable (exporter) {lines : List Line} (contents : List BankContent)

theorem give_of_room (room : ∀ limit ∈ exporter.listing.limit?,
    exporter.listing.text.utf8ByteSize + (listedText lines).utf8ByteSize ≤ limit) :
    Sink.give receive exporter (lines.map .line ++ contents.map .bank) =
      (Sink.give receive exporter (contents.map .bank)).relisted (exporter.listed (listedText lines)).listing := by
  have taken : Sink.give receive exporter (lines.map .line) = accept (exporter.listed (listedText lines)) := by
    cases limited : exporter.listing.limit? with
    | none => exact give_lines_unlimited limited lines
    | some limit =>
      rw [give_lines_eq_each, each_writeText_of_room limited, join_lineWrites]
      rw [join_lineWrites]
      exact room limit limited
  rw [Sink.give_append, taken, accept, Receipt.andThen_accept]
  exact give_banks_ignores contents exporter (exporter.listed (listedText lines)).listing

/-- Lines that there is no room for are refused at a text or at an end of a line, and no bank is handed over. -/
theorem give_of_full (limited : exporter.listing.limit? = some limit)
    (held : exporter.listing.text.utf8ByteSize ≤ limit)
    (full : limit < exporter.listing.text.utf8ByteSize + (listedText lines).utf8ByteSize) :
    ∃ written, written <+: lineWrites lines ∧
      exporter.listing.text.utf8ByteSize + (String.join written).utf8ByteSize ≤ limit ∧
      (∀ other, other <+: lineWrites lines →
        exporter.listing.text.utf8ByteSize + (String.join other).utf8ByteSize ≤ limit →
        (String.join other).utf8ByteSize ≤ (String.join written).utf8ByteSize) ∧
      Sink.give receive exporter (lines.map .line ++ contents.map .bank) =
        (exporter.listed (String.join written)).refuse "listing is full" := by
  rw [← join_lineWrites] at full
  obtain ⟨front, text, back, split, fits, beyond, stopped⟩ := each_writeText_of_full limited held full
  refine ⟨front, ⟨text :: back, split.symm⟩, fits, fun other first small => ?_, ?_⟩
  · -- A longer front has the text that did not fit.
    have further : front ++ [text] <+: lineWrites lines := ⟨back, by simp [split]⟩
    rcases List.prefix_or_prefix_of_prefix first further with within | longer
    · rcases List.prefix_concat_iff.mp within with rfl | within
      · omega
      · exact join_le_of_prefix within
    · have more := join_le_of_prefix longer
      omega
  · rw [Sink.give_append, give_lines_eq_each, stopped, Receipt.andThen_of_refused rfl]

end Calls

end Exporter

/-- A limit that the text of all lines keeps within changes nothing. Otherwise the run ends with the refusal of the
listing, which holds as many of the texts and line ends as it can, and there are no folders and no files. -/
theorem full_listing_stops_export (options : DecodeOptions) (sourceOnly : Bool) (source : Source)
    (output : OutputOptions) (tree : FileTree) (flushFailure? : Option String) (limit : Nat) :
    let run (limit? : Option Nat) :=
      decode Exporter.receive options sourceOnly (.fresh source (.fresh { limit?, flushFailure? } output tree))
    ∃ (lines : List Line) (contents : List BankContent),
      sinkCalls Sink.discard options sourceOnly (.fresh source ()) = lines.map .line ++ contents.map .bank ∧
      ((Exporter.listedText lines).utf8ByteSize ≤ limit →
        (run (some limit)).1 = (run none).1 ∧
        (run none).2.receiver.listing.text = Exporter.listedText lines ∧
        (run (some limit)).2.receiver =
          { (run none).2.receiver with listing := { (run none).2.receiver.listing with limit? := some limit } } ∧
        (run (some limit)).2.receiver.finish = (run none).2.receiver.finish) ∧
      (limit < (Exporter.listedText lines).utf8ByteSize →
        (run (some limit)).1 = .error (.io "listing is full") ∧
        (∃ written, written <+: Exporter.lineWrites lines ∧
          (run (some limit)).2.receiver.listing.text = String.join written ∧
          (String.join written).utf8ByteSize ≤ limit ∧
          ∀ other, other <+: Exporter.lineWrites lines → (String.join other).utf8ByteSize ≤ limit →
            (String.join other).utf8ByteSize ≤ (String.join written).utf8ByteSize) ∧
        (run (some limit)).2.receiver.tree = tree ∧ (run (some limit)).2.receiver.files = #[]) := by
  intro run
  have willing : ∀ receiver delivery, (Sink.discard receiver delivery).refusal = none := fun _ _ => rfl
  obtain ⟨lines, banks, _, _, handed, -⟩ := decodeOutcome_handed options sourceOnly (Machine.fresh source ()).view
  obtain ⟨-, due⟩ := sinkCalls_outcome options sourceOnly willing source ()
  rw [handed, deliveries] at due
  let start (limit? : Option Nat) : Exporter := .fresh { limit?, flushFailure? } output tree
  have settled : ∀ limit?, _ := fun limit? => decode_settled Exporter.receive options sourceOnly source (start limit?)
  simp only [due] at settled
  have empty : (start (some limit)).listing.text.utf8ByteSize = 0 := String.utf8ByteSize_empty
  refine ⟨lines, banks.map Bank.content, due, fun room => ?_, fun full => ?_⟩
  · obtain ⟨boundedReceiver, boundedResult⟩ := settled (some limit)
    obtain ⟨freeReceiver, freeResult⟩ := settled none
    have within : ∀ most ∈ (start (some limit)).listing.limit?,
        (start (some limit)).listing.text.utf8ByteSize + (Exporter.listedText lines).utf8ByteSize ≤ most := by
      intro most member
      obtain rfl := Option.mem_some_iff.mp member
      rw [empty, Nat.zero_add]
      exact room
    have alike := Exporter.give_banks_ignores (banks.map Bank.content) (start none) (start (some limit)).listing
    rw [Exporter.give_of_room _ _ within, show Sink.give Exporter.receive (start (some limit)) _ = _ from alike]
      at boundedReceiver boundedResult
    have unlimited : ∀ most ∈ (start none).listing.limit?,
        (start none).listing.text.utf8ByteSize + (Exporter.listedText lines).utf8ByteSize ≤ most :=
      fun most member => absurd member (Option.not_mem_none most)
    rw [Exporter.give_of_room _ _ unlimited] at freeReceiver freeResult
    refine ⟨boundedResult.trans freeResult.symm, ?_, ?_, ?_⟩
    · rw [show (run none).2.receiver = _ from freeReceiver]
      exact String.empty_append
    · rw [show (run (some limit)).2.receiver = _ from boundedReceiver, show (run none).2.receiver = _ from freeReceiver]
      rfl
    · rw [show (run (some limit)).2.receiver = _ from boundedReceiver, show (run none).2.receiver = _ from freeReceiver]
      rfl
  · have held : (start (some limit)).listing.text.utf8ByteSize ≤ limit := Nat.zero_le limit
    rw [← Nat.zero_add (Exporter.listedText lines).utf8ByteSize, ← empty] at full
    obtain ⟨written, first, fits, most, stopped⟩ :=
      Exporter.give_of_full (start (some limit)) (banks.map Bank.content) rfl held full
    simp only [empty, Nat.zero_add] at fits most
    obtain ⟨receiver, result⟩ := settled (some limit)
    rw [stopped] at receiver result
    have left : (run (some limit)).2.receiver = (start (some limit)).listed (String.join written) := receiver
    refine ⟨result, ⟨written, first, ?_, fits, most⟩, ?_, ?_⟩
    · rw [left]
      exact String.empty_append
    · rw [left]
      rfl
    · rw [left]
      rfl

end AmosBasic
