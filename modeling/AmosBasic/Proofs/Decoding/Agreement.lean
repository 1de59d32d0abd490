import AmosBasic.Proofs.Decoding.Course
import AmosBasic.Proofs.Decoding.RoundTrip
import AmosBasic.Proofs.Session.History
import AmosBasic.Proofs.Session.Opening

namespace AmosBasic

open Reading

def BankContent.isImages : BankContent → Bool
  | images .. => true
  | _ => false

namespace OpenFile

variable (file : OpenFile)

def FailsBehind (machine : Machine Unit) (operation : Operation) (items : List Item) (error : DecodeError) : Prop :=
  (file.perform Sink.discard machine (.replicate (items.length + 1) operation)).1 = items.map .ok ++ [.error error]

def SectionFails (machine : Machine Unit) (banks : List Bank) (error : DecodeError) : Prop :=
  match file.readBankCount.run Sink.discard machine with
  | (.error refusal, _) => refusal = error ∧ banks = []
  | (.ok _, counted) => file.FailsBehind counted .readBank (banks.map .bank) error

/-- What a decode run comes to behind the lines, against a session that has read them. -/
def SectionAgrees (listed : Machine Unit) (lines : List Line) (decoded : Except DecodeError Summary)
    (calls : List Delivery) : Prop :=
  match file.readBanks.run Sink.discard listed with
  | (.error error, _) => decoded = .error error ∧ ∃ banks : List Bank,
      calls = lines.map .line ++ (banks.map Bank.content).map .bank ∧ file.SectionFails listed banks error
  | (.ok banks, _) => ∃ summary, decoded = .ok summary ∧
      calls = lines.map .line ++ (banks.map Bank.content).map .bank ∧
      summary.Counts file.header lines (banks.map Bank.content) ∧
      (file.readBankCount.run Sink.discard listed).1 = .ok summary.banks ∧
      summary.banks = (banks.map Bank.content).countP BankContent.isImages + summary.packedPictures + summary.rawBanks

def ListingAgrees (sourceOnly : Bool) (opened : Machine Unit) (decoded : Except DecodeError Summary)
    (calls : List Delivery) : Prop :=
  match file.readSource.run Sink.discard opened with
  | (.error error, _) => decoded = .error error ∧ ∃ lines : List Line,
      calls = lines.map .line ∧ file.FailsBehind opened .readLine (lines.map .line) error
  | (.ok lines, listed) =>
    if sourceOnly then
      ∃ summary, decoded = .ok summary ∧ calls = lines.map .line ∧ summary.Counts file.header lines []
    else file.SectionAgrees listed lines decoded calls

theorem failsBehind_of_repeats {α : Type} {reading : Reading α} {item : α → Item} {operation : Operation}
    (wraps : operation.reading file = reading >>= fun value => pure (item value)) {view stop last : View}
    {values : List α} (repeats : Repeats reading view values stop) {handed : List Delivery} {error : DecodeError}
    (fails : reading.outcome stop = ⟨.error error, handed, last⟩) {machine : Machine Unit}
    (same : machine.view = view) : file.FailsBehind machine operation (values.map item) error := by
  unfold FailsBehind
  induction repeats generalizing machine with
  | nil =>
    subst same
    obtain ⟨result, -⟩ := file.step_outcome_of Sink.discard operation machine wraps
    rw [fails] at result
    exact congrArg (fun result => [result]) result
  | @cons view middle stop value values came _ ih =>
    subst same
    obtain ⟨result, behind⟩ := file.step_outcome_of Sink.discard operation machine wraps
    rw [came] at result behind
    have rest := ih fails behind
    exact congrArg₂ List.cons result rest

theorem length_eq_countP (contents : List BankContent) :
    contents.length = contents.countP BankContent.isImages + contents.countP BankContent.isPicture +
      contents.countP BankContent.isRaw := by
  induction contents with
  | nil => rfl
  | cons content contents ih =>
    cases content <;> simp [List.countP_cons, BankContent.isImages, BankContent.isPicture, BankContent.isRaw, ih] <;>
      omega

theorem sectionAgrees_outcome (listed : Machine Unit) (lines : List Line) {decoded : Outcome Summary}
    (came : (file.readBankCount >>= fun count => deliverBanks count
      { header := file.header, lines := lines.length }).outcome listed.view = decoded) :
    file.SectionAgrees listed lines decoded.result (lines.map .line ++ decoded.handed) := by
  obtain ⟨afterCount, counting, countView, -⟩ :=
    run_of_silent Sink.discard listed (file.silent_readBankCount listed.view).1
  have silent : file.readBanks.Silent :=
    keeps_bind forward_any file.silent_readBankCount fun _ => keeps_banksReading forward_any silent_bank _ _
  obtain ⟨final, reading, -, -⟩ := run_of_silent Sink.discard listed (silent listed.view).1
  rcases file.readBanks_cases listed.view with ⟨error, last, uncounted, unread⟩ |
    ⟨count, counted, banks, stop, result, last, success, -, repeats, ends, collected, delivered⟩
  · rw [outcome_bind_of_error uncounted] at came
    rw [unread] at reading
    rw [uncounted] at counting
    subst came
    unfold SectionAgrees SectionFails
    rw [reading, counting]
    exact ⟨rfl, [], rfl, rfl, rfl⟩
  · rw [outcome_bind_of_ok success, delivered] at came
    rw [collected] at reading
    rw [success] at counting countView
    subst came
    unfold SectionAgrees SectionFails
    rw [reading, counting]
    cases result with
    | ok =>
      have counts := Summary.counts_foldl file.header lines (banks.map Bank.content)
      refine ⟨_, rfl, rfl, counts, ?_, ?_⟩
      · rw [counts.banks, List.length_map, ends.1]
      · rw [counts.banks, counts.packedPictures, counts.rawBanks, ← length_eq_countP]
    | error error =>
      exact ⟨rfl, banks, rfl, file.failsBehind_of_repeats rfl repeats ends.2 countView⟩

theorem listingAgrees_outcome (sourceOnly : Bool) {opened : Machine Unit}
    (room : Header.size ≤ opened.view.place.position) :
    file.ListingAgrees sourceOnly opened ((file.decoding sourceOnly).outcome opened.view).result
      ((file.decoding sourceOnly).outcome opened.view).handed := by
  obtain ⟨lines, stop, result, last, repeats, ends, collected, delivered⟩ :=
    file.listing_loops room (Nat.le_add_left file.header.sourceLength _)
  obtain ⟨listed, reading, behind, -⟩ := run_of_silent Sink.discard opened (file.silent_readSource opened.view).1
  have source : file.readSource.outcome opened.view = ⟨result.map fun _ => lines, [], last⟩ := collected []
  rw [source] at reading behind
  rw [decoding_outcome, outcome_bind, delivered, Nat.zero_add]
  unfold ListingAgrees
  rw [reading]
  cases result with
  | error error => exact ⟨rfl, lines, rfl, file.failsBehind_of_repeats rfl repeats ends.2 rfl⟩
  | ok =>
    cases sourceOnly with
    | true => exact ⟨_, rfl, List.append_nil _, Summary.counts_foldl file.header lines []⟩
    | false =>
      have agrees := file.sectionAgrees_outcome listed lines rfl
      rw [behind] at agrees
      exact agrees

end OpenFile

/-- A receiver that refuses nothing gets from a decode run what a session reads: nothing if the file cannot be
opened, then the lines and, unless only the source is wanted, the banks. The run succeeds exactly if the session
does, and fails with the first error that the session meets. -/
theorem decode_agrees_with_session {σ : Type} (sink : Sink σ)
    (willing : ∀ receiver delivery, (sink receiver delivery).refusal = none) (options : DecodeOptions)
    (sourceOnly : Bool) (source : Source) (receiver : σ) :
    match OpenFile.openOn Sink.discard options (.fresh source ()) with
    | (.error error, _) => (decode sink options sourceOnly (.fresh source receiver)).1 = .error error ∧
        sinkCalls sink options sourceOnly (.fresh source receiver) = []
    | (.ok file, opened) => file.ListingAgrees sourceOnly opened
        (decode sink options sourceOnly (.fresh source receiver)).1
        (sinkCalls sink options sourceOnly (.fresh source receiver)) := by
  obtain ⟨result, handed⟩ := sinkCalls_outcome options sourceOnly willing source receiver
  obtain ⟨opened, opening, view, -⟩ := OpenFile.openOn_outcome Sink.discard options (.fresh source ())
  have silent := OpenFile.opening_silent options (Machine.fresh source ()).view
  unfold decodeOutcome Outcome.andThen at result handed
  rw [silent, ← view] at result handed
  rw [opening]
  cases came : (OpenFile.opening options (Machine.fresh source ()).view).result with
  | error error =>
    rw [came] at result handed
    exact ⟨result, handed⟩
  | ok file =>
    rw [came] at result handed
    obtain ⟨-, place⟩ := OpenFile.opening_of_ok came
    have room : Header.size ≤ opened.view.place.position := by
      rw [view, place]
      exact Nat.le_add_left _ _
    have agrees := file.listingAgrees_outcome sourceOnly room
    rw [result, handed]
    exact agrees

theorem decode_agrees_with_session_line_and_bank :
    let draft : FileDraft :=
      { variant := HeaderVariant.known[1], lines := [⟨1, [.remark .rem [0x48, 0x69]]⟩],
        banks := [.memory 3 true 1 (Latin1.encode "Samples ") [1, 2]] }
    ∃ file opened, OpenFile.openOn Sink.discard {} (.fresh { bytes := draft.encode } ()) = (.ok file, opened) ∧
      file.ListingAgrees false opened (decode Sink.collect {} false (.fresh { bytes := draft.encode } #[])).1
        (sinkCalls Sink.collect {} false (.fresh { bytes := draft.encode } #[])) := by
  intro draft
  have agrees := decode_agrees_with_session Sink.collect (fun _ _ => rfl) {} false { bytes := draft.encode } #[]
  obtain ⟨opened, same, -, -⟩ := OpenFile.openOn_outcome Sink.discard {} (.fresh { bytes := draft.encode } ())
  have accepted : (OpenFile.opening {} (Machine.fresh { bytes := draft.encode } ()).view).result.map (·.header) =
      .ok ⟨HeaderVariant.known[1], 10⟩ := by decide
  rcases came : (OpenFile.opening {} (Machine.fresh { bytes := draft.encode } ()).view).result with error | file
  · rw [came] at accepted
    cases accepted
  · rw [came] at same
    rw [same] at agrees
    exact ⟨file, opened, same, agrees⟩

end AmosBasic
