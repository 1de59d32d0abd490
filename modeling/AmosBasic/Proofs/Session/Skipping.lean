import AmosBasic.Proofs.Decoding.Deliveries
import AmosBasic.Proofs.Session.History
import AmosBasic.Proofs.Session.Opening

namespace AmosBasic

open Reading

structure Progress.SameButLines (one other : Progress) : Prop where
  bankCount : one.bankCount? = other.bankCount?
  banksRead : one.banksRead = other.banksRead
  currentBank : one.currentBank? = other.currentBank?

structure View.SameButLines (one other : View) : Prop where
  unread : one.unread = other.unread
  ending : one.ending = other.ending
  position : one.place.position = other.place.position
  progress : one.place.progress.SameButLines other.place.progress

theorem View.SameButLines.behind {one other : View} (same : one.SameButLines other) (count : Nat) :
    (one.behind count).SameButLines (other.behind count) := by
  have reach : one.reach count = other.reach count := by rw [reach, reach, same.unread, same.ending]
  refine ⟨congrArg (List.drop count) same.unread, same.ending, ?_, same.progress⟩
  exact congrArg₂ Nat.add same.position reach

theorem View.SameButLines.shortage {one other : View} (same : one.SameButLines other) (count : Nat) :
    one.shortage count = other.shortage count := by
  rw [View.shortage, View.shortage, same.unread, same.ending, same.position]

def Progress.Discreet (change : Progress → Progress) : Prop :=
  ∀ one other : Progress, one.SameButLines other → (change one).SameButLines (change other)

theorem Progress.discreet_withBank (number : UInt16) : Discreet (Progress.withBank number) :=
  fun _ _ same => ⟨same.bankCount, same.banksRead, rfl⟩

theorem Progress.discreet_withCount (count : Nat) : Discreet (Progress.withCount count) :=
  fun _ _ same => ⟨rfl, rfl, same.currentBank⟩

namespace Reading

variable {α β : Type}

/-- What the reading comes to does not depend on the number of lines. -/
def Overlooks (reading : Reading α) : Prop :=
  ∀ one other : View, one.SameButLines other → (reading.outcome one).result = (reading.outcome other).result ∧
    (reading.outcome one).view.SameButLines (reading.outcome other).view

theorem overlooks_pure (value : α) : (pure value : Reading α).Overlooks :=
  fun _ _ same => ⟨rfl, same⟩

theorem overlooks_bind {first : Reading α} {next : α → Reading β} (before : first.Overlooks)
    (after : ∀ value, (next value).Overlooks) : (first >>= next).Overlooks := by
  intro one other same
  obtain ⟨result, view⟩ := before one other same
  rw [outcome_bind, outcome_bind, Outcome.andThen, Outcome.andThen, result]
  cases (first.outcome other).result with
  | ok value => exact after value _ _ view
  | error error => exact ⟨rfl, view⟩

theorem Confined.overlooks {reading : Reading α} {errors : DecodeError → Prop}
    (confined : reading.Confined errors Progress.Discreet) : reading.Overlooks := by
  intro one other same
  induction confined generalizing one other with
  | done value => exact ⟨rfl, same⟩
  | fail => exact ⟨rfl, same⟩
  | @take count _ _ ih | @skip count _ _ ih =>
    rw [outcome, outcome, same.unread]
    by_cases enough : count ≤ other.unread.length
    · rw [if_pos enough, if_pos enough]
      exact ih _ _ _ (same.behind count)
    · rw [if_neg enough, if_neg enough, same.shortage count]
      exact ⟨rfl, same.behind count⟩
  | position _ ih =>
    rw [outcome, outcome, same.position]
    exact ih _ _ _ same
  | change discreet _ ih =>
    exact ih _ _ ⟨same.unread, same.ending, same.position, discreet _ _ same.progress⟩
  | note _ ih => exact ih _ _ same

end Reading

theorem Bank.overlooks_reading : Bank.reading.Overlooks := by
  have content : ∀ ordinal, (do
      updateProgress fun progress => { progress with banksRead := progress.banksRead + 1 }
      return { ordinal, content := ← BankContent.reading } : Reading Bank).Overlooks := by
    intro ordinal
    have counted : Progress.Discreet fun progress => { progress with banksRead := progress.banksRead + 1 } :=
      fun _ _ same => ⟨same.bankCount, congrArg (· + 1) same.banksRead, same.currentBank⟩
    exact (confined_bind (confined_updateProgress counted) fun _ =>
      confined_bind (BankContent.confined_reading Progress.discreet_withBank) fun _ => confined_pure _).overlooks
  intro one other same
  have remaining : one.place.progress.banksRemaining = other.place.progress.banksRemaining := by
    rw [Progress.banksRemaining, same.progress.bankCount, same.progress.banksRead, Progress.banksRemaining]
  simp only [Bank.reading, outcome_currentProgress_bind, remaining, same.progress.bankCount, same.progress.banksRead]
  by_cases none : other.place.progress.banksRemaining = 0
  · rw [if_pos none, outcome_currentPosition_bind, outcome_currentPosition_bind, same.position]
    exact ⟨rfl, same⟩
  · rw [if_neg none]
    exact content _ one other same

namespace OpenFile

theorem overlooks_readLine (file : OpenFile) : file.readLine.Overlooks := by
  have counted : Progress.Discreet fun progress => { progress with linesRead := progress.linesRead + 1 } :=
    fun _ _ same => ⟨same.bankCount, same.banksRead, same.currentBank⟩
  have line : (Line.reading file.options).Confined (fun _ => True) Progress.Discreet :=
    (Line.confined_reading file.options).mono fun _ _ => True.intro
  have whole : file.readLine.Confined (fun _ => True) Progress.Discreet := by
    apply confined_bind confined_currentPosition
    intro start
    split
    · exact confined_corrupt True.intro
    · apply confined_bind line
      intro read
      apply confined_bind confined_currentPosition
      intro position
      split
      · exact confined_corrupt True.intro
      · exact confined_bind (confined_updateProgress counted) fun _ => confined_pure _
  exact whole.overlooks

theorem overlooks_linesReading (file : OpenFile) (fuel : Nat) (read : List Line) :
    (file.linesReading fuel read).Overlooks := by
  induction fuel generalizing read with
  | zero => exact overlooks_pure _
  | succ fuel ih =>
    have asked : file.isExhausted.Confined (fun _ => True) Progress.Discreet :=
      confined_bind confined_currentPosition fun _ => confined_pure _
    apply overlooks_bind asked.overlooks
    intro exhausted
    split
    · exact overlooks_pure _
    · exact overlooks_bind file.overlooks_readLine fun _ => ih _

theorem overlooks_readBankCount (file : OpenFile) : file.readBankCount.Overlooks := by
  have whole : file.readBankCount.Confined (fun _ => True) Progress.Discreet := by
    rw [readBankCount_eq]
    apply confined_bind confined_currentPosition
    intro offset
    split
    · exact confined_corrupt True.intro
    · exact (confined_countReading Progress.discreet_withCount offset).mono fun _ _ => True.intro
  exact whole.overlooks

theorem overlooks_banksReading (left : Nat) (read : List Bank) : (banksReading left read).Overlooks := by
  induction left generalizing read with
  | zero => exact overlooks_pure _
  | succ left ih => exact overlooks_bind Bank.overlooks_reading fun _ => ih _

theorem Operation.overlooks_reading (file : OpenFile) (operation : Operation) :
    (operation.reading file).Overlooks := by
  have returned : ∀ {α : Type} {reading : Reading α}, reading.Overlooks → ∀ item : α → Item,
      (reading >>= fun value => pure (item value)).Overlooks :=
    fun overlooks _ => overlooks_bind overlooks fun _ => overlooks_pure _
  cases operation with
  | readLine => exact returned file.overlooks_readLine _
  | readSource => exact returned (file.overlooks_linesReading _ _) _
  | skipSource =>
    have confined : file.skipSource.Confined (fun _ => True) Progress.Discreet := file.confined_skipSource
    exact returned confined.overlooks _
  | readBankCount => exact returned file.overlooks_readBankCount _
  | readBankType => exact returned BankType.confined_reading.overlooks _
  | readMemoryHeader => exact returned (MemoryHeader.confined_reading Progress.discreet_withBank).overlooks _
  | readImageBank => exact returned ImageBank.confined_reading.overlooks _
  | readBank => exact returned Bank.overlooks_reading _
  | readBanks => exact returned (overlooks_bind file.overlooks_readBankCount fun _ => overlooks_banksReading _ _) _

variable {σ : Type} (file : OpenFile) (sink : Sink σ)

structure Step.Agrees (one other : Step σ) : Prop where
  operation : one.operation = other.operation
  result : one.result = other.result
  after : one.after.view.SameButLines other.after.view

theorem history_agrees {one other : Machine σ} (same : one.view.SameButLines other.view)
    (operations : List Operation) :
    List.Forall₂ Step.Agrees (file.history sink one operations) (file.history sink other operations) := by
  induction operations generalizing one other with
  | nil => exact .nil
  | cons operation operations ih =>
    obtain ⟨result, after⟩ := file.step_outcome sink operation one
    obtain ⟨otherResult, otherAfter⟩ := file.step_outcome sink operation other
    obtain ⟨alike, view⟩ := operation.overlooks_reading file one.view other.view same
    rw [← result, ← otherResult] at alike
    rw [← after, ← otherAfter] at view
    exact .cons ⟨rfl, alike, view⟩ (ih view)

end OpenFile

namespace Reading.Repeats

variable {α : Type} {reading : Reading α} {view stop : View} {values : List α}

theorem taken (repeats : Repeats reading view values stop) :
    ∃ bytes, view.unread = bytes ++ stop.unread ∧ stop.ending = view.ending ∧
      stop.place.position = view.place.position + bytes.length := by
  induction repeats with
  | nil => exact ⟨[], rfl, rfl, rfl⟩
  | cons came _ ih =>
    obtain ⟨piece, unread, ending, passage⟩ := passes_of_outcome came
    obtain ⟨bytes, rest, lasting, position⟩ := ih
    refine ⟨piece ++ bytes, ?_, lasting.trans ending, ?_⟩
    · rw [unread, rest, List.append_assoc]
    · rw [position, passage.stop_position, List.length_append, Nat.add_assoc]

theorem split (repeats : Repeats reading view values stop) (count : Nat) :
    ∃ middle, Repeats reading view (values.take count) middle ∧ Repeats reading middle (values.drop count) stop := by
  induction repeats generalizing count with
  | nil =>
    rw [List.take_nil, List.drop_nil]
    exact ⟨_, .nil, .nil⟩
  | cons came rest ih =>
    cases count with
    | zero => exact ⟨_, .nil, .cons came rest⟩
    | succ count =>
      obtain ⟨middle, front, back⟩ := ih count
      exact ⟨middle, .cons came front, back⟩

end Reading.Repeats

namespace OpenFile

variable {σ : Type} (file : OpenFile) (sink : Sink σ)

theorem perform_lines {view stop : View} {lines : List Line} (listing : Repeats file.readLine view lines stop)
    {machine : Machine σ} (start : machine.view = view) (later : List Operation) :
    ∃ behind, behind.view = stop ∧ file.perform sink machine (.replicate lines.length .readLine ++ later) =
      (lines.map (fun line => .ok (.line line)) ++ (file.perform sink behind later).1,
        (file.perform sink behind later).2) := by
  induction listing generalizing machine with
  | nil => exact ⟨machine, start, rfl⟩
  | @cons view middle stop line lines came _ ih =>
    subst start
    obtain ⟨result, after⟩ := file.step_outcome_of sink .readLine machine rfl
    rw [came] at result after
    obtain ⟨behind, reached, rest⟩ := ih after
    have whole : file.perform sink machine (.replicate (line :: lines).length .readLine ++ later) =
        ((file.step sink .readLine machine).result ::
            (file.perform sink (file.step sink .readLine machine).after (.replicate lines.length .readLine ++ later)).1,
          (file.perform sink (file.step sink .readLine machine).after
            (.replicate lines.length .readLine ++ later)).2) := rfl
    rw [whole, rest, result]
    exact ⟨behind, reached, rfl⟩

theorem skipSource_outcome {middle stop : View} {lines : List Line}
    (listing : Repeats file.readLine middle lines stop) (opened : Header.size ≤ middle.place.position)
    (filled : consumedAt stop.place.position = file.header.sourceLength) :
    ∃ last, file.skipSource.outcome middle = ⟨.ok (), [], last⟩ ∧ last.SameButLines stop := by
  obtain ⟨bytes, unread, ending, position⟩ := listing.taken
  have progress := (file.behind_lines listing opened).progress
  -- The listing ends exactly with the source, so what is skipped is what its lines have taken.
  have left : file.header.sourceLength - consumedAt middle.place.position = bytes.length := by
    rw [← filled, position, consumedAt_add opened, Nat.add_sub_cancel_left]
  have enough : bytes.length ≤ middle.unread.length := by
    rw [unread, List.length_append]
    exact Nat.le_add_right _ _
  have skips : file.skipSource.outcome middle = (Reading.bytes (file.header.sourceLength -
      consumedAt middle.place.position) >>= fun _ => pure ()).outcome middle := rfl
  rw [left, outcome_bytes_bind, if_pos enough] at skips
  refine ⟨_, skips, ?_, ending.symm, ?_, ?_⟩
  · rw [View.behind, unread, List.drop_left]
  · rw [View.behind_place enough, position]
    rfl
  · rw [View.behind_place enough, progress]
    exact ⟨rfl, rfl, rfl⟩

theorem readSource_of_ok {opened listed : Machine σ} {lines : List Line} (start : opened.place = ⟨Header.size, {}⟩)
    (reads : file.readSource.run sink opened = (.ok lines, listed)) :
    Repeats file.readLine opened.view lines listed.view ∧ file.exhaustedAt listed.view.place.position = true ∧
      consumedAt listed.view.place.position = file.header.sourceLength := by
  have position : opened.view.place.position = Header.size := congrArg Place.position start
  have room : Header.size ≤ opened.view.place.position := Nat.le_of_eq position.symm
  obtain ⟨all, stop, result, last, listing, ends, collected, -⟩ :=
    file.listing_loops room (Nat.le_add_left file.header.sourceLength _)
  obtain ⟨_, ran, view, -⟩ := run_of_silent sink opened (file.silent_readSource opened.view).1
  have source : file.readSource.outcome opened.view = ⟨result.map fun _ => all, [], last⟩ := collected []
  rw [source] at ran view
  rw [reads] at ran
  cases result with
  | error error => cases ran
  | ok =>
    cases ran
    obtain ⟨exhausted, rfl⟩ := ends
    rw [view]
    exact ⟨listing, exhausted, ((file.behind_lines listing room).fills position exhausted).2⟩

theorem readSource_of_delivered {opened : Machine σ} (start : opened.place = ⟨Header.size, {}⟩)
    {summary counted : Summary} {handed : List Delivery} {last : View}
    (delivered : (file.deliverLines file.header.sourceLength summary).outcome opened.view =
      ⟨.ok counted, handed, last⟩) :
    ∃ lines listed, file.readSource.run sink opened = (.ok lines, listed) ∧ handed = lines.map .line := by
  have room : Header.size ≤ opened.view.place.position := Nat.le_of_eq (congrArg Place.position start).symm
  obtain ⟨lines, stop, result, _, -, -, collected, same⟩ :=
    file.listing_loops room (Nat.le_add_left file.header.sourceLength _)
  obtain ⟨listed, ran, -, -⟩ := run_of_silent sink opened (file.silent_readSource opened.view).1
  have source : file.readSource.outcome opened.view = ⟨result.map fun _ => lines, [], _⟩ := collected []
  rw [source] at ran
  rw [same] at delivered
  cases result with
  | error error => cases delivered
  | ok =>
    cases delivered
    exact ⟨lines, listed, ran, rfl⟩

/-- An opened file whose listing can be read. Whoever reads some of its lines and skips the others gets those lines,
and stands behind the source where one stands who has read all of it. From there on any operations bring the same. -/
theorem skipping_reads_on (options : DecodeOptions) (source : Source) (receiver : σ) {file : OpenFile}
    {opened listed : Machine σ} {lines : List Line}
    (opens : openOn sink options (.fresh source receiver) = (.ok file, opened))
    (reads : file.readSource.run sink opened = (.ok lines, listed)) {count : Nat} (few : count ≤ lines.length) :
    ∃ skipped, file.perform sink opened (.replicate count .readLine ++ [.skipSource]) =
        ((lines.take count).map (fun line => .ok (.line line)) ++ [.ok .skipped], skipped) ∧
      skipped.cursor.position = listed.cursor.position ∧ file.exhaustedAt skipped.cursor.position = true ∧
      ∀ operations, List.Forall₂ Step.Agrees (file.history sink skipped operations)
        (file.history sink listed operations) := by
  obtain ⟨-, start, -⟩ := openOn_of_ok opens
  obtain ⟨listing, exhausted, filled⟩ := file.readSource_of_ok sink start reads
  have room : Header.size ≤ opened.view.place.position := Nat.le_of_eq (congrArg Place.position start).symm
  obtain ⟨middle, front, back⟩ := listing.split count
  have begun : Header.size ≤ middle.place.position := by
    obtain ⟨bytes, -, -, position⟩ := front.taken
    omega
  obtain ⟨behind, reached, performed⟩ := file.perform_lines sink front rfl [.skipSource]
  obtain ⟨last, skips, same⟩ := file.skipSource_outcome back begun filled
  obtain ⟨result, after⟩ := file.step_outcome_of sink .skipSource behind rfl
  rw [reached, skips] at result after
  rw [List.length_take_of_le few] at performed
  have agrees : (file.step sink .skipSource behind).after.view.SameButLines listed.view := by
    rw [after]
    exact same
  have position : (file.step sink .skipSource behind).after.cursor.position = listed.cursor.position := agrees.position
  refine ⟨(file.step sink .skipSource behind).after, ?_, position, ?_, file.history_agrees sink agrees⟩
  · have last : file.perform sink behind [.skipSource] =
        ([(file.step sink .skipSource behind).result], (file.step sink .skipSource behind).after) := rfl
    rw [performed, last, result]
    rfl
  · rw [position]
    exact exhausted

theorem skipping_reads_on_remarks :
    let drafts : List LineDraft := [⟨1, [.remark .rem [0x48, 0x69]]⟩, ⟨1, [.remark .rem [0x48, 0x6F]]⟩]
    let bank := StoredBank.encode (.memory 3 0 0x1000000A (Latin1.encode "Samples ") [1, 2])
    let bytes := encodeFile (Latin1.encode "AMOS Basic V134 ") (drafts.flatMap LineDraft.encode)
      (encodeBankCount 1 ++ bank)
    ∃ file opened lines listed skipped, openOn Sink.discard {} (.fresh { bytes } ()) = (.ok file, opened) ∧
      file.readSource.run Sink.discard opened = (.ok lines, listed) ∧ lines.length = 2 ∧
      file.perform Sink.discard opened [.readLine, .skipSource] =
        ((lines.take 1).map (fun line => .ok (.line line)) ++ [.ok .skipped], skipped) ∧
      skipped.cursor.position = listed.cursor.position ∧ file.exhaustedAt skipped.cursor.position = true ∧
      ∀ operations, List.Forall₂ Step.Agrees (file.history Sink.discard skipped operations)
        (file.history Sink.discard listed operations) := by
  intro drafts bank bytes
  have accepted : (opening {} (Machine.fresh { bytes } ()).view).result.map (·.header) =
      .ok ⟨HeaderVariant.known[1], 20⟩ := by decide
  have unread : (opening {} (Machine.fresh { bytes } ()).view).view.unread =
      drafts.flatMap LineDraft.encode ++ (encodeBankCount 1 ++ bank) := by decide
  obtain ⟨file, opened, opens, header⟩ := openOn_of_header accepted Sink.discard ()
  obtain ⟨opening, start, -⟩ := openOn_of_ok opens
  rw [opening] at unread
  have length : file.header.sourceLength = 20 := congrArg Header.sourceLength header
  have valid : ∀ draft ∈ drafts, draft.Valid := by decide
  have whole : consumedAt (Place.mk Header.size {}).position + (drafts.flatMap LineDraft.encode).length =
      file.header.sourceLength := by
    rw [length]
    decide
  have enough : drafts.length ≤ file.header.sourceLength := by
    rw [length]
    decide
  have passage := passes_deliverLines valid enough (Nat.le_refl _) whole { header := file.header }
  have view : opened.view = ⟨drafts.flatMap LineDraft.encode ++ (encodeBankCount 1 ++ bank), opened.view.ending,
      ⟨Header.size, {}⟩⟩ := by
    rw [← unread, ← start]
    rfl
  have delivered := outcome_of_passes passage (encodeBankCount 1 ++ bank) opened.view.ending
  rw [← view] at delivered
  obtain ⟨lines, listed, reads, handed⟩ := file.readSource_of_delivered Sink.discard start delivered
  have two : lines.length = 2 := by
    have same := congrArg List.length handed
    rw [List.length_map, List.length_map, LineDraft.length_placed] at same
    exact same.symm
  have few : 1 ≤ lines.length := by omega
  obtain ⟨skipped, performed⟩ := skipping_reads_on Sink.discard {} { bytes } () opens reads few
  exact ⟨file, opened, lines, listed, skipped, opens, reads, two, performed⟩

end OpenFile

end AmosBasic
