import AmosBasic.Decoding
import AmosBasic.Proofs.Bank.Acceptance
import AmosBasic.Proofs.Reading.Keeping

namespace AmosBasic

open Reading

def Progress.withCount (count : Nat) (progress : Progress) : Progress :=
  { progress with bankCount? := some count, banksRead := 0 }

namespace OpenFile

def countReading (offset : Nat) : Reading Nat := do
  let marker ← bytes 4
  if marker ≠ bankSectionMarker then corrupt offset (.noBankSection marker)
  else
    let count ← word 2
    remark (.bankCount count)
    updateProgress (Progress.withCount count)
    return count

theorem readBankCount_eq (file : OpenFile) :
    file.readBankCount = currentPosition >>= fun offset =>
      if consumedAt offset ≠ file.header.sourceLength then
        corrupt offset (.sourceUnfinished (consumedAt offset) file.header.sourceLength)
      else countReading offset := rfl

theorem countReading_cases (offset : Nat) (view : View) :
    (∃ error last, (countReading offset).outcome view = ⟨.error error, [], last⟩ ∧
      view.place.Advances last.place) ∨
    ∃ count last, (countReading offset).outcome view = ⟨.ok count, [], last⟩ ∧ count < 2 ^ 16 ∧
      last.place = StoredBanks.counted view.place count := by
  have forward := Place.forward_advances
  have moved := forward.behind view.place (view.reach 4)
  rw [countReading, outcome_bytes_bind]
  by_cases marked : 4 ≤ view.unread.length
  · rw [if_pos marked]
    by_cases marker : view.unread.take 4 = bankSectionMarker
    · rw [if_neg (not_not_intro marker), outcome_word_bind]
      by_cases counted : 2 ≤ (view.behind 4).unread.length
      · have fits := bigEndian_lt ((view.behind 4).unread.take 2)
        rw [List.length_take_of_le counted] at fits
        rw [if_pos counted]
        refine .inr ⟨_, _, rfl, fits, ?_⟩
        simp only [View.behind_place counted, View.behind_place marked, Place.behind_behind]
        rfl
      · rw [if_neg counted]
        exact .inl ⟨_, _, rfl, forward.trans moved (forward.behind _ _)⟩
    · rw [if_pos marker]
      exact .inl ⟨_, _, rfl, moved⟩
  · rw [if_neg marked]
    exact .inl ⟨_, _, rfl, moved⟩

theorem readBankCount_cases (file : OpenFile) (view : View) :
    (consumedAt view.place.position ≠ file.header.sourceLength ∧
      file.readBankCount.outcome view = ⟨.error (.corruptStream (some view.place.position)
        (.sourceUnfinished (consumedAt view.place.position) file.header.sourceLength)), [], view⟩) ∨
    (consumedAt view.place.position = file.header.sourceLength ∧ ∃ error last,
      file.readBankCount.outcome view = ⟨.error error, [], last⟩ ∧ view.place.Advances last.place) ∨
    (consumedAt view.place.position = file.header.sourceLength ∧ ∃ count last,
      file.readBankCount.outcome view = ⟨.ok count, [], last⟩ ∧ count < 2 ^ 16 ∧
      last.place = StoredBanks.counted view.place count) := by
  rw [readBankCount_eq, outcome_currentPosition_bind]
  by_cases finished : consumedAt view.place.position = file.header.sourceLength
  · rw [if_neg (not_not_intro finished)]
    rcases countReading_cases view.place.position view with fails | counts
    · exact .inr (.inl ⟨finished, fails⟩)
    · exact .inr (.inr ⟨finished, counts⟩)
  · rw [if_pos finished]
    exact .inl ⟨finished, rfl⟩

theorem confined_countReading {changes : (Progress → Progress) → Prop}
    (counted : ∀ count, changes (Progress.withCount count)) (offset : Nat) :
    (countReading offset).Confined DecodeError.InTurn changes := by
  apply confined_bind (confined_bytes 4)
  intro marker
  split
  · exact confined_corrupt id
  · apply confined_bind (confined_word 2)
    intro count
    apply confined_bind (confined_remark _)
    intro _
    exact confined_bind (confined_updateProgress (counted count)) fun _ => confined_pure _

end OpenFile

/-- A bank is refused before a byte is read, or it is counted and then read. -/
theorem Bank.reading_cases (view : View) :
    (view.place.progress.banksRemaining = 0 ∧
      Bank.reading.outcome view = ⟨.error (.corruptStream (some view.place.position)
        (.noBankLeft (view.place.progress.bankCount?.getD 0))), [], view⟩) ∨
    (view.place.progress.banksRemaining ≠ 0 ∧ ∃ result last,
      Bank.reading.outcome view = ⟨result.map fun content => ⟨view.place.progress.banksRead, content⟩, [], last⟩ ∧
      BankContent.reading.outcome
        { view with place.progress.banksRead := view.place.progress.banksRead + 1 } = ⟨result, [], last⟩ ∧
      Place.Onward ⟨view.place.position, { view.place.progress with banksRead := view.place.progress.banksRead + 1 }⟩
        last.place) := by
  have reading : Bank.reading.outcome view = (if view.place.progress.banksRemaining = 0 then
      (corrupt view.place.position (.noBankLeft (view.place.progress.bankCount?.getD 0)) : Reading Bank)
    else do
      updateProgress fun progress => { progress with banksRead := progress.banksRead + 1 }
      return { ordinal := view.place.progress.banksRead, content := ← BankContent.reading }).outcome view := by
    simp only [Bank.reading, outcome_currentProgress_bind]
    by_cases none : view.place.progress.banksRemaining = 0
    · rw [if_pos none, if_pos none]
      rfl
    · rw [if_neg none, if_neg none]
  by_cases none : view.place.progress.banksRemaining = 0
  · rw [reading, if_pos none]
    exact .inl ⟨none, rfl⟩
  · obtain ⟨silent, kept⟩ := BankContent.keeps_reading
      { view with place.progress.banksRead := view.place.progress.banksRead + 1 }
    rw [reading, if_neg none, outcome_updateProgress_bind, outcome_bind_pure, silent]
    refine .inr ⟨none, _, _, rfl, ?_, kept⟩
    rw [← silent]

structure Place.BehindBank (earlier later : Place) : Prop where
  position : earlier.position ≤ later.position
  linesRead : later.progress.linesRead = earlier.progress.linesRead
  bankCount : later.progress.bankCount? = earlier.progress.bankCount?
  banksRead : later.progress.banksRead = earlier.progress.banksRead + 1

theorem Place.BehindBank.banksRemaining {earlier later : Place} (behind : earlier.BehindBank later) :
    later.progress.banksRemaining = earlier.progress.banksRemaining - 1 := by
  unfold Progress.banksRemaining
  rw [behind.bankCount, behind.banksRead]
  omega

theorem Bank.behind_reading {view : View} (left : view.place.progress.banksRemaining ≠ 0) :
    (Bank.reading.outcome view).handed = [] ∧ view.place.BehindBank (Bank.reading.outcome view).view.place := by
  rcases Bank.reading_cases view with ⟨none, -⟩ | ⟨-, result, last, same, -, onward⟩
  · exact absurd none left
  · rw [same]
    have progress := onward.progress
    exact ⟨rfl, onward.position, by rw [progress], by rw [progress], by rw [progress]⟩

theorem Bank.ordinal_of_ok {view last : View} {handed : List Delivery} {bank : Bank}
    (success : Bank.reading.outcome view = ⟨.ok bank, handed, last⟩) :
    view.place.progress.banksRemaining ≠ 0 ∧ bank.ordinal = view.place.progress.banksRead := by
  rcases Bank.reading_cases view with ⟨-, same⟩ | ⟨left, _ | content, last, same, -, -⟩
  · rw [same] at success
    cases success
  · rw [same] at success
    cases success
  · rw [same] at success
    cases success
    exact ⟨left, rfl⟩

def SectionEnds (due : Nat) (banks : List Bank) (stop : View) : Except DecodeError Unit → View → Prop
  | .ok (), last => banks.length = due ∧ last = stop
  | .error error, last => banks.length < due ∧ Bank.reading.outcome stop = ⟨.error error, [], last⟩

theorem bank_loops {due : Nat} {view : View} (remaining : view.place.progress.banksRemaining = due) :
    ∃ banks stop result last, Repeats Bank.reading view banks stop ∧ SectionEnds due banks stop result last ∧
      (∀ read, (OpenFile.banksReading due read).outcome view =
        ⟨result.map fun _ => read.reverse ++ banks, [], last⟩) ∧
      ∀ summary, (OpenFile.deliverBanks due summary).outcome view =
        ⟨result.map fun _ => (banks.map Bank.content).foldl Summary.addBank summary,
          (banks.map Bank.content).map .bank, last⟩ := by
  induction due generalizing view with
  | zero =>
    refine ⟨[], view, .ok (), view, .nil, ⟨rfl, rfl⟩, fun read => ?_, fun summary => rfl⟩
    rw [List.append_nil]
    rfl
  | succ due ih =>
    have left : view.place.progress.banksRemaining ≠ 0 := by omega
    have collects : ∀ read, (OpenFile.banksReading (due + 1) read).outcome view =
        (Bank.reading >>= fun bank => OpenFile.banksReading due (bank :: read)).outcome view := fun _ => rfl
    have delivers : ∀ summary, (OpenFile.deliverBanks (due + 1) summary).outcome view =
        (Bank.reading >>= fun bank => handOver (.bank bank.content) >>= fun _ =>
          OpenFile.deliverBanks due (summary.addBank bank.content)).outcome view := by
      intro summary
      rw [OpenFile.deliverBanks, outcome_currentProgress_bind, if_neg left]
    obtain ⟨silent, behind⟩ := Bank.behind_reading left
    rcases Outcome.cases_of_silent silent with ⟨error, middle, came⟩ | ⟨bank, middle, came⟩
    · refine ⟨[], view, .error error, middle, .nil, ⟨Nat.succ_pos due, came⟩, fun read => ?_, fun summary => ?_⟩
      · rw [collects, outcome_bind_of_error came]
        rfl
      · rw [delivers, outcome_bind_of_error came]
        rfl
    · rw [came] at behind
      have later : middle.place.progress.banksRemaining = due := by
        have fewer : middle.place.progress.banksRemaining = view.place.progress.banksRemaining - 1 :=
          behind.banksRemaining
        omega
      obtain ⟨banks, stop, result, last, repeats, ends, collected, delivered⟩ := ih later
      refine ⟨bank :: banks, stop, result, last, .cons came repeats, ?_, fun read => ?_, fun summary => ?_⟩
      · cases result with
        | ok => exact ⟨congrArg (· + 1) ends.1, ends.2⟩
        | error error => exact ⟨Nat.succ_lt_succ ends.1, ends.2⟩
      · rw [collects, outcome_bind_of_ok came, collected, List.reverse_cons, List.append_assoc]
        rfl
      · rw [delivers, outcome_bind_of_ok came, outcome_handOver_bind, delivered]
        rfl

theorem Reading.Repeats.behind_banks {view stop : View} {banks : List Bank}
    (repeats : Repeats Bank.reading view banks stop) :
    stop.place.progress.bankCount? = view.place.progress.bankCount? ∧
      stop.place.progress.banksRead = view.place.progress.banksRead + banks.length := by
  induction repeats with
  | nil => exact ⟨rfl, rfl⟩
  | @cons view middle stop bank banks came _ ih =>
    obtain ⟨left, -⟩ := Bank.ordinal_of_ok came
    obtain ⟨-, behind⟩ := Bank.behind_reading left
    rw [came] at behind
    refine ⟨ih.1.trans behind.bankCount, ?_⟩
    have one : middle.place.progress.banksRead = view.place.progress.banksRead + 1 := behind.banksRead
    rw [ih.2, one, List.length_cons]
    omega

theorem OpenFile.readBanks_cases (file : OpenFile) (view : View) :
    (∃ error last, file.readBankCount.outcome view = ⟨.error error, [], last⟩ ∧
      file.readBanks.outcome view = ⟨.error error, [], last⟩) ∨
    (∃ count counted banks stop result last, file.readBankCount.outcome view = ⟨.ok count, [], counted⟩ ∧
      counted.place = StoredBanks.counted view.place count ∧ Repeats Bank.reading counted banks stop ∧
      SectionEnds count banks stop result last ∧ file.readBanks.outcome view = ⟨result.map fun _ => banks, [], last⟩ ∧
      ∀ summary, (OpenFile.deliverBanks count summary).outcome counted =
        ⟨result.map fun _ => (banks.map Bank.content).foldl Summary.addBank summary,
          (banks.map Bank.content).map .bank, last⟩) := by
  have failed : ∀ error last, file.readBankCount.outcome view = ⟨.error error, [], last⟩ →
      file.readBanks.outcome view = ⟨.error error, [], last⟩ := fun _ _ came => outcome_bind_of_error came
  rcases file.readBankCount_cases view with ⟨-, came⟩ | ⟨-, error, last, came, -⟩ | ⟨-, count, counted, came, -, place⟩
  · exact .inl ⟨_, _, came, failed _ _ came⟩
  · exact .inl ⟨error, last, came, failed _ _ came⟩
  · have remaining : counted.place.progress.banksRemaining = count := by rw [place]; rfl
    obtain ⟨banks, stop, result, last, repeats, ends, collected, delivered⟩ := bank_loops remaining
    refine .inr ⟨count, counted, banks, stop, result, last, came, place, repeats, ends, ?_, delivered⟩
    exact (outcome_bind_of_ok came).trans (collected [])

end AmosBasic
