import AmosBasic.Proofs.Line.Draft
import AmosBasic.Proofs.Session.History
import AmosBasic.Proofs.Session.Opening
import Mathlib.Data.ENat.Basic

namespace AmosBasic

open Reading

namespace OpenFile

variable {σ : Type}

section

variable (file : OpenFile) (sink : Sink σ)

def LineWithin (machine : Machine σ) (line : Line) : Prop :=
  ∃ behind, (Line.reading file.options).run sink machine = (.ok line, behind) ∧
    consumedAt behind.cursor.position ≤ file.header.sourceLength

/-- Lines within the source, as one call of `readLine` after the other comes upon them. -/
inductive LinesWithin : Machine σ → List Line → Machine σ → Prop
  | nil {machine : Machine σ} : LinesWithin machine [] machine
  | cons {machine stop : Machine σ} {line : Line} {lines : List Line} (first : file.LineWithin sink machine line)
      (rest : LinesWithin (file.readLine.run sink machine).2 lines stop) : LinesWithin machine (line :: lines) stop

def Operation.lineLimit : Operation → ℕ∞
  | readLine => 1
  | readSource => ⊤
  | _ => 0

namespace Step

/-- All the lines within the source that the operation comes upon are counted, and nothing else is. -/
def CountsLines (step : Step σ) : Prop :=
  ∃ lines stop, file.LinesWithin sink step.before lines stop ∧
    (lines.length : ℕ∞) ≤ step.operation.lineLimit ∧
    ((lines.length : ℕ∞) < step.operation.lineLimit → ∀ line, ¬ file.LineWithin sink stop line) ∧
    step.after.progress.linesRead = step.before.progress.linesRead + lines.length

def GetsBankCount (step : Step σ) : Prop :=
  (step.operation = .readBankCount ∨ step.operation = .readBanks) ∧
    ∃ count counted, file.readBankCount.run sink step.before = (.ok count, counted)

def KeepsBankCounters (step : Step σ) : Prop :=
  step.after.progress.bankCount? = step.before.progress.bankCount? ∧
    step.after.progress.banksRead = step.before.progress.banksRead

def CountsBank (step : Step σ) : Prop :=
  if step.before.progress.banksRemaining = 0 then
    (∃ error, step.result = .error error) ∧ step.after.view = step.before.view
  else
    step.after.progress.banksRemaining + 1 = step.before.progress.banksRemaining ∧
      ∀ bank, step.result = .ok (.bank bank) → bank.ordinal = step.before.progress.banksRead

def CountsBanks (step : Step σ) : Prop :=
  ∃ count, step.after.progress.bankCount? = some count ∧
    match step.result with
    | .ok item => step.after.progress.banksRemaining = 0 ∧ ∃ banks, item = .banks banks ∧ banks.length = count
    | .error _ => step.after.progress.banksRemaining < count

structure Consistent (step : Step σ) : Prop where
  position : step.before.cursor.position ≤ step.after.cursor.position
  exhausted : file.exhaustedAt step.before.cursor.position = true → file.exhaustedAt step.after.cursor.position = true
  lineRefused : step.operation = .readLine → file.exhaustedAt step.before.cursor.position = true →
    (∃ error, step.result = .error error) ∧ step.after.view = step.before.view
  linesRead : step.CountsLines file sink
  sourceConsumed : step.GetsBankCount file sink → consumedAt step.before.cursor.position = file.header.sourceLength
  noBankCount : (step.operation = .readBankCount ∨ step.operation = .readBanks) → ¬ step.GetsBankCount file sink →
    (∃ error, step.result = .error error) ∧ step.KeepsBankCounters
  bank : step.operation = .readBank → step.CountsBank
  banks : step.operation = .readBanks → step.GetsBankCount file sink → step.CountsBanks
  noBank : step.operation ∉ [.readBankCount, .readBank, .readBanks] → step.KeepsBankCounters
  /-- Nothing is cut off at zero when the banks read are taken from the bank count. -/
  banksRead : step.after.progress.banksRead + step.after.progress.banksRemaining =
    step.after.progress.bankCount?.getD 0
  bankCount : step.after.progress.bankCount?.getD 0 < 2 ^ 16

structure Precedes (earlier later : Step σ) : Prop where
  position : earlier.after.cursor.position ≤ later.before.cursor.position
  exhausted : file.exhaustedAt earlier.after.cursor.position = true →
    file.exhaustedAt later.before.cursor.position = true
  bankCount : ¬ (earlier.GetsBankCount file sink ∧ later.GetsBankCount file sink)

end Step

end

end OpenFile

structure Place.InSession (place : Place) : Prop where
  opened : Header.size ≤ place.position
  banksRead : place.progress.banksRead ≤ place.progress.bankCount?.getD 0
  bankCount : place.progress.bankCount?.getD 0 < 2 ^ 16

structure Place.Proceeds (earlier later : Place) : Prop where
  position : earlier.position ≤ later.position
  session : earlier.InSession → later.InSession

theorem Place.forward_proceeds : Forward Proceeds where
  refl _ := ⟨Nat.le_refl _, id⟩
  trans first second :=
    ⟨Nat.le_trans first.position second.position, fun session => second.session (first.session session)⟩
  behind _ _ := ⟨Nat.le_add_right _ _, fun session =>
    ⟨Nat.le_add_right_of_le session.opened, session.banksRead, session.bankCount⟩⟩

structure Place.KeepsBanks (earlier later : Place) : Prop where
  position : earlier.position ≤ later.position
  bankCount : later.progress.bankCount? = earlier.progress.bankCount?
  banksRead : later.progress.banksRead = earlier.progress.banksRead

theorem Place.forward_keepsBanks : Forward KeepsBanks where
  refl _ := ⟨Nat.le_refl _, rfl, rfl⟩
  trans first second := ⟨Nat.le_trans first.position second.position, second.bankCount.trans first.bankCount,
    second.banksRead.trans first.banksRead⟩
  behind _ _ := ⟨Nat.le_add_right _ _, rfl, rfl⟩

theorem Place.Onward.keepsBanks {earlier later : Place} (onward : earlier.Onward later) : earlier.KeepsBanks later := by
  have progress := onward.progress
  exact ⟨onward.position, by rw [progress], by rw [progress]⟩

theorem Place.KeepsBanks.proceeds {earlier later : Place} (kept : earlier.KeepsBanks later) :
    earlier.Proceeds later := by
  refine ⟨kept.position, fun session => ⟨Nat.le_trans session.opened kept.position, ?_, ?_⟩⟩
  · rw [kept.banksRead, kept.bankCount]
    exact session.banksRead
  · rw [kept.bankCount]
    exact session.bankCount

namespace OpenFile

variable {σ : Type}

theorem keepsBanks_readLine (file : OpenFile) : file.readLine.Keeps Place.KeepsBanks := by
  intro view
  have further := (Line.keeps_reading file.options view).2.onward.keepsBanks
  rcases file.readLine_cases view with ⟨-, same⟩ | ⟨-, _, _, came, same⟩ | ⟨-, _, _, came, -, same⟩ |
    ⟨-, _, _, came, -, same⟩
  · rw [same]
    exact ⟨rfl, Place.forward_keepsBanks.refl _⟩
  · rw [came] at further
    rw [same]
    exact ⟨rfl, further⟩
  · rw [came] at further
    rw [same]
    exact ⟨rfl, further⟩
  · rw [came] at further
    rw [same]
    exact ⟨rfl, further.position, further.bankCount, further.banksRead⟩

theorem proceeds_readBankCount (file : OpenFile) : file.readBankCount.Keeps Place.Proceeds := by
  intro view
  rcases file.readBankCount_cases view with ⟨-, same⟩ | ⟨-, _, _, same, advances⟩ | ⟨-, count, last, same, small, place⟩
  · rw [same]
    exact ⟨rfl, Place.forward_proceeds.refl _⟩
  · rw [same]
    exact ⟨rfl, advances.onward.keepsBanks.proceeds⟩
  · rw [same, place]
    exact ⟨rfl, Nat.le_add_right _ _, fun session => ⟨Nat.le_add_right_of_le session.opened, Nat.zero_le _, small⟩⟩

theorem proceeds_bank : Bank.reading.Keeps Place.Proceeds := by
  intro view
  by_cases left : view.place.progress.banksRemaining = 0
  · rcases Bank.reading_cases view with ⟨-, same⟩ | ⟨some, -⟩
    · rw [same]
      exact ⟨rfl, Place.forward_proceeds.refl _⟩
    · exact absurd left some
  · obtain ⟨silent, behind⟩ := Bank.behind_reading left
    refine ⟨silent, behind.position, fun session => ⟨Nat.le_trans session.opened behind.position, ?_, ?_⟩⟩
    · rw [behind.banksRead, behind.bankCount]
      unfold Progress.banksRemaining at left
      omega
    · rw [behind.bankCount]
      exact session.bankCount

theorem Operation.proceeds_reading (file : OpenFile) (operation : Operation) :
    (operation.reading file).Keeps Place.Proceeds :=
  operation.keeps_reading Place.forward_proceeds (fun _ _ onward => onward.keepsBanks.proceeds)
    (fun _ => file.keepsBanks_readLine.mono fun _ _ kept => kept.proceeds) (fun _ => file.proceeds_readBankCount)
    fun _ => proceeds_bank

theorem proceeds_step (file : OpenFile) (sink : Sink σ) (operation : Operation) (machine : Machine σ) :
    machine.place.Proceeds (file.step sink operation machine).after.place := by
  obtain ⟨-, view⟩ := file.step_outcome sink operation machine
  have place := congrArg View.place view
  have proceeds := (operation.proceeds_reading file machine.view).2
  rw [← place] at proceeds
  exact proceeds

section

variable (file : OpenFile) (sink : Sink σ)

theorem run_readLine (machine : Machine σ) :
    (file.readLine.run sink machine).2.view = (file.readLine.outcome machine.view).view := by
  obtain ⟨final, same, view, -⟩ := run_of_silent sink machine (file.readLine_silent machine.view)
  rw [same]
  exact view

theorem lineWithin_iff {machine : Machine σ} {line : Line} :
    file.LineWithin sink machine line ↔
      ∃ last, (Line.reading file.options).outcome machine.view = ⟨.ok line, [], last⟩ ∧
        consumedAt last.place.position ≤ file.header.sourceLength := by
  have silent := (Line.keeps_reading file.options machine.view).1
  obtain ⟨final, same, view, -⟩ := run_of_silent sink machine silent
  constructor
  · rintro ⟨behind, came, within⟩
    rw [same] at came
    obtain ⟨result, rfl⟩ := Prod.mk.inj came
    refine ⟨final.view, ?_, within⟩
    rw [← silent, ← result, view]
  · rintro ⟨last, came, within⟩
    rw [came] at same view
    have place : final.view.place = last.place := congrArg View.place view
    rw [← place] at within
    exact ⟨final, same, within⟩

theorem not_lineWithin_of_exhausted {machine : Machine σ} (opened : Header.size ≤ machine.cursor.position)
    (exhausted : file.exhaustedAt machine.cursor.position = true) (line : Line) :
    ¬ file.LineWithin sink machine line := by
  rw [lineWithin_iff, not_exists]
  rintro last ⟨came, within⟩
  obtain ⟨positive, place⟩ := Line.outcome_ok came
  have further : consumedAt last.place.position = consumedAt machine.cursor.position + 2 * line.declaredWords := by
    rw [place]
    exact consumedAt_add opened _
  rw [exhaustedAt_iff] at exhausted
  omega

theorem readLine_counts {machine : Machine σ} (opened : Header.size ≤ machine.cursor.position) :
    (∃ line last, file.readLine.outcome machine.view = ⟨.ok line, [], last⟩ ∧ file.LineWithin sink machine line) ∨
    (∃ error last, file.readLine.outcome machine.view = ⟨.error error, [], last⟩ ∧
      last.place.progress.linesRead = machine.progress.linesRead ∧ ∀ line, ¬ file.LineWithin sink machine line) := by
  have kept := (Line.keeps_reading file.options machine.view).2
  rcases file.readLine_cases machine.view with ⟨exhausted, same⟩ | ⟨-, error, last, came, same⟩ |
    ⟨-, line, last, came, past, same⟩ | ⟨-, line, last, came, within, same⟩
  · exact .inr ⟨_, _, same, rfl, file.not_lineWithin_of_exhausted sink opened exhausted⟩
  · rw [came] at kept
    refine .inr ⟨error, last, same, congrArg Progress.linesRead kept.progress, fun line found => ?_⟩
    obtain ⟨_, decoded, -⟩ := (file.lineWithin_iff sink).mp found
    rw [came] at decoded
    cases decoded
  · rw [came] at kept
    refine .inr ⟨_, last, same, congrArg Progress.linesRead kept.progress, fun line found => ?_⟩
    obtain ⟨_, decoded, within⟩ := (file.lineWithin_iff sink).mp found
    rw [came] at decoded
    cases decoded
    exact absurd within (Nat.not_le.mpr past)
  · exact .inl ⟨line, _, same, (file.lineWithin_iff sink).mpr ⟨last, came, within⟩⟩

theorem linesWithin_of_repeats {view stop : View} {lines : List Line} (repeats : Repeats file.readLine view lines stop)
    {machine : Machine σ} (same : machine.view = view) (opened : Header.size ≤ machine.cursor.position) :
    ∃ last, file.LinesWithin sink machine lines last ∧ last.view = stop ∧ Header.size ≤ last.cursor.position ∧
      last.progress.linesRead = machine.progress.linesRead + lines.length := by
  induction repeats generalizing machine with
  | nil => exact ⟨machine, .nil, same, opened, rfl⟩
  | @cons view middle stop line lines came _ ih =>
    subst same
    have behind : (file.readLine.run sink machine).2.view = middle :=
      (file.run_readLine sink machine).trans (congrArg Outcome.view came)
    obtain ⟨-, -, -, position, -, progress⟩ := file.readLine_of_ok came
    rw [← behind] at position progress
    have further : Header.size ≤ (file.readLine.run sink machine).2.cursor.position := by
      change (file.readLine.run sink machine).2.cursor.position = machine.cursor.position + _ at position
      omega
    have counted : (file.readLine.run sink machine).2.progress.linesRead = machine.progress.linesRead + 1 :=
      congrArg Progress.linesRead progress
    obtain ⟨last, rest, final, beyond, total⟩ := ih behind further
    rcases file.readLine_counts sink opened with ⟨found, _, again, within⟩ | ⟨_, _, again, -⟩
    · rw [came] at again
      cases again
      refine ⟨last, .cons within rest, final, beyond, ?_⟩
      rw [total, counted, List.length_cons]
      omega
    · rw [came] at again
      cases again

theorem countsLines_readLine {machine : Machine σ} (opened : Header.size ≤ machine.cursor.position) :
    (file.step sink .readLine machine).CountsLines file sink := by
  obtain ⟨-, view⟩ := file.step_outcome_of sink .readLine machine rfl
  rcases file.readLine_counts sink opened with ⟨line, last, came, within⟩ | ⟨error, last, came, same, none⟩
  · obtain ⟨-, -, -, -, -, progress⟩ := file.readLine_of_ok came
    rw [came] at view
    refine ⟨[line], _, .cons within .nil, le_refl _, fun fewer => absurd fewer (lt_irrefl _), ?_⟩
    exact congrArg Progress.linesRead ((congrArg (·.place.progress) view).trans progress)
  · rw [came] at view
    refine ⟨[], machine, .nil, zero_le, fun _ => none, ?_⟩
    exact (congrArg (·.place.progress.linesRead) view).trans same

theorem countsLines_readSource {machine : Machine σ} (opened : Header.size ≤ machine.cursor.position) :
    (file.step sink .readSource machine).CountsLines file sink := by
  have room : Header.size ≤ machine.view.place.position := opened
  obtain ⟨lines, stop, result, last, repeats, ends, collected, -⟩ :=
    file.listing_loops room (Nat.le_add_left file.header.sourceLength _)
  obtain ⟨final, within, same, further, counted⟩ := file.linesWithin_of_repeats sink repeats rfl opened
  obtain ⟨-, view⟩ := file.step_outcome_of sink .readSource machine rfl
  have after : (file.step sink .readSource machine).after.view = last :=
    view.trans (congrArg Outcome.view (collected []))
  have linesRead : (file.step sink .readSource machine).after.progress.linesRead = last.place.progress.linesRead :=
    congrArg (·.place.progress.linesRead) after
  subst same
  refine ⟨lines, final, within, le_top, fun _ => ?_, ?_⟩
  · cases result with
    | ok => exact file.not_lineWithin_of_exhausted sink further ends.1
    | error error =>
      rcases file.readLine_counts sink further with ⟨line, _, came, -⟩ | ⟨_, _, -, -, none⟩
      · rw [ends.2] at came
        cases came
      · exact none
  · refine linesRead.trans (Eq.trans ?_ counted)
    cases result with
    | ok =>
      rw [ends.2]
      rfl
    | error error =>
      rcases file.readLine_counts sink further with ⟨line, _, came, -⟩ | ⟨_, _, came, same, -⟩
      · rw [ends.2] at came
        cases came
      · rw [ends.2] at came
        cases came
        exact same

theorem lineLimit_of_not_mem {operation : Operation} (other : operation ∉ [.readLine, .readSource]) :
    operation.lineLimit = 0 := by
  cases operation <;> first | rfl | exact absurd (by decide) other

theorem countsLines_other {operation : Operation} (other : operation ∉ [.readLine, .readSource])
    (machine : Machine σ) : (file.step sink operation machine).CountsLines file sink := by
  have forward : Place.Forward fun earlier later => later.progress.linesRead = earlier.progress.linesRead :=
    ⟨fun _ => rfl, fun first second => second.trans first, fun _ _ => rfl⟩
  have counted : file.readBankCount.Keeps fun earlier later =>
      later.progress.linesRead = earlier.progress.linesRead := by
    intro view
    refine ⟨(file.silent_readBankCount view).1, ?_⟩
    rcases file.readBankCount_cases view with ⟨-, came⟩ | ⟨-, _, _, came, advances⟩ | ⟨-, _, _, came, -, place⟩
    · rw [came]
    · rw [came, advances.progress]
    · rw [came, place]
      rfl
  have banks : Bank.reading.Keeps fun earlier later => later.progress.linesRead = earlier.progress.linesRead := by
    intro view
    refine ⟨(silent_bank view).1, ?_⟩
    rcases Bank.reading_cases view with ⟨-, came⟩ | ⟨left, -⟩
    · rw [came]
    · exact (Bank.behind_reading left).2.linesRead
  have kept := operation.keeps_reading forward (fun _ _ onward => by rw [onward.progress])
    (fun member => absurd member other) (fun _ => counted) (fun _ => banks) machine.view
  have after := congrArg (·.place.progress.linesRead) (file.step_outcome sink operation machine).2
  have limit : (file.step sink operation machine).operation.lineLimit = 0 := lineLimit_of_not_mem other
  refine ⟨[], machine, .nil, zero_le, fun fewer => ?_, after.trans kept.2⟩
  rw [limit] at fewer
  exact absurd fewer (not_lt_of_ge zero_le)

theorem countsLines_step {machine : Machine σ} (opened : Header.size ≤ machine.cursor.position)
    (operation : Operation) : (file.step sink operation machine).CountsLines file sink := by
  by_cases other : operation ∉ [.readLine, .readSource]
  · exact file.countsLines_other sink other machine
  · simp only [List.mem_cons, List.not_mem_nil, or_false, not_not] at other
    rcases other with rfl | rfl
    · exact file.countsLines_readLine sink opened
    · exact file.countsLines_readSource sink opened

theorem run_readBankCount (machine : Machine σ) :
    (file.readBankCount.run sink machine).1 = (file.readBankCount.outcome machine.view).result := by
  obtain ⟨final, same, -, -⟩ := run_of_silent sink machine (file.silent_readBankCount machine.view).1
  rw [same]

theorem getsBankCount_iff (operation : Operation) (machine : Machine σ) :
    (file.step sink operation machine).GetsBankCount file sink ↔
      (operation = .readBankCount ∨ operation = .readBanks) ∧
        ∃ count, (file.readBankCount.outcome machine.view).result = .ok count := by
  refine and_congr_right fun _ => exists_congr fun count => ?_
  rw [← file.run_readBankCount sink]
  constructor
  · rintro ⟨counted, same⟩
    exact congrArg Prod.fst same
  · intro same
    exact ⟨_, Prod.ext same rfl⟩

theorem bankCount_of_getsBankCount {operation : Operation} {machine : Machine σ}
    (gets : (file.step sink operation machine).GetsBankCount file sink) :
    consumedAt machine.cursor.position = file.header.sourceLength ∧
      ∃ count counted, file.readBankCount.outcome machine.view = ⟨.ok count, [], counted⟩ ∧
        counted.place = StoredBanks.counted machine.place count := by
  obtain ⟨-, count, success⟩ := (file.getsBankCount_iff sink operation machine).mp gets
  rcases file.readBankCount_cases machine.view with ⟨-, came⟩ | ⟨-, _, _, came, -⟩ | ⟨finished, _, last, came, -, place⟩
  · rw [came] at success
    cases success
  · rw [came] at success
    cases success
  · exact ⟨finished, _, last, came, place⟩

theorem noBankCount_step {operation : Operation} {machine : Machine σ}
    (asks : operation = .readBankCount ∨ operation = .readBanks)
    (fails : ¬ (file.step sink operation machine).GetsBankCount file sink) :
    (∃ error, (file.step sink operation machine).result = .error error) ∧
      (file.step sink operation machine).KeepsBankCounters := by
  have failed : ∃ error last, file.readBankCount.outcome machine.view = ⟨.error error, [], last⟩ ∧
      machine.place.KeepsBanks last.place := by
    rcases file.readBankCount_cases machine.view with ⟨-, came⟩ | ⟨-, error, last, came, advances⟩ |
      ⟨-, count, last, came, -, -⟩
    · exact ⟨_, _, came, Place.forward_keepsBanks.refl _⟩
    · exact ⟨error, last, came, advances.onward.keepsBanks⟩
    · refine absurd ((file.getsBankCount_iff sink operation machine).mpr ⟨asks, count, ?_⟩) fails
      rw [came]
  obtain ⟨error, last, came, kept⟩ := failed
  have outcome : ∃ error, (file.step sink operation machine).result = .error error ∧
      (file.step sink operation machine).after.view = last := by
    rcases asks with rfl | rfl
    · obtain ⟨result, view⟩ := file.step_outcome_of sink .readBankCount machine rfl
      rw [came] at result view
      exact ⟨error, result, view⟩
    · have banks : file.readBanks.outcome machine.view = ⟨.error error, [], last⟩ := outcome_bind_of_error came
      obtain ⟨result, view⟩ := file.step_outcome_of sink .readBanks machine rfl
      rw [banks] at result view
      exact ⟨error, result, view⟩
  obtain ⟨error, result, view⟩ := outcome
  refine ⟨⟨error, result⟩, ?_, ?_⟩
  · exact (congrArg (·.place.progress.bankCount?) view).trans kept.bankCount
  · exact (congrArg (·.place.progress.banksRead) view).trans kept.banksRead

theorem countsBank_step {machine : Machine σ} : (file.step sink .readBank machine).CountsBank := by
  obtain ⟨result, view⟩ := file.step_outcome_of sink .readBank machine rfl
  have before : (file.step sink .readBank machine).before = machine := rfl
  unfold Step.CountsBank
  rw [before]
  by_cases none : machine.progress.banksRemaining = 0
  · rcases Bank.reading_cases machine.view with ⟨-, came⟩ | ⟨left, -⟩
    · rw [if_pos none]
      rw [came] at result view
      exact ⟨⟨_, result⟩, view⟩
    · exact absurd none left
  · have left : machine.view.place.progress.banksRemaining ≠ 0 := none
    obtain ⟨-, behind⟩ := Bank.behind_reading left
    rw [if_neg none]
    constructor
    · have fewer := behind.banksRemaining
      rw [← view] at fewer
      change (file.step sink .readBank machine).after.progress.banksRemaining =
        machine.progress.banksRemaining - 1 at fewer
      omega
    · intro bank success
      rcases came : Bank.reading.outcome machine.view with ⟨error | read, handed, last⟩
      · rw [came, success] at result
        cases result
      · rw [came, success] at result
        cases result
        exact (Bank.ordinal_of_ok came).2

theorem countsBanks_step {machine : Machine σ} (gets : (file.step sink .readBanks machine).GetsBankCount file sink) :
    (file.step sink .readBanks machine).CountsBanks := by
  obtain ⟨-, count, counted, success, place⟩ := file.bankCount_of_getsBankCount sink gets
  obtain ⟨result, view⟩ := file.step_outcome_of sink .readBanks machine rfl
  rcases file.readBanks_cases machine.view with ⟨_, _, came, -⟩ |
    ⟨_, _, banks, stop, ending, last, came, -, repeats, ends, collected, -⟩
  · rw [success] at came
    cases came
  · rw [success] at came
    cases came
    obtain ⟨declared, read⟩ := repeats.behind_banks
    rw [place] at declared read
    have known : stop.place.progress.bankCount? = some count := declared
    have read : stop.place.progress.banksRead = banks.length := read.trans (Nat.zero_add _)
    have remaining : stop.place.progress.banksRemaining = count - banks.length := by
      rw [Progress.banksRemaining, known, read]
      rfl
    rw [collected] at result view
    have after : (file.step sink .readBanks machine).after.progress = last.place.progress :=
      congrArg (·.place.progress) view
    refine ⟨count, ?_⟩
    rw [after, result]
    cases ending with
    | ok =>
      obtain ⟨all, rfl⟩ := ends
      have none : last.place.progress.banksRemaining = 0 := by omega
      exact ⟨known, none, banks, rfl, all⟩
    | error error =>
      obtain ⟨fewer, failed⟩ := ends
      have left : stop.place.progress.banksRemaining ≠ 0 := by omega
      obtain ⟨-, behind⟩ := Bank.behind_reading left
      rw [failed] at behind
      have lower : last.place.progress.banksRemaining = stop.place.progress.banksRemaining - 1 := behind.banksRemaining
      have less : last.place.progress.banksRemaining < count := by omega
      exact ⟨behind.bankCount.trans known, less⟩

theorem noBank_step {operation : Operation} (other : operation ∉ [.readBankCount, .readBank, .readBanks])
    (machine : Machine σ) : (file.step sink operation machine).KeepsBankCounters := by
  have apart : operation ≠ .readBankCount ∧ operation ≠ .readBank ∧ operation ≠ .readBanks := by
    simpa using other
  have kept := operation.keeps_reading Place.forward_keepsBanks (fun _ _ onward => onward.keepsBanks)
    (fun _ => file.keepsBanks_readLine) (fun member => absurd member (by simp [apart]))
    (fun member => absurd member (by simp [apart])) machine.view
  have view := (file.step_outcome sink operation machine).2
  rw [← view] at kept
  exact ⟨kept.2.bankCount, kept.2.banksRead⟩

theorem consistent_step {machine : Machine σ} (session : machine.place.InSession) (operation : Operation) :
    (file.step sink operation machine).Consistent file sink where
  position := (file.proceeds_step sink operation machine).position
  exhausted := file.exhaustedAt_mono (file.proceeds_step sink operation machine).position
  lineRefused := by
    rintro rfl exhausted
    obtain ⟨result, view⟩ := file.step_outcome_of sink .readLine machine rfl
    rcases file.readLine_cases machine.view with ⟨-, came⟩ | ⟨left, -⟩ | ⟨left, -⟩ | ⟨left, -⟩
    · rw [came] at result view
      exact ⟨⟨_, result⟩, view⟩
    all_goals exact absurd (exhausted.symm.trans left) (by decide)
  linesRead := file.countsLines_step sink session.opened operation
  sourceConsumed gets := (file.bankCount_of_getsBankCount sink gets).1
  noBankCount := file.noBankCount_step sink
  bank := by
    rintro rfl
    exact file.countsBank_step sink
  banks := by
    rintro rfl
    exact file.countsBanks_step sink
  noBank other := file.noBank_step sink other machine
  banksRead := by
    have after := (file.proceeds_step sink operation machine).session session
    exact Nat.add_sub_cancel' after.banksRead
  bankCount := ((file.proceeds_step sink operation machine).session session).bankCount

theorem beyond_source_of_getsBankCount {operation : Operation} {machine : Machine σ}
    (opened : Header.size ≤ machine.cursor.position)
    (gets : (file.step sink operation machine).GetsBankCount file sink) :
    file.header.sourceLength < consumedAt (file.step sink operation machine).after.cursor.position := by
  obtain ⟨finished, count, counted, came, place⟩ := file.bankCount_of_getsBankCount sink gets
  have behind : consumedAt counted.place.position = file.header.sourceLength + 6 := by
    rw [place, ← finished]
    exact consumedAt_add opened 6
  have further : counted.place.position ≤ (file.step sink operation machine).after.cursor.position := by
    rcases gets.1 with same | same
    · cases same
      obtain ⟨-, view⟩ := file.step_outcome_of sink .readBankCount machine rfl
      rw [came] at view
      exact (congrArg (·.place.position) view).symm.le
    · cases same
      obtain ⟨-, view⟩ := file.step_outcome_of sink .readBanks machine rfl
      have banks : file.readBanks.outcome machine.view = (banksReading count []).outcome counted :=
        outcome_bind_of_ok came
      rw [banks] at view
      have proceeds := (keeps_banksReading Place.forward_proceeds proceeds_bank count [] counted).2
      rw [← view] at proceeds
      exact proceeds.position
  have beyond := consumedAt_mono further
  omega

end

/-- Any operations on an opened file, in any order and however they end: every step keeps the counters consistent,
the position never decreases and an exhausted source stays so, and the bank count is got at most once. -/
theorem history_consistent (sink : Sink σ) (options : DecodeOptions) (source : Source) (receiver : σ)
    {file : OpenFile} {opened : Machine σ}
    (opening : openOn sink options (.fresh source receiver) = (.ok file, opened)) (operations : List Operation) :
    (∀ step ∈ file.history sink opened operations, step.Consistent file sink) ∧
      (file.history sink opened operations).Pairwise (Step.Precedes file sink) := by
  have start : opened.place.InSession := by
    obtain ⟨_, same, view, -⟩ := openOn_outcome sink options (.fresh source receiver)
    rw [opening] at same
    obtain ⟨success, rfl⟩ := Prod.mk.inj same
    obtain ⟨-, place⟩ := opening_of_ok success.symm
    have place : opened.place = ⟨Header.size, {}⟩ := (congrArg View.place view).trans place
    rw [place]
    exact ⟨Nat.le_refl _, Nat.le_refl _, by decide⟩
  have kept : ∀ operation (machine : Machine σ), machine.place.InSession →
      (file.step sink operation machine).after.place.InSession :=
    fun operation machine => (file.proceeds_step sink operation machine).session
  have ordered := (pairwise_history Place.forward_proceeds (file.proceeds_step sink) opened operations).2
  constructor
  · intro step member
    obtain ⟨session, same⟩ := forall_history kept start member
    rw [same]
    exact file.consistent_step sink session _
  · apply ordered.imp_of_mem
    intro earlier later before after proceeds
    obtain ⟨session, same⟩ := forall_history kept start before
    obtain ⟨-, again⟩ := forall_history kept start after
    refine ⟨proceeds.position, file.exhaustedAt_mono proceeds.position, fun ⟨first, second⟩ => ?_⟩
    rw [same] at first
    have beyond := file.beyond_source_of_getsBankCount sink session.opened first
    rw [again] at second
    obtain ⟨finished, -⟩ := file.bankCount_of_getsBankCount sink second
    rw [← same] at beyond
    have further := consumedAt_mono proceeds.position
    change consumedAt earlier.after.cursor.position ≤ consumedAt later.before.cursor.position at further
    omega

theorem history_consistent_line_and_bank :
    let line := LineDraft.encode ⟨1, [.remark .rem [0x48, 0x69]]⟩
    let bank := StoredBank.encode (.memory 3 0 0x1000000A (Latin1.encode "Samples ") [1, 2])
    let bytes := encodeFile (Latin1.encode "AMOS Basic V134 ") line (encodeBankCount 1 ++ bank)
    let operations : List Operation :=
      [.readBankCount, .readBank, .readLine, .readLine, .readBanks, .readBank, .readBankCount]
    ∃ file opened, openOn Sink.discard {} (.fresh { bytes } ()) = (.ok file, opened) ∧
      (∀ step ∈ file.history Sink.discard opened operations, step.Consistent file Sink.discard) ∧
      (file.history Sink.discard opened operations).Pairwise (Step.Precedes file Sink.discard) := by
  intro line bank bytes operations
  obtain ⟨opened, same, -, -⟩ := openOn_outcome Sink.discard {} (.fresh { bytes } ())
  have accepted : (opening {} (Machine.fresh { bytes } ()).view).result.map (·.header) =
      .ok ⟨HeaderVariant.known[1], 10⟩ := by decide
  rcases came : (opening {} (Machine.fresh { bytes } ()).view).result with error | file
  · rw [came] at accepted
    cases accepted
  · rw [came] at same
    exact ⟨file, opened, same, history_consistent Sink.discard {} { bytes } () same operations⟩

end OpenFile

end AmosBasic
