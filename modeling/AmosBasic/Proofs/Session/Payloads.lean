import AmosBasic.Proofs.Bank.PayloadPlaces
import AmosBasic.Proofs.Session.History
import Mathlib.Data.List.Forall2

namespace AmosBasic

open Reading

def SectionPayloadAt (bytes : List UInt8) (index : Nat) : Prop :=
  bytes.take 4 = bankSectionMarker ∧ 6 ≤ index ∧ PayloadAt (bytes.drop 6) (index - 6)

inductive SectionsApart : List UInt8 → List UInt8 → Prop
  | same (bytes : List UInt8) : SectionsApart bytes bytes
  | counted {count : Nat} {one other : List UInt8} (fits : count < 2 ^ 16) (apart : BanksApart one other) :
      SectionsApart (encodeBankCount count ++ one) (encodeBankCount count ++ other)

theorem sectionsApart_of_agrees {one other : List UInt8} (agrees : AgreesOutside (SectionPayloadAt one) one other) :
    SectionsApart one other := by
  by_cases counted : one.take 4 = bankSectionMarker ∧ 6 ≤ one.length
  · obtain ⟨marked, enough⟩ := counted
    have whole := List.take_append_drop 4 one
    rw [marked] at whole
    have room : 2 ≤ (one.drop 4).length := by
      rw [List.length_drop]
      omega
    obtain ⟨count, banks, fits, same⟩ := exists_eq_bigEndianBytes_append room
    rw [same, ← List.append_assoc, ← encodeBankCount] at whole
    subst whole
    have six : (encodeBankCount count).length = 6 := by
      rw [encodeBankCount, List.length_append, length_bigEndianBytes]
      rfl
    obtain ⟨front, otherBanks, rfl, here, behind⟩ := agrees.split
    rw [here.eq fun index within there => by
      have behindCount := there.2.1
      omega]
    refine .counted fits (banksApart_of_agrees (behind.mono fun index there => ?_))
    obtain ⟨-, -, there⟩ := there
    rw [six, List.drop_left' six, Nat.add_sub_cancel_left] at there
    exact there
  · rw [agrees.eq fun index within there => counted ⟨there.1, Nat.le_of_lt (Nat.lt_of_le_of_lt there.2.1 within)⟩]
    exact .same one

structure Bank.SameButPayload (one other : Bank) : Prop where
  ordinal : one.ordinal = other.ordinal
  content : one.content.SameButPayload other.content

structure View.PayloadsApart (one other : View) : Prop where
  place : one.place = other.place
  ending : one.ending = other.ending
  unread : one.place.progress.banksRemaining = 0 ∨ BanksApart one.unread other.unread

theorem View.PayloadsApart.outcome_bank {one other : View} (apart : one.PayloadsApart other) :
    EndAlike Eq Bank.SameButPayload (Bank.reading.outcome one).result (Bank.reading.outcome other).result ∧
      (Bank.reading.outcome one).view.PayloadsApart (Bank.reading.outcome other).view := by
  obtain ⟨unread, ending, place⟩ := one
  obtain ⟨otherUnread, _, _⟩ := other
  obtain ⟨rfl, rfl, banks⟩ := apart
  rcases Bank.reading_cases ⟨unread, ending, place⟩ with ⟨none, same⟩ | ⟨left, first, last, same, came, -⟩
  · rcases Bank.reading_cases ⟨otherUnread, ending, place⟩ with ⟨-, again⟩ | ⟨left, -⟩
    · rw [same, again]
      exact ⟨.error rfl, rfl, rfl, .inl none⟩
    · exact absurd none left
  · rcases Bank.reading_cases ⟨otherUnread, ending, place⟩ with ⟨none, -⟩ | ⟨-, second, stop, again, follows, -⟩
    · exact absurd none left
    · rcases banks with none | banks
      · exact absurd none left
      · obtain ⟨_, _, rest, otherRest, _, one, other, alike, later⟩ := banks.outcome_content
          ⟨place.position, { place.progress with banksRead := place.progress.banksRead + 1 }⟩ ending
        cases came.symm.trans one
        cases follows.symm.trans other
        rw [same, again]
        exact ⟨alike.map fun _ _ content => ⟨rfl, content⟩, rfl, rfl, .inr later⟩

namespace OpenFile

theorem outcome_readBankCount_apart (file : OpenFile) (one other : View) (place : one.place = other.place)
    (ending : one.ending = other.ending) (unread : SectionsApart one.unread other.unread)
    (standing : consumedAt one.place.position = file.header.sourceLength ∨ one.place.progress.banksRemaining = 0) :
    EndAlike Eq Eq (file.readBankCount.outcome one).result (file.readBankCount.outcome other).result ∧
      (file.readBankCount.outcome one).view.PayloadsApart (file.readBankCount.outcome other).view := by
  obtain ⟨bytes, ending, place⟩ := one
  obtain ⟨otherBytes, _, _⟩ := other
  dsimp only at place ending unread standing
  subst place ending
  cases unread with
  | same bytes => exact ⟨endAlike_refl (fun _ => rfl) (fun _ => rfl) _, rfl, rfl, .inr (.same _)⟩
  | @counted count one other fits apart =>
    by_cases finished : consumedAt place.position = file.header.sourceLength
    · have passage : Passes file.readBankCount place (encodeBankCount count) [] (StoredBanks.counted place count)
          count := by
        rw [← bind_pure file.readBankCount, passes_bankCount_bind]
        exact ⟨finished, count, [], (List.append_nil _).symm, fits, .done⟩
      rw [outcome_of_passes passage, outcome_of_passes passage]
      exact ⟨.ok rfl, rfl, rfl, .inr apart⟩
    · have none := standing.resolve_left finished
      have refused : ∀ bytes, file.readBankCount.outcome ⟨bytes, ending, place⟩ =
          ⟨.error (.corruptStream (some place.position)
            (.sourceUnfinished (consumedAt place.position) file.header.sourceLength)), [], ⟨bytes, ending, place⟩⟩ := by
        intro bytes
        rcases file.readBankCount_cases ⟨bytes, ending, place⟩ with ⟨-, same⟩ | ⟨same, -⟩ | ⟨same, -⟩
        · exact same
        · exact absurd same finished
        · exact absurd same finished
      rw [refused, refused]
      exact ⟨.error rfl, rfl, rfl, .inl none⟩

inductive Item.SameButPayload : Item → Item → Prop
  | bankCount (count : Nat) : SameButPayload (.bankCount count) (.bankCount count)
  | bank {one other : Bank} (same : one.SameButPayload other) : SameButPayload (.bank one) (.bank other)

variable {σ : Type}

namespace Step

def taken (step : Step σ) : List UInt8 :=
  step.before.unread.take (step.after.place.position - step.before.place.position)

structure SameButPayload (one other : Step σ) : Prop where
  operation : one.operation = other.operation
  result : EndAlike Eq Item.SameButPayload one.result other.result
  place : one.after.place = other.after.place
  unchanged : one.taken = other.taken → one.result = other.result

end Step

theorem step_apart {α : Type} {reading : Reading α} {item : α → Item} {value : α → α → Prop} {file : OpenFile}
    (operation : Operation) (sink : Sink σ) {one other : Machine σ} (place : one.place = other.place)
    (wraps : operation.reading file = reading >>= fun value => pure (item value))
    (items : ∀ first second, value first second → (item first).SameButPayload (item second))
    (alike : EndAlike Eq value (reading.outcome one.view).result (reading.outcome other.view).result)
    (apart : (reading.outcome one.view).view.PayloadsApart (reading.outcome other.view).view) :
    (file.step sink operation one).SameButPayload (file.step sink operation other) ∧
      (file.step sink operation one).after.view.PayloadsApart (file.step sink operation other).after.view := by
  obtain ⟨oneResult, oneView⟩ := file.step_outcome_of sink operation one wraps
  obtain ⟨otherResult, otherView⟩ := file.step_outcome_of sink operation other wraps
  rcases first : reading.outcome one.view with ⟨ended, handed, stop⟩
  rcases second : reading.outcome other.view with ⟨otherEnded, otherHanded, otherStop⟩
  rw [first, second] at alike apart
  rw [first] at oneResult oneView
  rw [second] at otherResult otherView
  have onePlace : (file.step sink operation one).after.place = stop.place := congrArg View.place oneView
  have otherPlace : (file.step sink operation other).after.place = otherStop.place := congrArg View.place otherView
  refine ⟨⟨rfl, ?_, ?_, fun taken => ?_⟩, ?_⟩
  · rw [oneResult, otherResult]
    exact alike.map items
  · rw [onePlace, otherPlace]
    exact apart.place
  · rw [oneResult, otherResult]
    cases alike with
    | error same => rw [same]
    | ok related =>
      rw [Step.taken, Step.taken, onePlace, otherPlace] at taken
      rw [eq_of_same_taken place first second taken]
  · rw [oneView, otherView]
    exact apart

theorem history_readBank_apart (file : OpenFile) (sink : Sink σ) (calls : Nat) {one other : Machine σ}
    (apart : one.view.PayloadsApart other.view) :
    List.Forall₂ Step.SameButPayload (file.history sink one (.replicate calls .readBank))
      (file.history sink other (.replicate calls .readBank)) := by
  induction calls generalizing one other with
  | zero => exact .nil
  | succ calls ih =>
    obtain ⟨alike, behind⟩ := apart.outcome_bank
    obtain ⟨same, later⟩ := step_apart .readBank sink apart.place rfl (fun _ _ => .bank) alike behind
    exact .cons same (ih later)

end OpenFile

/-- A memory bank of the right name is a packed picture if its payload is long enough, and else it is kept as it is. -/
theorem StoredBank.memory_content {number chip sizeField : Nat} {name payload : List UInt8}
    (wellFormed : (memory number chip sizeField name payload).WellFormed) :
    ∃ header : MemoryHeader, header.Describes number chip sizeField name ∧
      if name = Latin1.encode "Pac.Pic." ∧ pictureHeaderSize ≤ payload.length then
        ∃ picture, (memory number chip sizeField name payload).content = .picture header picture
      else (memory number chip sizeField name payload).content = .raw header payload := by
  refine ⟨_, MemoryHeader.describes_ofFields wellFormed.1 chip sizeField name, ?_⟩
  rcases (MemoryHeader.ofFields number chip sizeField name).content_eq payload with
    ⟨named, enough, picture, -, same⟩ | ⟨unfit, raw⟩
  · have pictured : name = Latin1.encode "Pac.Pic." ∧ pictureHeaderSize ≤ payload.length := ⟨named, enough⟩
    rw [if_pos pictured]
    exact ⟨picture, same⟩
  · have other : ¬ (name = Latin1.encode "Pac.Pic." ∧ pictureHeaderSize ≤ payload.length) := unfit
    rw [if_neg other]
    exact raw

/-- Two sections that agree outside of the payloads are read in the same way, call by call. What a memory bank is kept
as depends on its name and on the length of its payload. -/
theorem payloads_change_nothing_else {σ : Type} (file : OpenFile) (sink : Sink σ) (one other : Machine σ)
    (place : one.place = other.place) (ending : one.ending = other.ending)
    (apart : AgreesOutside (SectionPayloadAt one.unread) one.unread other.unread)
    (standing : OpenFile.consumedAt one.place.position = file.header.sourceLength ∨
      one.place.progress.banksRemaining = 0) :
    (∀ calls : Nat, List.Forall₂ OpenFile.Step.SameButPayload
      (file.history sink one (.readBankCount :: .replicate calls .readBank))
      (file.history sink other (.readBankCount :: .replicate calls .readBank))) ∧
    ∀ (machine : Machine σ) (number chip sizeField : Nat) (name payload rest : List UInt8),
      (StoredBank.memory number chip sizeField name payload).WellFormed →
      machine.unread = (StoredBank.memory number chip sizeField name payload).encode ++ rest →
      machine.place.progress.banksRemaining ≠ 0 →
      ∃ header : MemoryHeader, header.Describes number chip sizeField name ∧ ∃ content,
        (file.step sink .readBank machine).result = .ok (.bank ⟨machine.place.progress.banksRead, content⟩) ∧
        if name = Latin1.encode "Pac.Pic." ∧ pictureHeaderSize ≤ payload.length then
          ∃ picture, content = .picture header picture
        else content = .raw header payload := by
  constructor
  · intro calls
    obtain ⟨alike, behind⟩ := file.outcome_readBankCount_apart one.view other.view place ending
      (sectionsApart_of_agrees apart) standing
    have counts : ∀ first second : Nat, first = second →
        (OpenFile.Item.bankCount first).SameButPayload (.bankCount second) := by
      rintro count _ rfl
      exact .bankCount count
    obtain ⟨same, later⟩ := OpenFile.step_apart .readBankCount sink place rfl counts alike behind
    exact .cons same (file.history_readBank_apart sink calls later)
  · intro machine number chip sizeField name payload rest wellFormed unread left
    obtain ⟨header, described, content⟩ := StoredBank.memory_content wellFormed
    have passage : Passes Bank.reading machine.place (StoredBank.memory number chip sizeField name payload).encode []
        ((StoredBank.memory number chip sizeField name payload).after machine.place)
        ⟨machine.place.progress.banksRead, (StoredBank.memory number chip sizeField name payload).content⟩ := by
      rw [← bind_pure Bank.reading, passes_bank_bind]
      exact ⟨left, _, [], (List.append_nil _).symm, wellFormed, .done⟩
    obtain ⟨result, -⟩ := file.step_outcome_of sink .readBank machine rfl
    rw [Machine.view, unread, outcome_of_passes passage] at result
    exact ⟨header, described, _, result, content⟩

theorem payloads_change_nothing_else_two_banks :
    let file : OpenFile := ⟨⟨HeaderVariant.known[1], 0⟩, {}⟩
    let machine := fun (bytes : List UInt8) (progress : Progress) =>
      Machine.mk { source := { bytes }, position := Header.size } () #[] progress
    let kept := StoredBank.memory 4 1 0x0000000A (Latin1.encode "Samples ") [5, 6]
    let banks := fun payload => encodeBankCount 2 ++
      ((StoredBank.memory 3 0 0x1000000A (Latin1.encode "Pac.Pic.") payload).encode ++ kept.encode)
    let picture := StoredBank.memory 1 0 0x0000007A (Latin1.encode "Pac.Pic.") (List.replicate 114 0xFF)
    List.Forall₂ OpenFile.Step.SameButPayload
        (file.history Sink.discard (machine (banks [1, 2]) {}) (.readBankCount :: .replicate 3 .readBank))
        (file.history Sink.discard (machine (banks [3, 4]) {}) (.readBankCount :: .replicate 3 .readBank)) ∧
      ∃ header content, (file.step Sink.discard .readBank (machine picture.encode { bankCount? := some 1 })).result =
        .ok (.bank ⟨0, content⟩) ∧ ∃ parsed, content = .picture header parsed := by
  intro file machine kept banks picture
  have apart : AgreesOutside (SectionPayloadAt (banks [1, 2])) (banks [1, 2]) (banks [3, 4]) := by
    refine ⟨rfl, fun index outside => ?_⟩
    have first : SectionPayloadAt (banks [1, 2]) 26 := ⟨rfl, by decide, .here rfl (by decide) (by decide)⟩
    have second : SectionPayloadAt (banks [1, 2]) 27 := ⟨rfl, by decide, .here rfl (by decide) (by decide)⟩
    have equal : ∀ index < 50, index = 26 ∨ index = 27 ∨ (banks [3, 4])[index]? = (banks [1, 2])[index]? := by decide
    by_cases within : index < 50
    · rcases equal index within with rfl | rfl | same
      · exact absurd first outside
      · exact absurd second outside
      · exact same
    · rw [List.getElem?_eq_none (Nat.le_of_not_lt within), List.getElem?_eq_none (Nat.le_of_not_lt within)]
  obtain ⟨alike, single⟩ := payloads_change_nothing_else file Sink.discard (machine (banks [1, 2]) {})
    (machine (banks [3, 4]) {}) rfl rfl apart (.inl rfl)
  obtain ⟨header, -, content, result, kind⟩ := single (machine picture.encode { bankCount? := some 1 }) 1 0
    0x0000007A (Latin1.encode "Pac.Pic.") (List.replicate 114 0xFF) [] (by decide) (List.append_nil _).symm (by decide)
  exact ⟨alike 3, header, content, result, kind⟩

end AmosBasic
