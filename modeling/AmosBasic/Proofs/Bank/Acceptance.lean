import AmosBasic.Encoding
import AmosBasic.Proofs.Bank.Meaning
import AmosBasic.Proofs.Reading.Replay
import AmosBasic.Session

namespace AmosBasic

open Reading

variable {α : Type} {start stop : Place} {bytes : List UInt8} {handed : List Delivery} {value : α}

def StoredBank.after (bank : StoredBank) (place : Place) : Place :=
  bank.behind { place with progress.banksRead := place.progress.banksRead + 1 }

theorem passes_bank_bind {next : Bank → Reading α} :
    Passes (Bank.reading >>= next) start bytes handed stop value ↔
      start.progress.banksRemaining ≠ 0 ∧
        ∃ (bank : StoredBank) (rest : List UInt8), bytes = bank.encode ++ rest ∧ bank.WellFormed ∧
          Passes (next ⟨start.progress.banksRead, bank.content⟩) (bank.after start) rest handed stop value := by
  simp only [Bank.reading, LawfulMonad.bind_assoc, passes_currentProgress_bind]
  by_cases none : start.progress.banksRemaining = 0
  · simp only [none, if_true, LawfulMonad.bind_assoc, passes_currentPosition_bind, ne_eq, not_true, false_and,
      iff_false]
    intro passage
    cases passage
  · simp only [none, if_false, LawfulMonad.bind_assoc, passes_updateProgress_bind, passes_content_bind,
      LawfulMonad.pure_bind, ne_eq, not_false_eq_true, true_and, StoredBank.after]

def StoredBank.afterAll (banks : List StoredBank) (place : Place) : Place :=
  banks.foldl (fun place bank => bank.after place) place

def StoredBank.placed : Nat → List StoredBank → List Bank
  | _, [] => []
  | ordinal, bank :: banks => ⟨ordinal, bank.content⟩ :: placed (ordinal + 1) banks

@[simp] theorem StoredBank.banksRead_after (bank : StoredBank) (place : Place) :
    (bank.after place).progress.banksRead = place.progress.banksRead + 1 := by
  cases bank <;> rfl

@[simp] theorem StoredBank.bankCount?_after (bank : StoredBank) (place : Place) :
    (bank.after place).progress.bankCount? = place.progress.bankCount? := by
  cases bank <;> rfl

theorem StoredBank.banksRemaining_after (bank : StoredBank) (place : Place) :
    (bank.after place).progress.banksRemaining = place.progress.banksRemaining - 1 := by
  simp only [Progress.banksRemaining, banksRead_after, bankCount?_after]
  omega

theorem StoredBank.banksRemaining_afterAll (banks : List StoredBank) (place : Place) :
    (afterAll banks place).progress.banksRemaining = place.progress.banksRemaining - banks.length := by
  induction banks generalizing place with
  | nil => rfl
  | cons bank banks ih =>
    have rest := ih (bank.after place)
    rw [bank.banksRemaining_after] at rest
    rw [afterAll, List.foldl_cons, ← afterAll, rest, List.length_cons]
    omega

theorem passes_banks {count : Nat} {read banks : List Bank} :
    Passes (OpenFile.banksReading count read) start bytes handed stop banks ↔
      handed = [] ∧ count ≤ start.progress.banksRemaining ∧
        ∃ stored : List StoredBank, stored.length = count ∧ (∀ bank ∈ stored, bank.WellFormed) ∧
          bytes = stored.flatMap StoredBank.encode ∧ stop = StoredBank.afterAll stored start ∧
          banks = read.reverse ++ StoredBank.placed start.progress.banksRead stored := by
  induction count generalizing read start bytes with
  | zero =>
    simp only [OpenFile.banksReading, passes_pure, List.length_eq_zero_iff, Nat.zero_le, true_and]
    constructor
    · intro passage
      obtain ⟨rfl, rfl, rfl, rfl⟩ := passage
      exact ⟨rfl, [], rfl, by simp, rfl, rfl, by simp [StoredBank.placed]⟩
    · intro stored
      obtain ⟨rfl, _, rfl, -, rfl, rfl, rfl⟩ := stored
      exact ⟨rfl, rfl, rfl, by simp [StoredBank.placed]⟩
  | succ count ih =>
    simp only [OpenFile.banksReading, passes_bank_bind, ih, StoredBank.banksRemaining_after,
      StoredBank.banksRead_after, List.reverse_cons, List.append_assoc, List.singleton_append]
    constructor
    · intro passage
      obtain ⟨left, bank, _, rfl, first, rfl, enough, stored, rfl, others, rfl, rfl, rfl⟩ := passage
      refine ⟨rfl, by omega, bank :: stored, rfl, List.forall_mem_cons.mpr ⟨first, others⟩, rfl, rfl, rfl⟩
    · intro described
      obtain ⟨rfl, enough, _ | ⟨bank, stored⟩, size, all, rfl, rfl, rfl⟩ := described
      · cases size
      · obtain ⟨first, others⟩ := List.forall_mem_cons.mp all
        exact ⟨by omega, bank, _, List.flatMap_cons, first, rfl, by omega, stored, Nat.succ.inj size, others, rfl, rfl,
          rfl⟩

theorem passes_bankCount_bind {file : OpenFile} {next : Nat → Reading α} :
    Passes (file.readBankCount >>= next) start bytes handed stop value ↔
      OpenFile.consumedAt start.position = file.header.sourceLength ∧
        ∃ (count : Nat) (rest : List UInt8), bytes = encodeBankCount count ++ rest ∧ count < 2 ^ 16 ∧
          Passes (next count)
            ⟨start.position + 6, { start.progress with bankCount? := some count, banksRead := 0 }⟩ rest handed stop
            value := by
  simp only [OpenFile.readBankCount, LawfulMonad.bind_assoc, passes_currentPosition_bind]
  by_cases finished : OpenFile.consumedAt start.position = file.header.sourceLength
  · simp only [finished, ne_eq, not_true, if_false, LawfulMonad.bind_assoc, passes_bytes_bind, true_and,
      encodeBankCount, List.append_assoc]
    constructor
    · intro passage
      obtain ⟨marker, _, rfl, -, passage⟩ := passage
      by_cases marked : marker = bankSectionMarker
      · simp only [marked, not_true, if_false, LawfulMonad.bind_assoc, passes_word_bind, passes_remark_bind,
          passes_updateProgress_bind, LawfulMonad.pure_bind] at passage
        obtain ⟨count, rest, rfl, fits, passage⟩ := passage
        exact ⟨count, rest, by rw [marked], fits, passage⟩
      · rw [if_pos marked] at passage
        cases passage
    · intro stored
      obtain ⟨count, rest, rfl, fits, passage⟩ := stored
      refine ⟨bankSectionMarker, _, rfl, rfl, ?_⟩
      simp only [not_true, if_false, LawfulMonad.bind_assoc, passes_word_bind, passes_remark_bind,
        passes_updateProgress_bind, LawfulMonad.pure_bind]
      exact ⟨count, rest, rfl, fits, passage⟩
  · simp only [finished, ne_eq, not_false_eq_true, if_true, false_and, iff_false]
    intro passage
    cases passage

def StoredBanks.counted (place : Place) (count : Nat) : Place :=
  ⟨place.position + 6, { place.progress with bankCount? := some count, banksRead := 0 }⟩

theorem passes_readBanks {file : OpenFile} {banks : List Bank} :
    Passes file.readBanks start bytes handed stop banks ↔
      handed = [] ∧ OpenFile.consumedAt start.position = file.header.sourceLength ∧
        ∃ stored : List StoredBank, StoredBanks stored ∧ bytes = StoredBanks.bytes stored ∧
          stop = StoredBank.afterAll stored (StoredBanks.counted start stored.length) ∧
          banks = StoredBank.placed 0 stored := by
  simp only [OpenFile.readBanks, passes_bankCount_bind, passes_banks]
  constructor
  · intro passage
    obtain ⟨finished, _, _, rfl, fits, rfl, -, stored, rfl, wellFormed, rfl, rfl, rfl⟩ := passage
    exact ⟨rfl, finished, stored, ⟨fits, wellFormed⟩, rfl, rfl, rfl⟩
  · intro described
    obtain ⟨rfl, finished, stored, shape, rfl, rfl, rfl⟩ := described
    obtain ⟨fits, wellFormed⟩ := shape
    exact ⟨finished, stored.length, _, rfl, fits, rfl, Nat.le_refl _, stored, rfl, wellFormed, rfl, rfl, rfl⟩

theorem StoredBank.ordinals_placed (ordinal : Nat) (banks : List StoredBank) :
    (placed ordinal banks).map Bank.ordinal = List.range' ordinal banks.length := by
  induction banks generalizing ordinal with
  | nil => rfl
  | cons bank banks ih => simp [placed, ih, List.range'_succ]

theorem StoredBank.contents_placed (ordinal : Nat) (banks : List StoredBank) :
    (placed ordinal banks).map Bank.content = banks.map content := by
  induction banks generalizing ordinal with
  | nil => rfl
  | cons bank banks ih => simp [placed, ih]

theorem StoredBanks.readAs_contents {banks : List StoredBank} (shape : StoredBanks banks) :
    List.Forall₂ StoredBank.ReadAs banks (banks.map StoredBank.content) := by
  rw [List.forall₂_map_right_iff, List.forall₂_same]
  intro bank member
  exact (shape.wellFormed bank member).readAs_content

variable {σ : Type}

theorem read_stored_banks (sink : Sink σ) {file : OpenFile} {machine : Machine σ}
    (finished : machine.cursor.position = Header.size + file.header.sourceLength) {stored : List StoredBank}
    {rest : List UInt8} (shape : StoredBanks stored) (unread : machine.unread = StoredBanks.bytes stored ++ rest) :
    ∃ banks final, file.readBanks.run sink machine = (.ok banks, final) ∧
      banks.map Bank.ordinal = List.range stored.length ∧
      List.Forall₂ StoredBank.ReadAs stored (banks.map Bank.content) ∧
      final.progress.banksRemaining = 0 ∧ final.unread = rest ∧
      final.cursor.position = machine.cursor.position + (6 + (stored.map StoredBank.size).sum) := by
  have consumed : OpenFile.consumedAt machine.cursor.position = file.header.sourceLength := by
    rw [OpenFile.consumedAt, finished, Nat.add_sub_cancel_left]
  have passage : Passes file.readBanks machine.place _ [] _ _ :=
    passes_readBanks.mpr ⟨rfl, consumed, stored, shape, rfl, rfl, rfl⟩
  obtain ⟨final, success, left, place, -⟩ := run_of_passes passage rfl unread rfl
  refine ⟨_, final, success, ?_, ?_, ?_, left, ?_⟩
  · rw [StoredBank.ordinals_placed, List.range_eq_range']
  · rw [StoredBank.contents_placed]
    exact shape.readAs_contents
  · have remaining := StoredBank.banksRemaining_afterAll stored (StoredBanks.counted machine.place stored.length)
    rw [← place] at remaining
    refine remaining.trans ?_
    simp [StoredBanks.counted, Progress.banksRemaining]
  · rw [← StoredBanks.length_bytes shape.wellFormed]
    refine (congrArg Place.position place).trans ?_
    exact passage.stop_position

/-- At the end of the source a section is read exactly where the bytes begin with a stored one, and then it is
that section: its banks in order with what they hold. -/
theorem readBanks_accepts_stored_banks (sink : Sink σ) (file : OpenFile) (machine : Machine σ)
    (finished : machine.cursor.position = Header.size + file.header.sourceLength) :
    ((∃ banks final, file.readBanks.run sink machine = (.ok banks, final)) ↔
      ∃ (stored : List StoredBank) (rest : List UInt8), StoredBanks stored ∧
        machine.unread = StoredBanks.bytes stored ++ rest) ∧
    ∀ (stored : List StoredBank) (rest : List UInt8), StoredBanks stored →
      machine.unread = StoredBanks.bytes stored ++ rest →
      ∃ banks final, file.readBanks.run sink machine = (.ok banks, final) ∧
        banks.map Bank.ordinal = List.range stored.length ∧
        List.Forall₂ StoredBank.ReadAs stored (banks.map Bank.content) ∧
        final.progress.banksRemaining = 0 ∧ final.unread = rest ∧
        final.cursor.position = machine.cursor.position + (6 + (stored.map StoredBank.size).sum) := by
  constructor
  · constructor
    · intro read
      obtain ⟨banks, final, success⟩ := read
      obtain ⟨bytes, handed, unread, passage, -⟩ := passes_of_run success
      obtain ⟨-, -, stored, shape, rfl, -⟩ := passes_readBanks.mp passage
      exact ⟨stored, final.unread, shape, unread⟩
    · intro described
      obtain ⟨stored, rest, shape, unread⟩ := described
      obtain ⟨banks, final, success, -⟩ := read_stored_banks sink finished shape unread
      exact ⟨banks, final, success⟩
  · intro stored rest shape unread
    exact read_stored_banks sink finished shape unread

theorem readBanks_accepts_icon_and_samples :
    let header : Header := ⟨⟨Latin1.encode "AMOS Basic V134 ", true, "AMOS Pro, but AMOS 1.3 compatible"⟩, 0⟩
    let stored : List StoredBank :=
      [.images .icons [⟨1, 1, 1, 0, 0, [0x80, 0x01]⟩] (List.replicate 64 0),
       .memory 3 0 0x1000000A (Latin1.encode "Samples ") [1, 2]]
    ∃ banks final, (OpenFile.readBanks ⟨header, {}⟩).run Sink.discard
        { cursor := { source := { bytes := StoredBanks.bytes stored ++ [7] }, position := 20 }, receiver := () } =
          (.ok banks, final) ∧
      banks.map Bank.ordinal = [0, 1] ∧ List.Forall₂ StoredBank.ReadAs stored (banks.map Bank.content) ∧
      final.progress.banksRemaining = 0 ∧ final.unread = [7] ∧ final.cursor.position = 130 := by
  intro header stored
  have shape : StoredBanks stored := ⟨by decide, by decide⟩
  exact (readBanks_accepts_stored_banks Sink.discard ⟨header, {}⟩ _ rfl).2 stored [7] shape rfl

end AmosBasic
