import AmosBasic.Proofs.Bank.Acceptance
import AmosBasic.Proofs.Decoding.Opening
import AmosBasic.Proofs.Line.Draft
import AmosBasic.Proofs.Session.Listing

namespace AmosBasic

open Reading

variable {start : Place} {options : DecodeOptions}

def LineDraft.placed (options : DecodeOptions) : Nat → List LineDraft → List Line
  | _, [] => []
  | start, draft :: drafts =>
    StoredLine.line options start draft.declared draft.indent draft.records ::
      placed options (start + draft.encode.length) drafts

theorem LineDraft.readAs_placed {drafts : List LineDraft} (valid : ∀ draft ∈ drafts, draft.Valid) (start : Nat) :
    List.Forall₂ (ReadAs options) drafts (placed options start drafts) := by
  induction drafts generalizing start with
  | nil => exact .nil
  | cons draft drafts ih =>
    obtain ⟨first, others⟩ := List.forall_mem_cons.mp valid
    exact .cons (first.readAs_line options start) (ih others _)

theorem LineDraft.length_placed (drafts : List LineDraft) (start : Nat) :
    (placed options start drafts).length = drafts.length := by
  induction drafts generalizing start with
  | nil => rfl
  | cons draft drafts ih => simp [placed, ih]

theorem LineDraft.encode_length_ge (draft : LineDraft) : 2 ≤ draft.encode.length := by
  rw [draft.encode_eq, StoredLine.bytes, List.length_cons, List.length_cons]
  omega

theorem LineDraft.length_le_flatMap (drafts : List LineDraft) : drafts.length ≤ (drafts.flatMap encode).length := by
  induction drafts with
  | nil => exact Nat.zero_le _
  | cons draft drafts ih =>
    have room := draft.encode_length_ge
    rw [List.flatMap_cons, List.length_append, List.length_cons]
    omega

def LineDraft.after (draft : LineDraft) (place : Place) : Place :=
  ⟨place.position + draft.encode.length, { place.progress with linesRead := place.progress.linesRead + 1 }⟩

theorem passes_readLine_bind {α : Type} {file : OpenFile} {draft : LineDraft} (valid : draft.Valid)
    (opened : Header.size ≤ start.position)
    (fits : OpenFile.consumedAt start.position + draft.encode.length ≤ file.header.sourceLength)
    {next : Line → Reading α} {rest : List UInt8} {handed : List Delivery} {stop : Place} {value : α}
    (after : Passes
      (next (StoredLine.line file.options start.position draft.declared draft.indent draft.records))
      (draft.after start) rest handed stop value) :
    Passes (file.readLine >>= next) start (draft.encode ++ rest) handed stop value := by
  have room := draft.encode_length_ge
  have left : file.exhaustedAt start.position = false := by
    apply decide_eq_false
    omega
  have inside : ¬ file.header.sourceLength < OpenFile.consumedAt (start.position + draft.encode.length) := by
    rw [consumedAt_add opened]
    omega
  have line : Passes (Line.reading file.options) start draft.encode [] (start.behind draft.encode.length)
      (StoredLine.line file.options start.position draft.declared draft.indent draft.records) :=
    passes_line.mpr ⟨rfl, rfl, _, _, _, valid.stored, draft.encode_eq, rfl⟩
  simp only [OpenFile.readLine, LawfulMonad.bind_assoc, passes_currentPosition_bind, left,
    Bool.false_eq_true, if_false]
  refine line.bind ?_
  simp only [LawfulMonad.bind_assoc, passes_currentPosition_bind, Place.behind_position, inside, if_false,
    passes_updateProgress_bind, LawfulMonad.pure_bind]
  exact after

theorem passes_deliverLines {file : OpenFile} {drafts : List LineDraft} (valid : ∀ draft ∈ drafts, draft.Valid)
    {fuel : Nat} (enough : drafts.length ≤ fuel) (opened : Header.size ≤ start.position)
    (whole : OpenFile.consumedAt start.position + (drafts.flatMap LineDraft.encode).length =
      file.header.sourceLength) (summary : Summary) :
    Passes (file.deliverLines fuel summary) start (drafts.flatMap LineDraft.encode)
      ((LineDraft.placed file.options start.position drafts).map .line)
      ⟨start.position + (drafts.flatMap LineDraft.encode).length,
        { start.progress with linesRead := start.progress.linesRead + drafts.length }⟩
      { summary with lines := summary.lines + drafts.length } := by
  induction drafts generalizing fuel start summary with
  | nil =>
    have exhausted : file.exhaustedAt start.position = true := by
      apply decide_eq_true
      exact Nat.le_of_eq whole.symm
    cases fuel with
    | zero => exact .done
    | succ fuel =>
      simp only [OpenFile.deliverLines, OpenFile.isExhausted, LawfulMonad.bind_assoc, passes_currentPosition_bind,
        LawfulMonad.pure_bind, exhausted, if_true]
      exact .done
  | cons draft drafts ih =>
    obtain ⟨first, others⟩ := List.forall_mem_cons.mp valid
    rw [List.flatMap_cons, List.length_append] at whole ⊢
    have room := draft.encode_length_ge
    have left : file.exhaustedAt start.position = false := by
      apply decide_eq_false
      omega
    -- The fuel is the length of the source, which has at least two bytes for every line.
    cases fuel with
    | zero => cases enough
    | succ fuel =>
      have openedBehind : Header.size ≤ (draft.after start).position := Nat.le_trans opened (Nat.le_add_right ..)
      have later : OpenFile.consumedAt (draft.after start).position + (drafts.flatMap LineDraft.encode).length =
          file.header.sourceLength := by
        rw [LineDraft.after, consumedAt_add opened]
        omega
      have rest := ih others (Nat.le_of_succ_le_succ enough) openedBehind later summary.addLine
      simp only [LineDraft.after, Summary.addLine, Nat.add_assoc, Nat.add_comm 1] at rest
      simp only [OpenFile.deliverLines, OpenFile.isExhausted, LawfulMonad.bind_assoc, passes_currentPosition_bind,
        LawfulMonad.pure_bind, left, Bool.false_eq_true, if_false]
      refine passes_readLine_bind first opened (by omega) ?_
      rw [passes_handOver_bind]
      exact ⟨_, rfl, rest⟩

theorem passes_deliverBanks {banks : List StoredBank} (wellFormed : ∀ bank ∈ banks, bank.WellFormed)
    (remaining : start.progress.banksRemaining = banks.length) (summary : Summary) :
    Passes (OpenFile.deliverBanks banks.length summary) start (banks.flatMap StoredBank.encode)
      ((banks.map StoredBank.content).map .bank) (StoredBank.afterAll banks start)
      ((banks.map StoredBank.content).foldl Summary.addBank summary) := by
  induction banks generalizing start summary with
  | nil => exact .done
  | cons bank banks ih =>
    obtain ⟨first, others⟩ := List.forall_mem_cons.mp wellFormed
    rw [List.length_cons] at remaining
    have left : start.progress.banksRemaining ≠ 0 := by omega
    have later : (bank.after start).progress.banksRemaining = banks.length := by
      rw [bank.banksRemaining_after]
      omega
    have rest := ih others later (summary.addBank bank.content)
    simp only [List.length_cons, OpenFile.deliverBanks, passes_currentProgress_bind, left, if_false,
      passes_bank_bind, passes_handOver_bind]
    exact ⟨left, bank, _, rfl, first, _, rfl, rest⟩

theorem HeaderVariant.ofMagic?_known {variant : HeaderVariant} (known : variant ∈ HeaderVariant.known) :
    HeaderVariant.ofMagic? variant.magic = some variant := by
  have each : ∀ variant ∈ HeaderVariant.known, HeaderVariant.ofMagic? variant.magic = some variant := by decide
  exact each variant known

theorem HeaderVariant.length_magic {variant : HeaderVariant} (known : variant ∈ HeaderVariant.known) :
    variant.magic.length = HeaderVariant.magicLength := by
  have each : ∀ variant ∈ HeaderVariant.known, variant.magic.length = HeaderVariant.magicLength := by decide
  exact each variant known

theorem passes_header_bind {α : Type} {variant : HeaderVariant} (known : variant ∈ HeaderVariant.known)
    {next : Header → Reading α} {sourceLength : Nat} (fits : sourceLength < 2 ^ 32) {rest : List UInt8}
    {handed : List Delivery} {stop : Place} {value : α}
    (after : Passes (next ⟨variant, sourceLength⟩) (start.behind 4) rest handed stop value) :
    Passes (OpenFile.headerReading variant.magic >>= next) start (bigEndianBytes 4 sourceLength ++ rest) handed stop
      value := by
  simp only [OpenFile.headerReading, HeaderVariant.ofMagic?_known known, LawfulMonad.bind_assoc, passes_word_bind,
    passes_remark_bind, passes_ite_bind, LawfulMonad.pure_bind, ite_self]
  exact ⟨sourceLength, rest, rfl, fits, after⟩

theorem passes_source_bind {α : Type} {variant : HeaderVariant} (known : variant ∈ HeaderVariant.known)
    {drafts : List LineDraft} (valid : ∀ draft ∈ drafts, draft.Valid)
    (fits : (drafts.flatMap LineDraft.encode).length < 2 ^ 32) {next : Header → Summary → Reading α}
    {rest : List UInt8} {handed : List Delivery} {stop : Place} {value : α}
    (after : Passes
      (next ⟨variant, (drafts.flatMap LineDraft.encode).length⟩
        { header := ⟨variant, (drafts.flatMap LineDraft.encode).length⟩, lines := drafts.length })
      ⟨Header.size + (drafts.flatMap LineDraft.encode).length, { linesRead := drafts.length }⟩ rest handed stop
      value) :
    Passes (OpenFile.headerReading variant.magic >>= fun header =>
        OpenFile.deliverLines ⟨header, options⟩ header.sourceLength { header } >>= next header)
      ⟨HeaderVariant.magicLength, {}⟩
      (bigEndianBytes 4 (drafts.flatMap LineDraft.encode).length ++ (drafts.flatMap LineDraft.encode ++ rest))
      ((LineDraft.placed options Header.size drafts).map .line ++ handed) stop value := by
  let header : Header := ⟨variant, (drafts.flatMap LineDraft.encode).length⟩
  have opened : OpenFile.consumedAt (Place.mk Header.size {}).position +
      (drafts.flatMap LineDraft.encode).length = header.sourceLength := Nat.zero_add _
  have lines : Passes (OpenFile.deliverLines ⟨header, options⟩ header.sourceLength { header }) ⟨Header.size, {}⟩
      (drafts.flatMap LineDraft.encode) _ _ _ :=
    passes_deliverLines valid (LineDraft.length_le_flatMap drafts) (Nat.le_refl _) opened _
  rw [Nat.zero_add] at lines
  exact passes_header_bind known fits (lines.bind after)

theorem passes_sourceOnly {variant : HeaderVariant} (known : variant ∈ HeaderVariant.known)
    {drafts : List LineDraft} (valid : ∀ draft ∈ drafts, draft.Valid)
    (fits : (drafts.flatMap LineDraft.encode).length < 2 ^ 32) :
    Passes (fileReading options true variant.magic) ⟨HeaderVariant.magicLength, {}⟩
      (bigEndianBytes 4 (drafts.flatMap LineDraft.encode).length ++ (drafts.flatMap LineDraft.encode ++ []))
      ((LineDraft.placed options Header.size drafts).map .line ++ [])
      ⟨Header.size + (drafts.flatMap LineDraft.encode).length, { linesRead := drafts.length }⟩
      { header := ⟨variant, (drafts.flatMap LineDraft.encode).length⟩, lines := drafts.length } := by
  simp only [fileReading, OpenFile.decoding, if_true, LawfulMonad.pure_bind]
  exact passes_source_bind known valid fits (passes_remark_bind.mpr .done)

end AmosBasic
