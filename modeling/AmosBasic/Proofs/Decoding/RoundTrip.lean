import AmosBasic.Proofs.Bank.Draft
import AmosBasic.Proofs.Decoding.Deliveries

namespace AmosBasic

open Reading

structure FileDraft where
  variant : HeaderVariant
  lines : List LineDraft
  banks : List BankDraft

namespace FileDraft

def source (draft : FileDraft) : List UInt8 :=
  draft.lines.flatMap LineDraft.encode

def encode (draft : FileDraft) : List UInt8 :=
  encodeFile draft.variant.magic draft.source
    (encodeBankCount draft.banks.length ++ draft.banks.flatMap BankDraft.encode)

/-- The magic is a known one, and the source and the banks are no more than their lengths can say. -/
structure Valid (draft : FileDraft) : Prop where
  known : draft.variant ∈ HeaderVariant.known
  lines : ∀ line ∈ draft.lines, line.Valid
  sourceFits : draft.source.length < 2 ^ 32
  banks : ∀ bank ∈ draft.banks, bank.Valid
  countFits : draft.banks.length ≤ 65535

def header (draft : FileDraft) : Header :=
  ⟨draft.variant, draft.source.length⟩

def lineDeliveries (options : DecodeOptions) (draft : FileDraft) : List Line :=
  LineDraft.placed options Header.size draft.lines

def bankDeliveries (draft : FileDraft) : List BankContent :=
  draft.banks.map fun bank => bank.bank.content

def summary (draft : FileDraft) : Summary :=
  draft.bankDeliveries.foldl Summary.addBank { header := draft.header, lines := draft.lines.length }

variable {draft : FileDraft}

theorem Valid.passes_bankSection (valid : draft.Valid) (options : DecodeOptions) (start : Place)
    (finished : OpenFile.consumedAt start.position = draft.source.length) (summary : Summary) :
    ∃ stop, Passes (do OpenFile.deliverBanks (← OpenFile.readBankCount ⟨draft.header, options⟩) summary) start
      (encodeBankCount draft.banks.length ++ draft.banks.flatMap BankDraft.encode)
      (draft.bankDeliveries.map .bank) stop (draft.bankDeliveries.foldl Summary.addBank summary) := by
  have wellFormed : ∀ bank ∈ draft.banks.map BankDraft.bank, bank.WellFormed := by
    intro bank member
    obtain ⟨written, among, rfl⟩ := List.mem_map.mp member
    exact (valid.banks written among).wellFormed
  have bytes : (draft.banks.map BankDraft.bank).flatMap StoredBank.encode = draft.banks.flatMap BankDraft.encode := by
    rw [List.flatMap_map]
    exact List.flatMap_congr fun bank _ => bank.encode_bank
  have remaining : (StoredBanks.counted start draft.banks.length).progress.banksRemaining =
      (draft.banks.map BankDraft.bank).length := by
    simp [StoredBanks.counted, Progress.banksRemaining]
  have passage := passes_deliverBanks wellFormed remaining summary
  have contents : (draft.banks.map BankDraft.bank).map StoredBank.content = draft.bankDeliveries := List.map_map
  rw [bytes, contents, List.length_map] at passage
  refine ⟨StoredBank.afterAll (draft.banks.map BankDraft.bank) (StoredBanks.counted start draft.banks.length), ?_⟩
  rw [passes_bankCount_bind]
  exact ⟨finished, draft.banks.length, _, rfl, Nat.lt_succ_of_le valid.countFits, passage⟩

theorem Valid.passes (valid : draft.Valid) (options : DecodeOptions) :
    ∃ stop, Passes (fileReading options false draft.variant.magic) ⟨HeaderVariant.magicLength, {}⟩
      (bigEndianBytes 4 draft.source.length ++
        (draft.source ++ (encodeBankCount draft.banks.length ++ draft.banks.flatMap BankDraft.encode)))
      ((draft.lineDeliveries options).map .line ++ draft.bankDeliveries.map .bank) stop draft.summary := by
  obtain ⟨stop, banks⟩ := valid.passes_bankSection options
    ⟨Header.size + draft.source.length, { linesRead := draft.lines.length }⟩ (Nat.add_sub_cancel_left ..)
    { header := draft.header, lines := draft.lines.length }
  refine ⟨stop, ?_⟩
  simp only [fileReading, OpenFile.decoding, Bool.false_eq_true, if_false]
  refine passes_source_bind valid.known valid.lines valid.sourceFits ?_
  rw [← LawfulMonad.bind_assoc]
  exact passes_bind.mpr ⟨_, [], _, [], stop, _, (List.append_nil _).symm, (List.append_nil _).symm, banks,
    passes_remark_bind.mpr .done⟩

theorem Valid.readAs_contents (valid : draft.Valid) :
    List.Forall₂ BankDraft.ReadAs draft.banks draft.bankDeliveries := by
  rw [bankDeliveries, List.forall₂_map_right_iff, List.forall₂_same]
  intro bank member
  exact (valid.banks bank member).readAs_content

end FileDraft

namespace BankContent

def sprites : BankContent → Nat
  | images .sprites bank => bank.images.length
  | _ => 0

def icons : BankContent → Nat
  | images .icons bank => bank.images.length
  | _ => 0

def isPicture : BankContent → Bool
  | picture .. => true
  | _ => false

def isRaw : BankContent → Bool
  | raw .. => true
  | _ => false

end BankContent

namespace Summary

structure Counts (summary : Summary) (header : Header) (lines : List Line) (contents : List BankContent) :
    Prop where
  header : summary.header = header
  lines : summary.lines = lines.length
  banks : summary.banks = contents.length
  sprites : summary.sprites = (contents.map BankContent.sprites).sum
  icons : summary.icons = (contents.map BankContent.icons).sum
  packedPictures : summary.packedPictures = contents.countP BankContent.isPicture
  rawBanks : summary.rawBanks = contents.countP BankContent.isRaw

theorem foldl_addBank (summary : Summary) (contents : List BankContent) :
    contents.foldl addBank summary =
      { header := summary.header, lines := summary.lines, banks := summary.banks + contents.length,
        sprites := summary.sprites + (contents.map BankContent.sprites).sum,
        icons := summary.icons + (contents.map BankContent.icons).sum,
        packedPictures := summary.packedPictures + contents.countP BankContent.isPicture,
        rawBanks := summary.rawBanks + contents.countP BankContent.isRaw } := by
  induction contents generalizing summary with
  | nil => rfl
  | cons content contents ih =>
    rw [List.foldl_cons, ih]
    rcases content with ⟨_ | _, bank⟩ | _ | _ <;>
      simp [addBank, BankContent.sprites, BankContent.icons, BankContent.isPicture, BankContent.isRaw,
        List.countP_cons] <;> omega

theorem counts_foldl (header : Header) (lines : List Line) (contents : List BankContent) :
    (contents.foldl addBank { header, lines := lines.length }).Counts header lines contents := by
  rw [foldl_addBank]
  exact ⟨rfl, rfl, Nat.zero_add _, Nat.zero_add _, Nat.zero_add _, Nat.zero_add _, Nat.zero_add _⟩

end Summary

theorem FileDraft.counts_summary (options : DecodeOptions) (draft : FileDraft) :
    draft.summary.Counts draft.header (draft.lineDeliveries options) draft.bankDeliveries := by
  have lines : (draft.lineDeliveries options).length = draft.lines.length := LineDraft.length_placed draft.lines _
  rw [summary, ← lines]
  exact Summary.counts_foldl _ _ _

variable {σ : Type}

theorem FileDraft.Valid.sinkCalls_eq {draft : FileDraft} (valid : draft.Valid) (options : DecodeOptions) {sink : Sink σ}
    (willing : ∀ receiver delivery, (sink receiver delivery).refusal = none) (receiver : σ) :
    sinkCalls sink options false (.fresh { bytes := draft.encode } receiver) =
      (draft.lineDeliveries options).map .line ++ draft.bankDeliveries.map .bank := by
  obtain ⟨stop, passage⟩ := valid.passes options
  obtain ⟨last, accepted⟩ := sink.accept?_of_willing willing receiver
    ((draft.lineDeliveries options).map .line ++ draft.bankDeliveries.map .bank)
  have unread : draft.encode = draft.variant.magic ++ (bigEndianBytes 4 draft.source.length ++ (draft.source ++
      (encodeBankCount draft.banks.length ++ draft.banks.flatMap BankDraft.encode)) ++ []) := by
    simp only [encode, encodeFile, List.append_assoc, List.append_nil]
  exact sinkCalls_of_passes (HeaderVariant.length_magic valid.known) passage unread accepted

theorem FileDraft.Valid.decode_of_accepted {draft : FileDraft} (valid : draft.Valid) {options : DecodeOptions}
    {sink : Sink σ} {receiver last : σ}
    (accepted : sink.accept? receiver
      ((draft.lineDeliveries options).map .line ++ draft.bankDeliveries.map .bank) = some last) :
    ∃ final, decode sink options false (.fresh { bytes := draft.encode } receiver) = (.ok draft.summary, final) ∧
      final.receiver = last := by
  obtain ⟨stop, passage⟩ := valid.passes options
  have unread : ({ bytes := draft.encode } : Source).bytes = draft.variant.magic ++
      (bigEndianBytes 4 draft.source.length ++ (draft.source ++
        (encodeBankCount draft.banks.length ++ draft.banks.flatMap BankDraft.encode)) ++ []) := by
    simp only [encode, encodeFile, List.append_assoc, List.append_nil]
  obtain ⟨final, success, kept, -⟩ := decode_of_passes (HeaderVariant.length_magic valid.known) passage unread accepted
  exact ⟨final, success, kept⟩

/-- A file that is written from a valid draft is decoded to its end. A receiver that refuses nothing gets the lines
and then the banks of the draft. -/
theorem decode_encode (sink : Sink σ) (willing : ∀ receiver delivery, (sink receiver delivery).refusal = none)
    (options : DecodeOptions) {draft : FileDraft} (valid : draft.Valid) {source : Source}
    (written : source.bytes = draft.encode) (receiver : σ) :
    ∃ lines contents summary final,
      decode sink options false (.fresh source receiver) = (.ok summary, final) ∧
      final.unread = [] ∧ final.cursor.position = draft.encode.length ∧
      sinkCalls sink options false (.fresh source receiver) =
        lines.map Delivery.line ++ contents.map Delivery.bank ∧
      List.Forall₂ (LineDraft.ReadAs options) draft.lines lines ∧
      List.Forall₂ BankDraft.ReadAs draft.banks contents ∧ summary.Counts draft.header lines contents := by
  obtain ⟨stop, passage⟩ := valid.passes options
  have filled := HeaderVariant.length_magic valid.known
  have unread : source.bytes = draft.variant.magic ++ (bigEndianBytes 4 draft.source.length ++ (draft.source ++
      (encodeBankCount draft.banks.length ++ draft.banks.flatMap BankDraft.encode)) ++ []) := by
    rw [written, FileDraft.encode, encodeFile]
    simp only [List.append_assoc, List.append_nil]
  obtain ⟨last, accepted⟩ := sink.accept?_of_willing willing receiver
    ((draft.lineDeliveries options).map .line ++ draft.bankDeliveries.map .bank)
  obtain ⟨final, success, -, stopped, left⟩ := decode_of_passes filled passage unread accepted
  refine ⟨_, _, _, final, success, left, ?_, sinkCalls_of_passes filled passage unread accepted,
    LineDraft.readAs_placed valid.lines _, valid.readAs_contents, draft.counts_summary options⟩
  have position := passage.stop_position
  rw [← stopped] at position
  refine position.trans ?_
  rw [← written, unread, List.append_nil, ← filled, ← List.length_append]

theorem decode_encode_line_and_banks :
    let draft : FileDraft :=
      { variant := HeaderVariant.known[1],
        lines := [⟨2, [.token 0x0476, .name .variableName [0x61, 0x62, 0x63] 2, .quoted .double [0x48, 0x69]]⟩],
        banks := [.images .sprites [⟨1, 1, 1, 0, 0, [0x80, 0x01]⟩] (List.replicate 64 0),
          .memory 3 true 1 (Latin1.encode "Samples ") [1, 2]] }
    ∃ lines contents summary final,
      decode Sink.discard {} false (.fresh { bytes := draft.encode } ()) = (.ok summary, final) ∧
      final.unread = [] ∧ final.cursor.position = draft.encode.length ∧
      sinkCalls Sink.discard {} false (.fresh { bytes := draft.encode } ()) =
        lines.map Delivery.line ++ contents.map Delivery.bank ∧
      List.Forall₂ (LineDraft.ReadAs {}) draft.lines lines ∧
      List.Forall₂ BankDraft.ReadAs draft.banks contents ∧ summary.Counts draft.header lines contents :=
  decode_encode Sink.discard (fun _ _ => rfl) {}
    ⟨by decide, by decide, by decide, by decide, by decide⟩ rfl ()

end AmosBasic
