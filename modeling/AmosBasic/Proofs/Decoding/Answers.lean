import AmosBasic.Proofs.Line.Check
import AmosBasic.Proofs.Reading.Receiving

namespace AmosBasic

open Reading

theorem Token.warning?_foreign {behind : Nat} {token : Token} {note : Note}
    (warned : token.warning? behind = some note) : note.Foreign := by
  unfold warning? at warned
  dsimp only at warned
  split at warned
  · split at warned
    · cases warned
      exact (nofun : Origin.lines ≠ .exporter)
    · cases warned
  · split at warned
    · cases warned
      exact (nofun : Origin.lines ≠ .exporter)
    · cases warned
  · cases warned

theorem Record.remarks_reading (options : DecodeOptions) : (Record.reading options).Remarks Note.Foreign := by
  rw [Record.reading_eq]
  intro offset opcode
  apply remarks_bind (Shape.remarks_reading _ _)
  intro token
  apply remarks_bind remarks_currentPosition
  intro behind
  have warning : ∀ note ∈ (token.warning? behind).toList, note.Foreign := fun note member =>
    Token.warning?_foreign (Option.mem_toList.mp member)
  exact remarks_bind (remarks_forM warning) fun _ => ⟨(nofun : Origin.lines ≠ .exporter), trivial⟩

namespace Line

theorem remarks_recordsReading (options : DecodeOptions) (left : Nat) (read : List Record) :
    (recordsReading options left read).Remarks Note.Foreign := by
  induction left using Nat.strongRecOn generalizing read with
  | ind left ih =>
    cases left with
    | zero =>
      rw [recordsReading]
      exact trivial
    | succ left =>
      rw [recordsReading]
      exact remarks_bind (Record.remarks_reading options) fun record => ih _ (by omega) _

theorem remarks_closing (options : DecodeOptions) (start : Nat) (declared indent : UInt8) (records : List Record) :
    (closing options start declared indent records).Remarks Note.Foreign := by
  unfold closing
  dsimp only
  split
  · exact fun _ => trivial
  · split
    · exact trivial
    · exact fun _ => trivial

theorem remarks_reading (options : DecodeOptions) : (Line.reading options).Remarks Note.Foreign := by
  intro start declared indent
  split
  · exact trivial
  · apply remarks_bind (remarks_recordsReading options _ [])
    intro records
    exact remarks_closing options _ _ _ _

end Line

theorem PlanarImage.remarks_reading (index : Nat) : (PlanarImage.reading index).Remarks Note.Foreign := by
  intro widthWords height depthOffset
  apply remarks_bind (remarks_word 2)
  intro depth
  split
  · exact trivial
  · exact fun _ _ _ => ⟨(nofun : Origin.banks ≠ .exporter), trivial⟩

theorem PlanarImage.remarks_coloring (palette : Palette) (image : PlanarImage) :
    (image.coloring palette).Remarks Note.Foreign := by
  unfold coloring Raster.convert
  cases Raster.ofPlanar image.width image.height image.depth image.planes palette with
  | ok raster => exact ⟨(nofun : Origin.planes ≠ .exporter), trivial⟩
  | error error => exact trivial

namespace ImageBank

theorem remarks_planarReading (left index : Nat) (read : List PlanarImage) :
    (planarReading left index read).Remarks Note.Foreign := by
  induction left generalizing index read with
  | zero => exact trivial
  | succ left ih => exact remarks_bind (PlanarImage.remarks_reading index) fun image => ih _ _

theorem remarks_coloring (palette : Palette) (images : List PlanarImage) (colored : List BankImage) :
    (coloring palette images colored).Remarks Note.Foreign := by
  induction images generalizing colored with
  | nil => exact trivial
  | cons image images ih => exact remarks_bind (image.remarks_coloring palette) fun _ => ih _

theorem remarks_reading : ImageBank.reading.Remarks Note.Foreign := by
  intro count
  refine ⟨(nofun : Origin.banks ≠ .exporter), ?_⟩
  apply remarks_bind (remarks_planarReading _ 0 [])
  intro planar
  apply remarks_bind (remarks_bytes Palette.size)
  exact fun bytes => remarks_bind (remarks_coloring _ planar []) fun _ => trivial

end ImageBank

theorem MemoryHeader.remarks_reading : MemoryHeader.reading.Remarks Note.Foreign := by
  intro offset number chip
  apply remarks_bind (remarks_word 4)
  intro sizeField
  dsimp only
  split
  · exact trivial
  · intro name
    refine ⟨(nofun : Origin.banks ≠ .exporter), ?_⟩
    split
    · exact ⟨(nofun : Origin.banks ≠ .exporter), fun _ => trivial⟩
    · exact fun _ => trivial

theorem Sink.give_discard (calls : List Delivery) : Sink.discard.give () calls = { receiver := () } := by
  induction calls with
  | nil => rfl
  | cons delivery calls ih =>
    rw [give, Receipt.each, Receipt.andThen_of_accepted rfl]
    exact ih

namespace PackedPicture

theorem remarks_expectId {expected : Nat} {warning : Nat → Note} (foreign : ∀ id, (warning id).Foreign) :
    (expectId expected warning).Remarks Note.Foreign := by
  apply remarks_bind (remarks_word 4)
  intro id
  split
  · exact ⟨foreign id, trivial⟩
  · exact trivial

theorem remarks_reading (packedData : List UInt8) : (reading packedData).Remarks Note.Foreign := by
  have screen : screenReading.Remarks Note.Foreign :=
    remarks_bind (remarks_expectId fun _ => (nofun : Origin.pictures ≠ .exporter))
      fun _ _ _ _ _ _ _ _ _ _ _ _ => trivial
  have layout : layoutReading.Remarks Note.Foreign :=
    remarks_bind (remarks_expectId fun _ => (nofun : Origin.pictures ≠ .exporter))
      fun _ _ _ _ _ _ _ _ _ => trivial
  exact remarks_bind screen fun _ => remarks_bind layout fun _ => ⟨(nofun : Origin.pictures ≠ .exporter), trivial⟩

theorem parse_foreign (payload : List UInt8) : ∀ note ∈ (parse payload).2, note.Foreign := by
  unfold parse
  split
  · exact fun _ none => absurd none List.not_mem_nil
  · intro note member
    have given : Machine.Given Sink.discard ()
        (Machine.recording { cursor := .ofBytes payload, receiver := () } []) := ⟨rfl, nofun⟩
    obtain ⟨behind, -⟩ := run_given (remarks_reading (payload.drop pictureHeaderSize)) given rfl
    obtain ⟨calls, same⟩ := run_recorded Sink.discard (reading (payload.drop pictureHeaderSize))
      { cursor := .ofBytes payload, receiver := () } []
    rw [same] at behind
    rcases behind.notes note (Array.mem_toList_iff.mp member) with foreign | answer
    · exact foreign
    · rw [Sink.give_discard] at answer
      exact absurd answer List.not_mem_nil

end PackedPicture

theorem BankContent.remarks_ofPayload (header : MemoryHeader) (payload : List UInt8) :
    (ofPayload header payload).Remarks Note.Foreign := by
  unfold ofPayload
  split
  · have foreign := PackedPicture.parse_foreign payload
    rcases parsed : PackedPicture.parse payload with ⟨_ | picture, notes⟩ <;> rw [parsed] at foreign
    · exact remarks_bind (remarks_forM foreign) fun _ => ⟨(nofun : Origin.banks ≠ .exporter), trivial⟩
    · exact remarks_bind (remarks_forM foreign) fun _ => trivial
  · exact trivial

theorem BankType.remarks_reading : BankType.reading.Remarks Note.Foreign := by
  intro offset
  apply remarks_bind (remarks_bytes 4)
  intro tag
  split <;> exact trivial

theorem BankContent.remarks_reading : BankContent.reading.Remarks Note.Foreign := by
  apply remarks_bind BankType.remarks_reading
  intro type
  cases type with
  | sprite => exact remarks_bind ImageBank.remarks_reading fun _ => trivial
  | icon => exact remarks_bind ImageBank.remarks_reading fun _ => trivial
  | memory =>
    apply remarks_bind MemoryHeader.remarks_reading
    exact fun header payload => remarks_ofPayload header payload

theorem Bank.remarks_reading : Bank.reading.Remarks Note.Foreign := by
  apply remarks_bind remarks_currentProgress
  intro progress
  split
  · exact fun _ => trivial
  · apply remarks_bind (remarks_updateProgress _)
    exact fun _ => remarks_bind BankContent.remarks_reading fun _ => trivial

namespace OpenFile

theorem remarks_readLine (file : OpenFile) : file.readLine.Remarks Note.Foreign := by
  apply remarks_bind remarks_currentPosition
  intro start
  split
  · exact trivial
  · apply remarks_bind (Line.remarks_reading _)
    intro line
    apply remarks_bind remarks_currentPosition
    intro position
    split
    · exact trivial
    · exact fun _ => trivial

theorem remarks_deliverLines (file : OpenFile) (fuel : Nat) (summary : Summary) :
    (file.deliverLines fuel summary).Remarks Note.Foreign := by
  induction fuel generalizing summary with
  | zero => exact trivial
  | succ fuel ih =>
    have exhausted : file.isExhausted.Remarks Note.Foreign := fun _ => trivial
    apply remarks_bind exhausted
    intro exhausted
    split
    · exact trivial
    · exact remarks_bind file.remarks_readLine fun line => ih _

theorem remarks_deliverBanks (fuel : Nat) (summary : Summary) :
    (deliverBanks fuel summary).Remarks Note.Foreign := by
  induction fuel generalizing summary with
  | zero => exact trivial
  | succ fuel ih =>
    apply remarks_bind remarks_currentProgress
    intro progress
    split
    · exact trivial
    · exact remarks_bind Bank.remarks_reading fun bank => ih _

theorem remarks_readBankCount (file : OpenFile) : file.readBankCount.Remarks Note.Foreign := by
  apply remarks_bind remarks_currentPosition
  intro offset
  split
  · exact trivial
  · apply remarks_bind (remarks_bytes 4)
    intro marker
    split
    · exact trivial
    · exact fun count => ⟨(nofun : Origin.banks ≠ .exporter), fun _ => trivial⟩

theorem remarks_headerReading (magic : List UInt8) : (headerReading magic).Remarks Note.Foreign := by
  unfold headerReading
  split
  · exact trivial
  · intro length
    refine ⟨(nofun : Origin.container ≠ .exporter), ?_⟩
    split
    · exact ⟨(nofun : Origin.container ≠ .exporter), trivial⟩
    · exact trivial

theorem remarks_decoding (file : OpenFile) (sourceOnly : Bool) : (file.decoding sourceOnly).Remarks Note.Foreign := by
  apply remarks_bind (file.remarks_deliverLines _ _)
  intro lines
  have finish : ∀ summary : Summary, (remark (.finished summary) >>= fun _ => pure summary).Remarks Note.Foreign :=
    fun _ => ⟨(nofun : Origin.decoder ≠ .exporter), trivial⟩
  dsimp only
  split
  · exact finish lines
  · apply remarks_bind file.remarks_readBankCount
    exact fun count => remarks_bind (remarks_deliverBanks count lines) finish

end OpenFile

theorem remarks_fileReading (options : DecodeOptions) (sourceOnly : Bool) (magic : List UInt8) :
    (fileReading options sourceOnly magic).Remarks Note.Foreign :=
  remarks_bind (OpenFile.remarks_headerReading magic) fun _ => OpenFile.remarks_decoding _ sourceOnly

variable {σ : Type}

/-- The receiver ends where the calls made to it bring it, and a note in the name of the exporter is one of its answers.
A run that succeeds has not been refused anything. -/
theorem decode_given (sink : Sink σ) (options : DecodeOptions) (sourceOnly : Bool) (source : Source) (receiver : σ) :
    let calls := sinkCalls sink options sourceOnly (.fresh source receiver)
    let final := (decode sink options sourceOnly (.fresh source receiver)).2
    final.receiver = (sink.give receiver calls).receiver ∧
      (∀ note ∈ final.notes, note.Foreign ∨ note ∈ (sink.give receiver calls).notes) ∧
      ∀ summary, (decode sink options sourceOnly (.fresh source receiver)).1 = .ok summary →
        (sink.give receiver calls).refusal = none := by
  intro calls final
  have given : Machine.Given sink receiver (.fresh source (receiver, [])) := ⟨rfl, nofun⟩
  have ran : (decode sink.recorded options sourceOnly (.fresh source (receiver, []))).2.Given sink receiver ∧
      ∀ summary, (decode sink.recorded options sourceOnly (.fresh source (receiver, []))).1 = .ok summary →
        (sink.give receiver (decode sink.recorded options sourceOnly
          (.fresh source (receiver, []))).2.receiver.2).refusal = none := by
    obtain ⟨behind, kept⟩ := given.draw HeaderVariant.magicLength
    rw [decode_eq]
    dsimp only
    split
    · exact ⟨behind, nofun⟩
    · exact ⟨behind, nofun⟩
    · exact run_given (remarks_fileReading _ _ _) behind (by rw [kept]; rfl)
  obtain ⟨later, same⟩ := decode_recorded sink options sourceOnly (.fresh source receiver) []
  have recorded : calls = later := congrArg (fun run => run.2.receiver.2) same
  change (decode sink.recorded options sourceOnly (.fresh source (receiver, []))) = _ at same
  rw [same] at ran
  rw [recorded]
  exact ⟨ran.1.receiver, ran.1.notes, ran.2⟩

end AmosBasic
