import AmosBasic.Proofs.Line.Check
import AmosBasic.Proofs.Reading.Outcome
import AmosBasic.Session

namespace AmosBasic

def Corruption.OutOfTurn : Corruption → Prop
  | noSourceLeft | sourceUnfinished .. | noBankLeft .. => True
  | _ => False

def DecodeError.OutOfTurn : DecodeError → Prop
  | corruptStream _ reason => reason.OutOfTurn
  | _ => False

def DecodeError.InTurn (error : DecodeError) : Prop := ¬ error.OutOfTurn

theorem View.shortage_inTurn (view : View) (count : Nat) : (view.shortage count).InTurn := by
  unfold shortage
  cases view.ending <;> exact id

namespace Reading

inductive Confined (errors : DecodeError → Prop) (changes : (Progress → Progress) → Prop) {α : Type} :
    Reading α → Prop
  | done (value : α) : Confined errors changes (.done value)
  | fail {error : DecodeError} (allowed : errors error) : Confined errors changes (.fail error)
  | take {count : Nat} {next : List UInt8 → Reading α} (after : ∀ piece, Confined errors changes (next piece)) :
      Confined errors changes (.take count next)
  | skip {count : Nat} {next : List UInt8 → Reading α} (after : ∀ piece, Confined errors changes (next piece)) :
      Confined errors changes (.skip count next)
  | position {next : Nat → Reading α} (after : ∀ place, Confined errors changes (next place)) :
      Confined errors changes (.position next)
  | change {change : Progress → Progress} {next : Reading α} (allowed : changes change)
      (after : Confined errors changes next) :
      Confined errors changes (.progress fun state => .setProgress (change state) next)
  | note {remark : Note} {next : Reading α} (after : Confined errors changes next) :
      Confined errors changes (.note remark next)

variable {α β : Type} {errors : DecodeError → Prop} {changes : (Progress → Progress) → Prop}

theorem confined_pure (value : α) : (pure value : Reading α).Confined errors changes := .done value

theorem confined_corrupt {offset : Nat} {reason : Corruption} (allowed : errors (.corruptStream (some offset) reason)) :
    (corrupt offset reason : Reading α).Confined errors changes :=
  .fail allowed

theorem confined_bind {first : Reading α} {next : α → Reading β} (before : first.Confined errors changes)
    (after : ∀ value, (next value).Confined errors changes) : (first >>= next).Confined errors changes := by
  change (first.bind next).Confined errors changes
  induction before with
  | done value => exact after value
  | fail allowed => exact .fail allowed
  | take _ ih => exact .take ih
  | skip _ ih => exact .skip ih
  | position _ ih => exact .position ih
  | change allowed _ ih => exact .change allowed ih
  | note _ ih => exact .note ih

theorem confined_bytes (count : Nat) : (Reading.bytes count).Confined errors changes := .take fun _ => .done _

theorem confined_skipped (count : Nat) : (skipped count).Confined errors changes := .skip fun _ => .done _

theorem confined_byte : byte.Confined errors changes := confined_bind (confined_bytes 1) fun _ => .done _

theorem confined_word (count : Nat) : (word count).Confined errors changes :=
  confined_bind (confined_bytes count) fun _ => .done _

theorem confined_currentPosition : currentPosition.Confined errors changes := .position fun _ => .done _

theorem confined_updateProgress {change : Progress → Progress} (allowed : changes change) :
    (updateProgress change).Confined errors changes :=
  .change allowed (.done ())

theorem confined_remark (note : Note) : (remark note).Confined errors changes := .note (.done ())

theorem confined_remarks (notes : List Note) : (notes.forM remark).Confined errors changes := by
  induction notes with
  | nil => exact confined_pure ()
  | cons note notes ih => exact confined_bind (confined_remark note) fun _ => ih

theorem Confined.mono {others : DecodeError → Prop} {reading : Reading α} (confined : reading.Confined errors changes)
    (weaker : ∀ error, errors error → others error) : reading.Confined others changes := by
  induction confined with
  | done value => exact .done value
  | fail allowed => exact .fail (weaker _ allowed)
  | take _ ih => exact .take ih
  | skip _ ih => exact .skip ih
  | position _ ih => exact .position ih
  | change allowed _ ih => exact .change allowed ih
  | note _ ih => exact .note ih

theorem Confined.silent {reading : Reading α} (confined : reading.Confined errors changes) (view : View) :
    (reading.outcome view).handed = [] := by
  induction confined generalizing view with
  | done | fail => rfl
  | take _ ih | skip _ ih =>
    rw [outcome]
    split
    · exact ih _ _
    · rfl
  | position _ ih => exact ih _ view
  | change _ _ ih => exact ih _
  | note _ ih => exact ih view

theorem Confined.run_eq {σ : Type} {reading : Reading α} (confined : reading.Confined errors changes) (sink : Sink σ)
    (machine : Machine σ) :
    (reading.run sink machine).1 = (reading.outcome machine.view).result ∧
      (reading.run sink machine).2.view = (reading.outcome machine.view).view := by
  obtain ⟨final, ran, view, -⟩ := run_of_silent sink machine (confined.silent machine.view)
  rw [ran]
  exact ⟨rfl, view⟩

/-- The errors of a confined reading are those allowed to it, once those of short requests are. -/
theorem Confined.allows {reading : Reading α} (confined : reading.Confined errors changes)
    (requests : ∀ (view : View) (count : Nat), errors (view.shortage count)) {view last : View} {error : DecodeError}
    {handed : List Delivery} (failure : reading.outcome view = ⟨.error error, handed, last⟩) : errors error := by
  induction confined generalizing view with
  | done value => cases failure
  | fail allowed =>
    cases failure
    exact allowed
  | take _ ih | skip _ ih =>
    rw [outcome] at failure
    split at failure
    · exact ih _ failure
    · cases failure
      exact requests _ _
  | position _ ih => exact ih _ failure
  | change _ _ ih => exact ih failure
  | note _ ih => exact ih failure

end Reading

open Reading

section

variable {changes : (Progress → Progress) → Prop}

theorem Shape.confined_reading (opcode : UInt16) (shape : Shape) :
    (shape.reading opcode).Confined DecodeError.InTurn changes := by
  cases shape with
  | plain => exact confined_pure _
  | control words => exact confined_bind (confined_skipped _) fun _ => confined_pure _
  | name use =>
    apply confined_bind (confined_skipped 2)
    intro lead
    apply confined_bind confined_byte
    intro length
    apply confined_bind confined_byte
    intro flags
    exact confined_bind (confined_bytes _) fun _ => confined_pure _
  | quoted mark =>
    apply confined_bind (confined_word 2)
    intro length
    exact confined_bind (confined_bytes _) fun _ => confined_pure _
  | integer base => exact confined_bind (confined_word 4) fun _ => confined_pure _
  | float => exact confined_bind (confined_word 4) fun _ => confined_pure _
  | extension =>
    apply confined_bind confined_byte
    intro module
    apply confined_bind (confined_skipped 1)
    intro lead
    exact confined_bind (confined_word 2) fun _ => confined_pure _
  | remark mark =>
    apply confined_bind (confined_skipped 1)
    intro lead
    apply confined_bind confined_byte
    intro length
    exact confined_bind (confined_bytes _) fun _ => confined_pure _

theorem Record.confined_reading (options : DecodeOptions) :
    (Record.reading options).Confined DecodeError.InTurn changes := by
  rw [Record.reading_eq]
  apply confined_bind confined_currentPosition
  intro offset
  apply confined_bind (confined_word 2)
  intro opcode
  apply confined_bind (Shape.confined_reading _ _)
  intro token
  apply confined_bind confined_currentPosition
  intro behind
  apply confined_bind (confined_remarks _)
  intro _
  exact confined_bind (confined_remark _) fun _ => confined_pure _

namespace Line

theorem confined_recordsReading (options : DecodeOptions) (left : Nat) (read : List Record) :
    (recordsReading options left read).Confined DecodeError.InTurn changes := by
  induction left using Nat.strongRecOn generalizing read with
  | ind left ih =>
    cases left with
    | zero =>
      rw [recordsReading]
      exact confined_pure _
    | succ left =>
      rw [recordsReading]
      exact confined_bind (Record.confined_reading options) fun record => ih _ (by omega) _

theorem confined_closing (options : DecodeOptions) (start : Nat) (declared indent : UInt8)
    (records : List Record) :
    (closing options start declared indent records).Confined DecodeError.InTurn changes := by
  unfold closing
  dsimp only
  split
  · exact confined_bind confined_currentPosition fun _ => confined_corrupt id
  · split
    · exact confined_pure _
    · exact confined_bind confined_currentPosition fun _ => confined_corrupt id

theorem confined_reading (options : DecodeOptions) :
    (Line.reading options).Confined DecodeError.InTurn changes := by
  apply confined_bind confined_currentPosition
  intro start
  apply confined_bind confined_byte
  intro declared
  apply confined_bind confined_byte
  intro indent
  split
  · exact confined_corrupt id
  · apply confined_bind (confined_recordsReading options _ _)
    intro records
    exact confined_closing options _ _ _ _

end Line

theorem BankType.confined_reading : BankType.reading.Confined DecodeError.InTurn changes := by
  apply confined_bind confined_currentPosition
  intro offset
  apply confined_bind (confined_bytes 4)
  intro tag
  split
  · exact confined_pure _
  · exact confined_corrupt id

theorem PlanarImage.confined_reading {errors : DecodeError → Prop} (index : Nat)
    (refused : ∀ offset depth, errors (.corruptStream (some offset) (.bankImageDepth depth index))) :
    (PlanarImage.reading index).Confined errors changes := by
  apply confined_bind (confined_word 2)
  intro widthWords
  apply confined_bind (confined_word 2)
  intro height
  apply confined_bind confined_currentPosition
  intro depthOffset
  apply confined_bind (confined_word 2)
  intro depth
  split
  · exact confined_corrupt (refused _ _)
  · apply confined_bind (confined_word 2)
    intro hotspotX
    apply confined_bind (confined_word 2)
    intro hotspotY
    apply confined_bind (confined_bytes _)
    intro planes
    exact confined_bind (confined_remark _) fun _ => confined_pure _

theorem Raster.ofPlanar_inTurn {width height depth : Nat} {planes : List UInt8} {palette : Palette}
    {error : DecodeError} (failure : Raster.ofPlanar width height depth planes palette = .error error) :
    error.InTurn := by
  unfold Raster.ofPlanar at failure
  dsimp only at failure
  split at failure
  · cases failure
    exact id
  · split at failure
    · cases failure
      exact id
    · cases failure

theorem PlanarImage.confined_coloring (palette : Palette) (image : PlanarImage) :
    (image.coloring palette).Confined DecodeError.InTurn changes := by
  unfold coloring Raster.convert
  cases converted : Raster.ofPlanar image.width image.height image.depth image.planes palette with
  | ok raster => exact confined_bind (confined_remarks _) fun _ => confined_pure _
  | error error =>
    exact confined_bind (confined_remarks _) fun _ => .fail (Raster.ofPlanar_inTurn converted)

namespace ImageBank

theorem confined_planarReading {errors : DecodeError → Prop}
    (refused : ∀ offset depth index, errors (.corruptStream (some offset) (.bankImageDepth depth index)))
    (left index : Nat) (read : List PlanarImage) : (planarReading left index read).Confined errors changes := by
  induction left generalizing index read with
  | zero => exact confined_pure _
  | succ left ih =>
    exact confined_bind (PlanarImage.confined_reading index fun _ _ => refused _ _ _) fun image => ih _ _

theorem confined_coloring (palette : Palette) (images : List PlanarImage) (colored : List BankImage) :
    (coloring palette images colored).Confined DecodeError.InTurn changes := by
  induction images generalizing colored with
  | nil => exact confined_pure _
  | cons image images ih => exact confined_bind (image.confined_coloring palette) fun _ => ih _

theorem confined_reading : ImageBank.reading.Confined DecodeError.InTurn changes := by
  apply confined_bind (confined_word 2)
  intro count
  apply confined_bind (confined_remark _)
  intro _
  apply confined_bind (confined_planarReading (fun _ _ _ => id) count 0 [])
  intro planar
  apply confined_bind (confined_bytes _)
  intro palette
  exact confined_bind (confined_coloring _ planar []) fun _ => confined_pure _

end ImageBank

theorem BankContent.confined_ofPayload (header : MemoryHeader) (payload : List UInt8) :
    (ofPayload header payload).Confined DecodeError.InTurn changes := by
  unfold ofPayload
  split
  · rcases PackedPicture.parse payload with ⟨_ | picture, notes⟩
    · apply confined_bind (confined_remarks notes)
      intro _
      exact confined_bind (confined_remark _) fun _ => confined_pure _
    · exact confined_bind (confined_remarks notes) fun _ => confined_pure _
  · exact confined_pure _

end

def Progress.withBank (number : UInt16) (progress : Progress) : Progress :=
  { progress with currentBank? := some number }

section

variable {changes : (Progress → Progress) → Prop} (numbered : ∀ number, changes (Progress.withBank number))

include numbered

theorem MemoryHeader.confined_reading : MemoryHeader.reading.Confined DecodeError.InTurn changes := by
  apply confined_bind confined_currentPosition
  intro offset
  apply confined_bind (confined_word 2)
  intro number
  apply confined_bind (confined_word 2)
  intro chip
  apply confined_bind (confined_word 4)
  intro sizeField
  dsimp only
  split
  · exact confined_corrupt id
  · apply confined_bind (confined_bytes _)
    intro name
    apply confined_bind (confined_remark _)
    intro _
    have counted : (updateProgress (Progress.withBank (UInt16.ofNat number))).Confined DecodeError.InTurn changes :=
      confined_updateProgress (numbered _)
    split
    · exact confined_bind (confined_remark _) fun _ => confined_bind counted fun _ => confined_pure _
    · exact confined_bind counted fun _ => confined_pure _

theorem BankContent.confined_reading : BankContent.reading.Confined DecodeError.InTurn changes := by
  apply confined_bind BankType.confined_reading
  intro type
  cases type with
  | sprite => exact confined_bind ImageBank.confined_reading fun _ => confined_pure _
  | icon => exact confined_bind ImageBank.confined_reading fun _ => confined_pure _
  | memory =>
    apply confined_bind (MemoryHeader.confined_reading numbered)
    intro header
    apply confined_bind (confined_bytes _)
    intro payload
    exact confined_ofPayload header payload

end

end AmosBasic
