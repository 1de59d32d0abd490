import Mathlib.Algebra.Order.Ring.Nat
import Mathlib.Tactic.GCongr
import AmosBasic.Proofs.Bank.Damage
import AmosBasic.Proofs.Bank.Meaning

namespace AmosBasic

open Reading

def product? (first second : UInt64) : Option UInt64 :=
  if first.toNat * second.toNat < 2 ^ 64 then some (first * second) else none

def sum? (first second : UInt64) : Option UInt64 :=
  if first.toNat + second.toNat < 2 ^ 64 then some (first + second) else none

/-- The size by which planes are read, computed in machine words: two bytes for every sixteen pixels. -/
def readSize? (widthWords height depth : UInt16) : Option UInt64 := do
  let row ← product? 2 widthWords.toUInt64
  let plane ← product? row height.toUInt64
  product? plane depth.toUInt64

def convertedSize? (widthWords height depth : UInt16) : Option UInt64 := do
  let width ← product? 16 widthWords.toUInt64
  let filled ← sum? width 7
  let plane ← product? (filled / 8) height.toUInt64
  product? plane depth.toUInt64

theorem product?_word {factor : Nat} (fits : factor ≤ 2 ^ 48) (word : UInt16) :
    product? (.ofNat factor) word.toUInt64 = some (.ofNat (factor * word.toNat)) := by
  have small : word.toNat < 2 ^ 16 := word.toNat_lt
  have single : factor < 2 ^ 64 := by omega
  have product : factor * word.toNat < 2 ^ 64 := by
    calc factor * word.toNat ≤ 2 ^ 48 * word.toNat := by gcongr
      _ < 2 ^ 64 := by omega
  rw [product?, UInt64.toNat_ofNat_of_lt' single, UInt16.toNat_toUInt64, if_pos product, UInt64.ofNat_mul,
    UInt64.ofNat_uInt16ToNat]

theorem sum?_ofNat {first second : Nat} (fits : first + second < 2 ^ 64) :
    sum? (.ofNat first) (.ofNat second) = some (.ofNat (first + second)) := by
  have small : first < 2 ^ 64 := by omega
  have other : second < 2 ^ 64 := by omega
  rw [sum?, UInt64.toNat_ofNat_of_lt' small, UInt64.toNat_ofNat_of_lt' other, if_pos fits, UInt64.ofNat_add]

section

variable (widthWords height depth : UInt16)

theorem plane_lt : 2 * widthWords.toNat * height.toNat < 2 ^ 33 := by
  have wide : widthWords.toNat ≤ 65535 := Nat.le_of_lt_succ widthWords.toNat_lt
  have high : height.toNat ≤ 65535 := Nat.le_of_lt_succ height.toNat_lt
  calc 2 * widthWords.toNat * height.toNat ≤ 2 * 65535 * 65535 := by gcongr
    _ < 2 ^ 33 := by decide

theorem planes_lt : 2 * widthWords.toNat * height.toNat * depth.toNat < 2 ^ 49 := by
  have plane := Nat.le_of_lt (plane_lt widthWords height)
  have deep : depth.toNat ≤ 65535 := Nat.le_of_lt_succ depth.toNat_lt
  calc 2 * widthWords.toNat * height.toNat * depth.toNat ≤ 2 ^ 33 * 65535 := by gcongr
    _ < 2 ^ 49 := by decide

theorem readSize?_eq : readSize? widthWords height depth =
    some (.ofNat (2 * widthWords.toNat * height.toNat * depth.toNat)) := by
  have wide := widthWords.toNat_lt
  have plane := plane_lt widthWords height
  have rowFits : 2 * widthWords.toNat ≤ 2 ^ 48 := by omega
  have planeFits : 2 * widthWords.toNat * height.toNat ≤ 2 ^ 48 := by omega
  have row : product? 2 widthWords.toUInt64 = some (.ofNat (2 * widthWords.toNat)) :=
    product?_word (show 2 ≤ 2 ^ 48 by decide) widthWords
  simp only [readSize?, row, Option.bind_eq_bind, Option.bind_some, product?_word rowFits, product?_word planeFits]

theorem convertedSize?_eq : convertedSize? widthWords height depth = readSize? widthWords height depth := by
  have wide := widthWords.toNat_lt
  have width : product? 16 widthWords.toUInt64 = some (.ofNat (16 * widthWords.toNat)) :=
    product?_word (show 16 ≤ 2 ^ 48 by decide) widthWords
  have row : product? 2 widthWords.toUInt64 = some (.ofNat (2 * widthWords.toNat)) :=
    product?_word (show 2 ≤ 2 ^ 48 by decide) widthWords
  have filled : sum? (.ofNat (16 * widthWords.toNat)) 7 = some (.ofNat (16 * widthWords.toNat + 7)) :=
    sum?_ofNat (show 16 * widthWords.toNat + 7 < 2 ^ 64 by omega)
  have whole : UInt64.ofNat (16 * widthWords.toNat + 7) / 8 = .ofNat (2 * widthWords.toNat) := by
    have same : (16 * widthWords.toNat + 7) / 8 = 2 * widthWords.toNat := by omega
    rw [← same, UInt64.ofNat_div (by omega) (by decide)]
    rfl
  simp only [convertedSize?, readSize?, width, filled, whole, row, Option.bind_eq_bind, Option.bind_some]

end

theorem StoredImage.WellFormed.readSize {image : StoredImage} (wellFormed : image.WellFormed) :
    readSize? (.ofNat image.widthWords) (.ofNat image.height) (.ofNat image.depth) =
      some (.ofNat image.planes.length) := by
  have fits := wellFormed.words
  simp only [List.forall_mem_cons] at fits
  obtain ⟨wide, high, deep, -⟩ := fits
  rw [readSize?_eq, UInt16.toNat_ofNat_of_lt' wide, UInt16.toNat_ofNat_of_lt' high,
    UInt16.toNat_ofNat_of_lt' deep, wellFormed.planes]

def DecodeError.Placed : DecodeError → Prop
  | corruptStream none _ => False
  | _ => True

theorem View.shortage_placed (view : View) (count : Nat) : (view.shortage count).Placed := by
  unfold shortage
  cases view.ending <;> trivial

section

variable {α : Type} {view last : View} {handed : List Delivery}

theorem outcome_coloring {images : List StoredImage} (wellFormed : ∀ image ∈ images, image.WellFormed)
    (palette : Palette) (view : View) :
    (ImageBank.coloring palette (images.map StoredImage.planar) []).outcome view =
      ⟨.ok (images.map (StoredImage.colored palette)), [], view⟩ := by
  have passage : Passes (ImageBank.coloring palette (images.map StoredImage.planar) []) view.place [] [] view.place
      (images.map (StoredImage.colored palette)) := by
    rw [← bind_pure (ImageBank.coloring palette (images.map StoredImage.planar) []), passes_coloring_bind wellFormed]
    exact .done
  exact outcome_of_passes passage view.unread view.ending

theorem images_of_planarReading {left index : Nat} {planar : List PlanarImage}
    (success : (ImageBank.planarReading left index []).outcome view = ⟨.ok planar, handed, last⟩) :
    ∃ images : List StoredImage, planar = images.map StoredImage.planar ∧ ∀ image ∈ images, image.WellFormed := by
  obtain ⟨_, -, -, passage⟩ := passes_of_outcome success
  rw [← bind_pure (ImageBank.planarReading left index []), passes_planarImages_bind] at passage
  obtain ⟨images, _, -, -, wellFormed, same⟩ := passage
  obtain ⟨-, -, -, rfl⟩ := passes_pure.mp same
  exact ⟨images, rfl, wellFormed⟩

theorem ImageBank.placed_of_outcome {error : DecodeError}
    (failure : ImageBank.reading.outcome view = ⟨.error error, handed, last⟩) : error.Placed := by
  rw [ImageBank.reading, outcome_word_bind] at failure
  split at failure
  · rw [outcome_remark_bind] at failure
    have confined : (planarReading (bigEndian (view.unread.take 2)) 0 []).Confined DecodeError.Placed fun _ => True :=
      confined_planarReading (fun _ _ _ => trivial) _ 0 []
    rcases Outcome.cases_of_silent (confined.silent (view.behind 2)) with ⟨_, _, failed⟩ | ⟨planar, middle, came⟩
    · rw [outcome_bind_of_error failed] at failure
      cases failure
      exact confined.allows View.shortage_placed failed
    · obtain ⟨images, rfl, wellFormed⟩ := images_of_planarReading came
      rw [outcome_bind_of_ok came, outcome_bytes_bind] at failure
      split at failure
      · rw [outcome_bind_of_ok (outcome_coloring wellFormed _ _)] at failure
        cases failure
      · cases failure
        exact View.shortage_placed _ _
  · cases failure
    exact View.shortage_placed _ _

end

variable {σ : Type}

theorem ImageBank.placed_of_run (sink : Sink σ) (machine : Machine σ) {error : DecodeError}
    (failed : (ImageBank.reading.run sink machine).1 = .error error) : error.Placed := by
  have confined : ImageBank.reading.Confined DecodeError.InTurn fun _ => True := confined_reading
  obtain ⟨ended, -⟩ := confined.run_eq sink machine
  have failure := ended.symm.trans failed
  rcases Outcome.cases_of_silent (confined.silent machine.view) with ⟨_, last, came⟩ | ⟨bank, last, came⟩
  · rw [came] at failure
    cases failure
    exact placed_of_outcome came
  · rw [came] at failure
    cases failure

theorem ImageBank.run_of_depth (sink : Sink σ) (machine : Machine σ) {count widthWords height depth : UInt16}
    {images : List StoredImage} {rest : List UInt8}
    (unread : machine.unread = bigEndianBytes 2 count.toNat ++ (images.flatMap StoredImage.encode ++
      (bigEndianBytes 2 widthWords.toNat ++ (bigEndianBytes 2 height.toNat ++
        (bigEndianBytes 2 depth.toNat ++ rest)))))
    (further : images.length < count.toNat) (wellFormed : ∀ image ∈ images, image.WellFormed)
    (impossible : depth.toNat < 1 ∨ Palette.maxDepth < depth.toNat) :
    let offset := machine.cursor.position + 2 + (images.flatMap StoredImage.encode).length + 4
    ∃ final, ImageBank.reading.run sink machine =
        (.error (.corruptStream (some offset) (.bankImageDepth depth.toNat images.length)), final) ∧
      final.cursor.position = offset + 2 ∧ final.unread = rest := by
  intro offset
  have came := outcome_imageBank_of_depth machine.place machine.ending widthWords.toNat height.toNat
    count.toNat_lt further wellFormed depth.toNat_lt impossible rest
  rw [← unread] at came
  change ImageBank.reading.outcome machine.view = _ at came
  obtain ⟨final, ran, view, -⟩ := run_of_silent sink machine (congrArg Outcome.handed came)
  rw [came] at ran view
  have position : final.cursor.position = _ := congrArg (fun view : View => view.place.position) view
  refine ⟨final, ran, ?_, congrArg View.unread view⟩
  rw [position, Place.behind_position]
  change machine.cursor.position + _ = machine.cursor.position + 2 + _ + 4 + 2
  omega

/-- The planes of an image are read by the size that their conversion needs, in machine words without overflow. So
a bank never fails in the conversion. It fails at the first depth that is impossible, and looks at nothing behind it.
When it is read, every stored image is there, converted with the palette of the bank. -/
theorem image_sizes_agree (sink : Sink σ) (machine : Machine σ) :
    (∀ widthWords height depth : UInt16, ∃ size, readSize? widthWords height depth = some size ∧
      convertedSize? widthWords height depth = some size ∧
      size.toNat = Raster.planarSize (16 * widthWords.toNat) height.toNat depth.toNat) ∧
    (∀ index image final, (PlanarImage.reading index).run sink machine = (.ok image, final) →
      ∃ stored : StoredImage, stored.WellFormed ∧ machine.unread = stored.encode ++ final.unread ∧
        image = stored.planar ∧
        readSize? (.ofNat stored.widthWords) (.ofNat stored.height) (.ofNat stored.depth) =
          some (.ofNat image.planes.length) ∧
        image.planes.length = Raster.planarSize image.width image.height image.depth) ∧
    (∀ reason, (ImageBank.reading.run sink machine).1 ≠ .error (.corruptStream none reason)) ∧
    (∀ (count widthWords height depth : UInt16) (images : List StoredImage) (rest : List UInt8),
      machine.unread = bigEndianBytes 2 count.toNat ++ (images.flatMap StoredImage.encode ++
        (bigEndianBytes 2 widthWords.toNat ++ (bigEndianBytes 2 height.toNat ++
          (bigEndianBytes 2 depth.toNat ++ rest)))) →
      images.length < count.toNat → (∀ image ∈ images, image.WellFormed) → ¬ (1 ≤ depth ∧ depth ≤ 6) →
      let offset := machine.cursor.position + 2 + (images.flatMap StoredImage.encode).length + 4
      ∃ final, ImageBank.reading.run sink machine =
          (.error (.corruptStream (some offset) (.bankImageDepth depth.toNat images.length)), final) ∧
        final.cursor.position = offset + 2 ∧ final.unread = rest) ∧
    (∀ bank final, ImageBank.reading.run sink machine = (.ok bank, final) →
      ∃ (images : List StoredImage) (palette : List UInt8),
        machine.unread = bigEndianBytes 2 images.length ++ (images.flatMap StoredImage.encode ++
          (palette ++ final.unread)) ∧
        (∀ image ∈ images, image.WellFormed) ∧ palette.length = Palette.size ∧ images.length < 2 ^ 16 ∧
        bank.images.length = images.length ∧ bank.palette = .decode palette ∧
        List.Forall₂ (StoredImage.ReadAs bank.palette) images bank.images) := by
  refine ⟨fun widthWords height depth => ?_, fun index image final success => ?_,
    fun reason failed => ImageBank.placed_of_run sink machine failed,
    fun count widthWords height depth images rest unread further wellFormed impossible => ?_,
    fun bank final success => ?_⟩
  · have fits : _ < 2 ^ 64 := Nat.lt_trans (planes_lt widthWords height depth) (by decide)
    have read := readSize?_eq widthWords height depth
    refine ⟨_, read, (convertedSize?_eq widthWords height depth).trans read, ?_⟩
    rw [UInt64.toNat_ofNat_of_lt' fits, Raster.planarSize_words]
  · obtain ⟨bytes, _, unread, passage, -⟩ := passes_of_run success
    rw [← bind_pure (PlanarImage.reading index), passes_planarImage_bind] at passage
    obtain ⟨stored, _, rfl, wellFormed, done⟩ := passage
    obtain ⟨rfl, -, -, rfl⟩ := passes_pure.mp done
    rw [List.append_nil] at unread
    have planes : stored.planar.planes.length = _ := wellFormed.planes
    exact ⟨stored, wellFormed, unread, rfl, wellFormed.readSize,
      planes.trans (Raster.planarSize_words _ _ _).symm⟩
  · rw [UInt16.le_iff_toNat_le, UInt16.le_iff_toNat_le] at impossible
    change ¬ (1 ≤ depth.toNat ∧ depth.toNat ≤ Palette.maxDepth) at impossible
    exact ImageBank.run_of_depth sink machine unread further wellFormed (by omega)
  · obtain ⟨bytes, _, unread, passage, -⟩ := passes_of_run success
    rw [← bind_pure ImageBank.reading, passes_imageBank_bind] at passage
    obtain ⟨images, palette, _, rfl, fits, wellFormed, filled, done⟩ := passage
    obtain ⟨rfl, -, -, rfl⟩ := passes_pure.mp done
    refine ⟨images, palette, ?_, wellFormed, filled, fits, List.length_map _, rfl, ?_⟩
    · simpa only [List.append_assoc, List.append_nil] using unread
    · rw [List.forall₂_map_right_iff, List.forall₂_same]
      exact fun image _ => image.readAs_colored _

end AmosBasic
