import AmosBasic.Note
import AmosBasic.Png
import AmosBasic.Proofs.Palette
import AmosBasic.Proofs.Raster.Planes
import Mathlib.Data.List.Basic

namespace AmosBasic

namespace Raster

structure WellFormed (raster : Raster) : Prop where
  depth : 1 ≤ raster.depth ∧ raster.depth ≤ Palette.maxDepth
  size : raster.pixels.size = raster.width * raster.height
  pixels : ∀ pixel ∈ raster.pixels, pixel.toNat < 2 ^ raster.depth
  fits : raster.width < 2 ^ 32 ∧ raster.height < 2 ^ 32

theorem WellFormed.withPalette {raster : Raster} (wellFormed : raster.WellFormed) (palette : Palette) :
    (raster.withPalette palette).WellFormed :=
  ⟨wellFormed.depth, wellFormed.size, wellFormed.pixels, wellFormed.fits⟩

theorem wellFormed_of_ofPlanar {width height depth : Nat} {planes : List UInt8} {palette : Palette} {raster : Raster}
    (fits : width < 2 ^ 32 ∧ height < 2 ^ 32)
    (success : ofPlanar width height depth planes palette = .ok raster) : raster.WellFormed := by
  unfold ofPlanar at success
  by_cases refused : depth < 1 ∨ Palette.maxDepth < depth
  · rw [if_pos refused] at success
    cases success
  · rw [if_neg refused] at success
    by_cases short : planes.length < planarSize width height depth
    · rw [if_pos short] at success
      cases success
    · rw [if_neg short] at success
      cases success
      have allowed : 1 ≤ depth ∧ depth ≤ Palette.maxDepth := by omega
      refine ⟨allowed, size_planarPixels .., fun pixel member => ?_, fits⟩
      obtain ⟨x, y, -, -, rfl⟩ := mem_planarPixels member
      exact planarPixel_lt ..

variable {raster : Raster}

theorem row?_eq_none_iff (raster : Raster) (y : Nat) : raster.row? y = none ↔ raster.height ≤ y := by
  unfold row?
  split <;> simp <;> omega

theorem row?_eq_some_iff {y : Nat} {row : List UInt8} : raster.row? y = some row ↔
    y < raster.height ∧ (raster.pixels.extract (y * raster.width) ((y + 1) * raster.width)).toList = row := by
  unfold row?
  by_cases below : y < raster.height
  · simp only [below, if_true, true_and, Option.some.injEq]
  · simp only [below, if_false, false_and, reduceCtorEq]

theorem WellFormed.pixel?_eq_none_iff (wellFormed : raster.WellFormed) (x y : Nat) :
    raster.pixel? x y = none ↔ raster.width ≤ x ∨ raster.height ≤ y := by
  unfold pixel?
  by_cases inside : x < raster.width ∧ y < raster.height
  · have place := place_lt inside.1 inside.2
    rw [← wellFormed.size] at place
    rw [if_pos inside, Array.getElem?_eq_getElem place]
    simp only [reduceCtorEq, false_iff]
    omega
  · rw [if_neg inside]
    simp only [true_iff]
    omega

theorem WellFormed.row_end (wellFormed : raster.WellFormed) {y : Nat} (below : y < raster.height) :
    min ((y + 1) * raster.width) raster.pixels.size = y * raster.width + raster.width := by
  have rows := Nat.mul_le_mul_right raster.width (Nat.succ_le_of_lt below)
  rw [wellFormed.size, Nat.mul_comm raster.width, Nat.min_eq_left rows, Nat.succ_mul]

theorem WellFormed.length_row (wellFormed : raster.WellFormed) {y : Nat} {row : List UInt8}
    (found : raster.row? y = some row) : row.length = raster.width := by
  obtain ⟨below, rfl⟩ := row?_eq_some_iff.mp found
  rw [Array.length_toList, Array.size_extract, wellFormed.row_end below, Nat.add_sub_cancel_left]

theorem WellFormed.pixel?_eq (wellFormed : raster.WellFormed) (x y : Nat) :
    raster.pixel? x y = (raster.row? y).bind fun row => row[x]? := by
  by_cases below : y < raster.height
  · rw [row?_eq_some_iff.mpr ⟨below, rfl⟩, Option.bind_some, Array.getElem?_toList, Array.getElem?_extract,
      wellFormed.row_end below, Nat.add_sub_cancel_left, pixel?]
    simp only [below, and_true]
  · rw [(raster.row?_eq_none_iff y).mpr (Nat.le_of_not_lt below), pixel?]
    simp only [below, and_false, if_false, Option.bind_none]

theorem length_rows (raster : Raster) : raster.rows.length = raster.height := by
  have whole : raster.rows.length = (List.range raster.height).length := by
    rw [rows, List.filterMap_length_eq_length]
    intro y member
    rw [row?_eq_some_iff.mpr ⟨List.mem_range.mp member, rfl⟩]
    rfl
  rw [whole, List.length_range]

theorem mem_pixels_of_mem_rows {row : List UInt8} {pixel : UInt8} (member : row ∈ raster.rows) (among : pixel ∈ row) :
    pixel ∈ raster.pixels := by
  obtain ⟨y, -, found⟩ := List.mem_filterMap.mp member
  obtain ⟨-, rfl⟩ := row?_eq_some_iff.mp found
  rw [Array.toList_extract, List.extract_eq_take_drop] at among
  exact Array.mem_toList_iff.mp (List.mem_of_mem_drop (List.mem_of_mem_take among))

theorem WellFormed.length_of_mem_rows (wellFormed : raster.WellFormed) {row : List UInt8}
    (member : row ∈ raster.rows) : row.length = raster.width := by
  obtain ⟨y, -, found⟩ := List.mem_filterMap.mp member
  exact wellFormed.length_row found

theorem rows_eq_map (raster : Raster) : raster.rows = (List.range raster.height).map fun y =>
    (raster.pixels.toList.drop (y * raster.width)).take raster.width := by
  refine List.filterMap_eq_map_iff_forall_eq_some.mpr fun y member =>
    row?_eq_some_iff.mpr ⟨List.mem_range.mp member, ?_⟩
  rw [Array.toList_extract, List.extract_eq_take_drop, Nat.succ_mul, Nat.add_sub_cancel_left]

theorem WellFormed.flatten_rows (wellFormed : raster.WellFormed) : raster.rows.flatten = raster.pixels.toList := by
  have first (count : Nat) : ((List.range count).map fun y =>
      (raster.pixels.toList.drop (y * raster.width)).take raster.width).flatten =
        raster.pixels.toList.take (count * raster.width) := by
    induction count with
    | zero => simp
    | succ count ih =>
      rw [List.range_succ, List.map_append, List.flatten_append, ih, Nat.succ_mul, List.take_add]
      simp
  rw [rows_eq_map, first, List.take_of_length_le]
  rw [Array.length_toList, wellFormed.size, Nat.mul_comm]

end Raster

structure Png.Image.Shows (image : Png.Image) (raster : Raster) : Prop where
  size : image.width = raster.width ∧ image.height = raster.height
  palette : image.palette = raster.colorTable
  rows : image.rows.length = raster.height ∧ ∀ row ∈ image.rows, row.length = raster.width
  indices : ∀ row ∈ image.rows, ∀ pixel ∈ row, pixel.toNat < image.palette.length

/-- What can be relied on of every raster that is handed over. -/
structure Raster.Sound (raster : Raster) : Prop where
  depth : 1 ≤ raster.depth ∧ raster.depth ≤ 6
  size : raster.pixels.size = raster.width * raster.height
  colors : raster.colorTable.length = 2 ^ raster.depth
  indices : ∀ pixel ∈ raster.pixels, pixel.toNat < raster.colorTable.length
  registers : raster.depth ≠ 6 → raster.colorTable = raster.palette.colors.toList.take (2 ^ raster.depth)
  halfBright : raster.depth = 6 → ∀ register : Fin 32,
    raster.colorTable[register.val]? = raster.palette.get? register ∧
      raster.colorTable[32 + register.val]? = (raster.palette.get? register).map Color.half
  fits : raster.width < 2 ^ 32 ∧ raster.height < 2 ^ 32
  written : (∃ image, Png.ofRaster raster = .ok image) ↔ raster.isEmpty = false
  image : ∀ image, Png.ofRaster raster = .ok image → image.Shows raster
  row : ∀ y, raster.row? y = none ↔ raster.height ≤ y
  pixel : ∀ x y, raster.pixel? x y = none ↔ raster.width ≤ x ∨ raster.height ≤ y
  entry : ∀ x y, raster.pixel? x y = (raster.row? y).bind fun row => row[x]?

namespace Raster.WellFormed

variable {raster : Raster}

theorem indices (wellFormed : raster.WellFormed) :
    ∀ pixel ∈ raster.pixels, pixel.toNat < raster.colorTable.length := by
  intro pixel member
  rw [colorTable, raster.palette.length_colorTable wellFormed.depth]
  exact wellFormed.pixels pixel member

theorem ofRaster_ok_iff (wellFormed : raster.WellFormed) {image : Png.Image} : Png.ofRaster raster = .ok image ↔
    raster.isEmpty = false ∧ ⟨raster.width, raster.height, raster.colorTable, raster.rows⟩ = image := by
  have width : raster.width % 2 ^ 32 = raster.width := Nat.mod_eq_of_lt wellFormed.fits.1
  have height : raster.height % 2 ^ 32 = raster.height := Nat.mod_eq_of_lt wellFormed.fits.2
  simp only [Png.ofRaster, width, height, isEmpty, decide_eq_false_iff_not, not_or]
  by_cases narrow : raster.width = 0
  · simp [narrow]
  · by_cases flat : raster.height = 0 <;> simp [narrow, flat]

theorem written (wellFormed : raster.WellFormed) :
    (∃ image, Png.ofRaster raster = .ok image) ↔ raster.isEmpty = false := by
  constructor
  · rintro ⟨image, made⟩
    exact (wellFormed.ofRaster_ok_iff.mp made).1
  · exact fun something => ⟨_, wellFormed.ofRaster_ok_iff.mpr ⟨something, rfl⟩⟩

theorem image (wellFormed : raster.WellFormed) {image : Png.Image} (made : Png.ofRaster raster = .ok image) :
    image.Shows raster := by
  obtain ⟨-, rfl⟩ := wellFormed.ofRaster_ok_iff.mp made
  refine ⟨⟨rfl, rfl⟩, rfl, ⟨raster.length_rows, fun row => wellFormed.length_of_mem_rows⟩, ?_⟩
  intro row member pixel among
  exact wellFormed.indices pixel (mem_pixels_of_mem_rows member among)

theorem sound (wellFormed : raster.WellFormed) : raster.Sound where
  depth := wellFormed.depth
  size := wellFormed.size
  colors := raster.palette.length_colorTable wellFormed.depth
  indices := wellFormed.indices
  registers := raster.palette.colorTable_registers wellFormed.depth
  halfBright deep register := by
    rw [colorTable, deep]
    exact raster.palette.colorTable_half register
  fits := wellFormed.fits
  written := wellFormed.written
  image _ made := wellFormed.image made
  row := raster.row?_eq_none_iff
  pixel := wellFormed.pixel?_eq_none_iff
  entry := wellFormed.pixel?_eq

end Raster.WellFormed

end AmosBasic
