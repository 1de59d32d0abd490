import AmosBasic.Proofs.Raster.Conversion
import Mathlib.Data.Set.Function

namespace AmosBasic.Raster

def packedByte (width : Nat) (pixels : Array UInt8) (plane y group : Nat) : UInt8 :=
  UInt8.ofNat ((List.range 8).map fun place =>
    2 ^ place * ((pixels.getD (y * width + (8 * group + (7 - place))) 0).toNat.testBit plane).toNat).sum

def planarBytes (width height depth : Nat) (pixels : Array UInt8) : List UInt8 :=
  (List.range depth).flatMap fun plane =>
    (List.range height).flatMap fun y => (List.range (width / 8)).map (packedByte width pixels plane y)

structure Grid (width height depth : Nat) (pixels : Array UInt8) : Prop where
  size : pixels.size = width * height
  small : ∀ pixel ∈ pixels, pixel.toNat < 2 ^ depth

section

variable {α : Type} {f : Nat → List α} {count size : Nat}

theorem length_flatMap_range (uniform : ∀ index < count, (f index).length = size) :
    ((List.range count).flatMap f).length = count * size := by
  induction count with
  | zero => simp
  | succ count ih =>
    rw [List.range_succ, List.flatMap_append, List.length_append, ih fun index below => uniform index (by omega),
      List.flatMap_singleton, uniform count (Nat.lt_succ_self count), Nat.succ_mul]

theorem getElem?_flatMap_range {index place : Nat} (uniform : ∀ index < count, (f index).length = size)
    (among : index < count) (within : place < size) :
    ((List.range count).flatMap f)[index * size + place]? = (f index)[place]? := by
  induction count with
  | zero => cases among
  | succ count ih =>
    have before : ∀ index < count, (f index).length = size := fun index below => uniform index (by omega)
    have front := length_flatMap_range before
    rw [List.range_succ, List.flatMap_append, List.flatMap_singleton]
    rcases Nat.lt_succ_iff_lt_or_eq.mp among with earlier | rfl
    · have inside : index * size + place < count * size := by
        have rows := Nat.mul_le_mul_right size (Nat.succ_le_of_lt earlier)
        rw [Nat.succ_mul] at rows
        omega
      rw [List.getElem?_append_left (by omega), ih before earlier]
    · rw [List.getElem?_append_right (by omega), front, Nat.add_sub_cancel_left]

end

variable {width height depth : Nat} {planes : List UInt8} {pixels : Array UInt8}

theorem length_planarBytes (width height depth : Nat) (pixels : Array UInt8) :
    (planarBytes width height depth pixels).length = depth * (width / 8) * height := by
  have row : ∀ plane y, ((List.range (width / 8)).map (packedByte width pixels plane y)).length = width / 8 := by
    simp
  rw [planarBytes, length_flatMap_range fun plane _ => length_flatMap_range fun y _ => row plane y, Nat.mul_assoc,
    Nat.mul_comm height]

theorem getElem?_planarBytes {plane y group : Nat} (among : plane < depth) (below : y < height)
    (within : group < width / 8) (pixels : Array UInt8) :
    (planarBytes width height depth pixels)[plane * (height * (width / 8)) + (y * (width / 8) + group)]? =
      some (packedByte width pixels plane y group) := by
  have row : ∀ plane y, ((List.range (width / 8)).map (packedByte width pixels plane y)).length = width / 8 := by
    simp
  rw [planarBytes, getElem?_flatMap_range (fun plane _ => length_flatMap_range fun y _ => row plane y) among
      (by rw [Nat.mul_comm height]; exact place_lt within below),
    getElem?_flatMap_range (fun y _ => row plane y) below within, List.getElem?_map, List.getElem?_range within]
  rfl

theorem testBit_packedByte {place : Nat} (small : place < 8) (pixels : Array UInt8) (plane y group : Nat) :
    (packedByte width pixels plane y group).toNat.testBit place =
      (pixels.getD (y * width + (8 * group + (7 - place))) 0).toNat.testBit plane := by
  rw [packedByte, UInt8.toNat_ofNat', Nat.testBit_mod_two_pow, (sum_bits 8).2]
  simp [small]

theorem planarOffset_of_whole (whole : width % 8 = 0) (plane x y : Nat) : planarOffset width height plane x y =
    plane * (height * (width / 8)) + (y * (width / 8) + x / 8) := by
  have row : (width + 7) / 8 = width / 8 := by omega
  rw [planarOffset, row, Nat.mul_assoc, Nat.mul_comm (width / 8), Nat.add_assoc]

theorem planeBit_planarBytes (whole : width % 8 = 0) {plane x y : Nat} (inside : x < width) (below : y < height)
    (among : plane < depth) (pixels : Array UInt8) :
    planeBit width height (planarBytes width height depth pixels) plane x y =
      (pixels.getD (y * width + x) 0).toNat.testBit plane := by
  have column : 8 * (x / 8) + (7 - (7 - x % 8)) = x := by omega
  rw [planeBit, planarOffset_of_whole whole, List.getD_eq_getElem?_getD,
    getElem?_planarBytes among below (by omega), Option.getD_some, testBit_packedByte (by omega), column]

theorem grid_planarPixels (width height depth : Nat) (planes : List UInt8) :
    Grid width height depth (planarPixels width height depth planes) where
  size := size_planarPixels ..
  small pixel member := by
    obtain ⟨x, y, -, -, rfl⟩ := mem_planarPixels member
    exact planarPixel_lt ..

theorem planarPixels_planarBytes (whole : width % 8 = 0) (grid : Grid width height depth pixels) :
    planarPixels width height depth (planarBytes width height depth pixels) = pixels := by
  refine Array.ext (by rw [size_planarPixels, grid.size]) fun place here there => ?_
  have among := there
  rw [grid.size] at among
  obtain ⟨inside, below, split⟩ := place_split among
  have found : (planarPixels width height depth (planarBytes width height depth pixels))[_]? = _ :=
    getElem?_planarPixels inside below _
  rw [split, Array.getElem?_eq_getElem here] at found
  rw [Option.some_inj.mp found]
  have pixel : pixels.getD place 0 = pixels[place] := by
    rw [Array.getD_eq_getD_getElem?, Array.getElem?_eq_getElem there, Option.getD_some]
  refine eq_of_testBits fun bit small => ?_
  rw [testBit_planarPixel small]
  by_cases stored : bit < depth
  · rw [planeBit_planarBytes whole inside below stored, split, pixel]
    simp only [stored, true_and]
  · -- There is no plane for the bit, and an index of the grid does not have it.
    have high := grid.small _ (Array.getElem_mem there)
    have clear := Nat.testBit_lt_two_pow
      (Nat.lt_of_lt_of_le high (Nat.pow_le_pow_right Nat.two_pos (Nat.le_of_not_lt stored)))
    simp [stored, clear]

theorem packedByte_planarPixels (whole : width % 8 = 0) (small : depth ≤ 8) {plane y group : Nat}
    (among : plane < depth) (below : y < height) (within : group < width / 8) (planes : List UInt8) :
    packedByte width (planarPixels width height depth planes) plane y group =
      planes.getD (plane * (height * (width / 8)) + (y * (width / 8) + group)) 0 := by
  refine eq_of_testBits fun place first => ?_
  have inside : 8 * group + (7 - place) < width := by omega
  have byte : (8 * group + (7 - place)) / 8 = group := by omega
  have bit : 7 - (8 * group + (7 - place)) % 8 = place := by omega
  have lit : HasBit (planarPixels width height depth planes) _ plane ↔ _ :=
    planarPixels_hasBit inside below (by omega) planes
  rw [HasBit] at lit
  rw [testBit_packedByte first, lit, planeBit, planarOffset_of_whole whole, byte, bit]
  simp only [among, true_and]

theorem planarBytes_planarPixels (whole : width % 8 = 0) (small : depth ≤ 8)
    (filled : planes.length = depth * (width / 8) * height) :
    planarBytes width height depth (planarPixels width height depth planes) = planes := by
  have sizes := (length_planarBytes width height depth (planarPixels width height depth planes)).trans filled.symm
  refine List.ext_getElem sizes fun index here there => ?_
  have size : planes.length = height * (width / 8) * depth := by
    rw [filled, Nat.mul_comm height, Nat.mul_comm _ depth, Nat.mul_assoc]
  obtain ⟨inPlane, among, split⟩ := place_split (size ▸ there)
  rw [Nat.mul_comm height] at inPlane
  obtain ⟨within, below, rows⟩ := place_split inPlane
  rw [Nat.mul_comm (width / 8)] at within below rows
  have found := getElem?_planarBytes among below within (planarPixels width height depth planes)
  rw [packedByte_planarPixels whole small among below within, rows, split, List.getElem?_eq_getElem here,
    List.getD_eq_getElem?_getD, List.getElem?_eq_getElem there] at found
  exact Option.some_inj.mp found

/-- For one to six planes, and rows of whole bytes, the conversion is one to one between the buffers that are just long
enough and the grids of indices that have a bit for every plane. It loses nothing: the planes of the pixels are the
buffer, and the pixels of the planes are the grid. -/
theorem planarPixels_bijective {width depth : Nat} (height : Nat) (palette : Palette) (whole : width % 8 = 0)
    (allowed : 1 ≤ depth ∧ depth ≤ 6) :
    let buffers := {planes : List UInt8 | planes.length = depth * (width / 8) * height}
    let grids := {pixels : Array UInt8 | Grid width height depth pixels}
    (∀ planes ∈ buffers, ofPlanar width height depth planes palette =
      .ok ⟨width, height, depth, planarPixels width height depth planes, palette⟩) ∧
    Set.BijOn (planarPixels width height depth) buffers grids ∧
    (∀ planes ∈ buffers, planarBytes width height depth (planarPixels width height depth planes) = planes) ∧
    ∀ pixels ∈ grids, planarPixels width height depth (planarBytes width height depth pixels) = pixels := by
  intro buffers grids
  have back : ∀ planes ∈ buffers, planarBytes width height depth (planarPixels width height depth planes) = planes :=
    fun planes filled => planarBytes_planarPixels whole (by omega) filled
  have forth : ∀ pixels ∈ grids, planarPixels width height depth (planarBytes width height depth pixels) = pixels :=
    fun pixels grid => planarPixels_planarBytes whole grid
  refine ⟨fun planes filled => ofPlanar_of_enough palette allowed ?_, ?_, back, forth⟩
  · have row : (width + 7) / 8 = width / 8 := by omega
    rw [planarSize_eq, row]
    exact Nat.le_of_eq (Eq.symm filled)
  · refine Set.InvOn.bijOn ⟨back, forth⟩ ?_ ?_
    · exact fun planes _ => grid_planarPixels width height depth planes
    · exact fun pixels _ => length_planarBytes width height depth pixels

theorem planarPixels_bijective_two_planes :
    let planes : List UInt8 := [0x80, 0x01, 0xC0, 0x00]
    let pixels : Array UInt8 := #[3, 2, 0, 0, 0, 0, 0, 0, 0, 0, 0, 0, 0, 0, 0, 1]
    8 % 8 = 0 ∧ 1 ≤ 2 ∧ 2 ≤ 6 ∧ planes.length = 2 * (8 / 8) * 2 ∧ Grid 8 2 2 pixels ∧
      ofPlanar 8 2 2 planes .grayGradient = .ok ⟨8, 2, 2, pixels, .grayGradient⟩ ∧
      planarBytes 8 2 2 pixels = planes ∧
      Set.BijOn (planarPixels 8 2 2) {planes | planes.length = 2 * (8 / 8) * 2} {pixels | Grid 8 2 2 pixels} := by
  intro planes pixels
  obtain ⟨converts, bijective, back, -⟩ := planarPixels_bijective 2 .grayGradient (by decide : 8 % 8 = 0)
    (by decide : 1 ≤ 2 ∧ 2 ≤ 6)
  have filled : planes.length = 2 * (8 / 8) * 2 := rfl
  have same : planarPixels 8 2 2 planes = pixels := by decide
  refine ⟨by decide, by decide, by decide, filled, ?_, ?_, ?_, bijective⟩
  · exact same ▸ grid_planarPixels 8 2 2 planes
  · exact same ▸ converts planes filled
  · exact same ▸ back planes filled

end AmosBasic.Raster
