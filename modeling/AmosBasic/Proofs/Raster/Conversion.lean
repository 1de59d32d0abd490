import AmosBasic.Proofs.Raster

namespace AmosBasic.Raster

/-- The raster shows the planes. The byte of every pixel is there in every plane, and the pixel is the number that its
bits make, the one of the first plane lowest. -/
structure Depicts (raster : Raster) (width height depth : Nat) (planes : List UInt8) (palette : Palette) : Prop where
  size : raster.width = width ∧ raster.height = height
  levels : raster.depth = depth
  colors : raster.palette = palette
  count : raster.pixels.size = width * height
  stored : ∀ x y plane, x < width → y < height → plane < depth →
    planarOffset width height plane x y < planes.length
  pixel : ∀ x y, x < width → y < height → ∃ pixel, raster.pixel? x y = some pixel ∧ pixel.toNat =
    ((List.range depth).map fun plane => 2 ^ plane * (planeBit width height planes plane x y).toNat).sum
  outside : ∀ x y, width ≤ x ∨ height ≤ y → raster.pixel? x y = none

variable {width height depth : Nat} {planes others : List UInt8} {palette : Palette}

theorem planarSize_eq (width height depth : Nat) :
    planarSize width height depth = depth * ((width + 7) / 8) * height := by
  rw [planarSize, planeSize, bytesPerRow, Nat.mul_comm, Nat.mul_assoc]

theorem ofPlanar_of_depth (planes : List UInt8) (palette : Palette) (refused : ¬ (1 ≤ depth ∧ depth ≤ 6)) :
    ofPlanar width height depth planes palette = .error (.corruptStream none (.imageDepth depth)) := by
  have other : depth < 1 ∨ Palette.maxDepth < depth := by
    unfold Palette.maxDepth
    omega
  rw [ofPlanar, if_pos other]

theorem not_refused (allowed : 1 ≤ depth ∧ depth ≤ 6) : ¬ (depth < 1 ∨ Palette.maxDepth < depth) := by
  unfold Palette.maxDepth
  omega

theorem ofPlanar_of_short (palette : Palette) (allowed : 1 ≤ depth ∧ depth ≤ 6)
    (short : planes.length < planarSize width height depth) :
    ofPlanar width height depth planes palette =
      .error (.corruptStream none (.shortPlanes width height depth (planarSize width height depth) planes.length)) := by
  rw [ofPlanar, if_neg (not_refused allowed), if_pos short]

theorem ofPlanar_of_enough (palette : Palette) (allowed : 1 ≤ depth ∧ depth ≤ 6)
    (enough : planarSize width height depth ≤ planes.length) :
    ofPlanar width height depth planes palette =
      .ok ⟨width, height, depth, planarPixels width height depth planes, palette⟩ := by
  rw [ofPlanar, if_neg (not_refused allowed), if_neg (Nat.not_lt.mpr enough)]

theorem toNat_planarPixel (allowed : depth ≤ 8) (planes : List UInt8) (x y : Nat) :
    (planarPixel width height depth planes x y).toNat =
      ((List.range depth).map fun plane => 2 ^ plane * (planeBit width height planes plane x y).toNat).sum := by
  rw [planarPixel, UInt8.toNat_ofNat']
  exact Nat.mod_eq_of_lt (Nat.lt_of_lt_of_le (sum_bits depth).1 (Nat.pow_le_pow_right Nat.two_pos allowed))

theorem depicts_planarPixels (palette : Palette) (allowed : 1 ≤ depth ∧ depth ≤ 6)
    (enough : planarSize width height depth ≤ planes.length) :
    Depicts ⟨width, height, depth, planarPixels width height depth planes, palette⟩ width height depth planes
      palette where
  size := ⟨rfl, rfl⟩
  levels := rfl
  colors := rfl
  count := size_planarPixels ..
  stored _ _ _ inside below among := Nat.lt_of_lt_of_le (planarOffset_lt inside below among) enough
  pixel x y inside below := by
    refine ⟨planarPixel width height depth planes x y, ?_, toNat_planarPixel (by omega) planes x y⟩
    rw [pixel?, if_pos ⟨inside, below⟩, getElem?_planarPixels inside below]
  outside x y away := by
    have other : ¬ (x < width ∧ y < height) := by omega
    rw [pixel?, if_neg other]

theorem planarPixels_congr (same : ∀ x y plane, x < width → y < height → plane < depth →
      planeBit width height others plane x y = planeBit width height planes plane x y) :
    planarPixels width height depth others = planarPixels width height depth planes := by
  refine Array.ext (by rw [size_planarPixels, size_planarPixels]) fun place here there => ?_
  have among := here
  rw [size_planarPixels] at among
  obtain ⟨inside, below, split⟩ := place_split among
  have pixels : planarPixel width height depth others (place % width) (place / width) =
      planarPixel width height depth planes (place % width) (place / width) := by
    unfold planarPixel
    congr 2
    refine List.map_congr_left fun plane member => ?_
    rw [same _ _ plane inside below (List.mem_range.mp member)]
  have one : (planarPixels width height depth others)[_]? = _ := getElem?_planarPixels inside below others
  have other : (planarPixels width height depth planes)[_]? = _ := getElem?_planarPixels inside below planes
  rw [split] at one other
  rw [pixels, ← other, Array.getElem?_eq_getElem here, Array.getElem?_eq_getElem there] at one
  exact Option.some_inj.mp one

/-- A conversion succeeds if and only if there are one to six planes, and enough bytes for them. Of several reasons to
fail the depth comes first. Only the bits of the pixels count, not what fills up a row nor what is left over. -/
theorem ofPlanar_depicts (width height depth : Nat) (planes : List UInt8) (palette : Palette) :
    let needed := depth * ((width + 7) / 8) * height
    (¬ (1 ≤ depth ∧ depth ≤ 6) →
      ofPlanar width height depth planes palette = .error (.corruptStream none (.imageDepth depth))) ∧
    (1 ≤ depth ∧ depth ≤ 6 → planes.length < needed → ofPlanar width height depth planes palette =
      .error (.corruptStream none (.shortPlanes width height depth needed planes.length))) ∧
    (1 ≤ depth ∧ depth ≤ 6 → needed ≤ planes.length → ∃ raster,
      ofPlanar width height depth planes palette = .ok raster ∧
        raster.Depicts width height depth planes palette) ∧
    ∀ others : List UInt8, needed ≤ planes.length → needed ≤ others.length →
      (∀ x y plane, x < width → y < height → plane < depth →
        planeBit width height others plane x y = planeBit width height planes plane x y) →
      ofPlanar width height depth others palette = ofPlanar width height depth planes palette := by
  intro needed
  have whole : planarSize width height depth = needed := planarSize_eq width height depth
  refine ⟨ofPlanar_of_depth planes palette, ?_, ?_, ?_⟩
  · intro allowed short
    rw [← whole] at short ⊢
    exact ofPlanar_of_short palette allowed short
  · intro allowed enough
    rw [← whole] at enough
    exact ⟨_, ofPlanar_of_enough palette allowed enough, depicts_planarPixels palette allowed enough⟩
  · intro others enough othersEnough same
    rw [← whole] at enough othersEnough
    by_cases allowed : 1 ≤ depth ∧ depth ≤ 6
    · rw [ofPlanar_of_enough palette allowed othersEnough, ofPlanar_of_enough palette allowed enough,
        planarPixels_congr same]
    · rw [ofPlanar_of_depth others palette allowed, ofPlanar_of_depth planes palette allowed]

example : (ofPlanar 9 1 2 [0x81, 0x80, 0xC0, 0x7F, 0xFF] .grayGradient).toOption.map Raster.rows =
    some [[3, 2, 0, 0, 0, 0, 0, 1, 1]] := by decide

end AmosBasic.Raster
