import Mathlib.Algebra.Order.Ring.Nat
import AmosBasic.Raster

namespace AmosBasic.Raster

theorem getElem?_pieces (size count : Nat) (bytes : List UInt8) (index : Nat) :
    (pieces size count bytes)[index]? =
      if index < count then some ((bytes.drop (index * size)).take size) else none := by
  induction count generalizing bytes index with
  | zero => rfl
  | succ count ih =>
    cases index with
    | zero => simp [pieces]
    | succ index =>
      have behind : size + index * size = (index + 1) * size := by rw [Nat.succ_mul, Nat.add_comm]
      rw [pieces, List.getElem?_cons_succ, ih, List.drop_drop, behind]
      simp only [Nat.add_lt_add_iff_right]

theorem getElem?_bits (bytes : List UInt8) (x : Nat) :
    (bits bytes)[x]? = bytes[x / 8]?.map fun byte => byte.toNat.testBit (7 - x % 8) := by
  induction bytes generalizing x with
  | nil => rfl
  | cons byte bytes ih =>
    have whole : bits (byte :: bytes) =
        ((List.range 8).map fun place => byte.toNat.testBit (7 - place)) ++ bits bytes := List.flatMap_cons
    have eight : ((List.range 8).map fun place => byte.toNat.testBit (7 - place)).length = 8 := by simp
    rw [whole]
    by_cases first : x < 8
    · rw [List.getElem?_append_left (by omega), List.getElem?_map, List.getElem?_range first, Nat.div_eq_of_lt first,
        Nat.mod_eq_of_lt first]
      rfl
    · have later : x / 8 = (x - 8) / 8 + 1 := by omega
      have same : (x - 8) % 8 = x % 8 := by omega
      rw [List.getElem?_append_right (by omega), eight, ih, later, List.getElem?_cons_succ, same]

def HasBit (pixels : Array UInt8) (place bit : Nat) : Prop :=
  (pixels.getD place 0).toNat.testBit bit = true

/-- A change of the pixels that sets a bit of the pixel at a place if it is hit, and never clears it. -/
def Sets (size place bit : Nat) (hit : Prop) (change : Array UInt8 → Array UInt8) : Prop :=
  ∀ pixels : Array UInt8, pixels.size = size → (HasBit (change pixels) place bit ↔ HasBit pixels place bit ∨ hit)

section

variable {α : Type} {step : Array UInt8 → α → Array UInt8} {items : List α} {size place bit : Nat} {mask : UInt8}

theorem size_foldl (kept : ∀ pixels item, (step pixels item).size = pixels.size) (items : List α)
    (pixels : Array UInt8) : (items.foldl step pixels).size = pixels.size := by
  refine List.foldlRecOn (motive := fun later => later.size = pixels.size) items step rfl ?_
  exact fun later sized item _ => (kept later item).trans sized

theorem size_addBit (mask : UInt8) (pixels : Array UInt8) (item : Bool × Nat) :
    (if item.1 then pixels.modify item.2 (· ||| mask) else pixels).size = pixels.size := by
  split
  · exact Array.size_modify
  · rfl

theorem size_addRow (mask : UInt8) (start : Nat) (row : List Bool) (pixels : Array UInt8) :
    (addRow mask start row pixels).size = pixels.size :=
  size_foldl (size_addBit mask) _ pixels

theorem size_addPlane (width height plane : Nat) (bytes : List UInt8) (pixels : Array UInt8) :
    (addPlane width height plane bytes pixels).size = pixels.size :=
  size_foldl (fun _ _ => size_addRow ..) _ pixels

theorem size_planarPixels (width height depth : Nat) (planes : List UInt8) :
    (planarPixels width height depth planes).size = width * height :=
  (size_foldl (fun _ _ => size_addPlane ..) _ _).trans Array.size_replicate

theorem Sets.congr {hit other : Prop} {change : Array UInt8 → Array UInt8} (sets : Sets size place bit hit change)
    (same : hit ↔ other) : Sets size place bit other change := by
  rwa [← propext same]

theorem Sets.foldl {hit : α → Prop} (kept : ∀ pixels item, (step pixels item).size = pixels.size)
    (each : ∀ item ∈ items, Sets size place bit (hit item) (step · item)) :
    Sets size place bit (∃ item ∈ items, hit item) fun pixels => items.foldl step pixels := by
  induction items with
  | nil =>
    intro pixels _
    simp
  | cons item items ih =>
    obtain ⟨first, others⟩ := List.forall_mem_cons.mp each
    intro pixels sized
    have here := first pixels sized
    have there := ih others (step pixels item) ((kept pixels item).trans sized)
    simp only [List.foldl_cons, there, here, List.mem_cons, or_and_right, exists_or, exists_eq_left, or_assoc]

theorem sets_modify (inside : place < size) (index : Nat) :
    Sets size place bit (index = place ∧ mask.toNat.testBit bit = true) (·.modify index (· ||| mask)) := by
  intro pixels sized
  have there : place < pixels.size := by omega
  simp only [HasBit, Array.getD_eq_getD_getElem?, Array.getElem?_modify, Array.getElem?_eq_getElem there]
  by_cases same : index = place
  · simp [same, Nat.testBit_or]
  · simp [same]

theorem addRow_sets (inside : place < size) (start : Nat) (row : List Bool) :
    Sets size place bit (start ≤ place ∧ row[place - start]? = some true ∧ mask.toNat.testBit bit = true)
      (addRow mask start row) := by
  have each : ∀ item ∈ row.zipIdx start,
      Sets size place bit (item.1 = true ∧ item.2 = place ∧ mask.toNat.testBit bit = true)
        fun pixels => if item.1 then pixels.modify item.2 (· ||| mask) else pixels := by
    rintro ⟨_ | _, index⟩ -
    · exact fun pixels _ => by simp
    · exact (sets_modify inside index).congr (by simp)
  refine (Sets.foldl (size_addBit mask) each).congr ?_
  constructor
  · rintro ⟨⟨_, _⟩, member, rfl, rfl, masked⟩
    obtain ⟨below, found⟩ := List.mk_mem_zipIdx_iff_le_and_getElem?_sub.mp member
    exact ⟨below, found, masked⟩
  · rintro ⟨below, found, masked⟩
    exact ⟨(true, place), List.mk_mem_zipIdx_iff_le_and_getElem?_sub.mpr ⟨below, found⟩, rfl, rfl, masked⟩

end

def planarOffset (width height plane x y : Nat) : Nat :=
  plane * ((width + 7) / 8) * height + y * ((width + 7) / 8) + x / 8

theorem planarOffset_eq (width height plane x y : Nat) : planarOffset width height plane x y =
    plane * planeSize width height + (y * bytesPerRow width + x / 8) := by
  rw [planarOffset, planeSize, bytesPerRow, Nat.mul_assoc, Nat.add_assoc]

def planeBit (width height : Nat) (planes : List UInt8) (plane x y : Nat) : Bool :=
  (planes.getD (planarOffset width height plane x y) 0).toNat.testBit (7 - x % 8)

section

variable {width height depth plane x y bit : Nat}

theorem place_lt (inside : x < width) (below : y < height) : y * width + x < width * height := by
  have rows := Nat.mul_le_mul_right width (Nat.succ_le_of_lt below)
  rw [Nat.succ_mul, Nat.mul_comm height] at rows
  omega

theorem addRow_sets_at {size : Nat} (bit : Nat) (mask : UInt8) (inside : x < width) (fits : y * width + x < size)
    (row : List Bool) (index : Nat) :
    Sets size (y * width + x) bit (index = y ∧ row[x]? = some true ∧ mask.toNat.testBit bit = true)
      (addRow mask (index * width) (row.take width)) := by
  refine (addRow_sets fits _ _).congr ?_
  rcases Nat.lt_trichotomy index y with before | rfl | behind
  · have rows := Nat.mul_le_mul_right width (Nat.succ_le_of_lt before)
    rw [Nat.succ_mul] at rows
    have outside : (row.take width)[y * width + x - index * width]? = none :=
      List.getElem?_eq_none (Nat.le_trans (List.length_take_le ..) (by omega))
    simp [outside, Nat.ne_of_lt before]
  · simp [inside]
  · have rows := Nat.mul_le_mul_right width (Nat.succ_le_of_lt behind)
    rw [Nat.succ_mul] at rows
    have apart : ¬ index * width ≤ y * width + x := by omega
    simp [apart, Nat.ne_of_gt behind]

theorem testBit_mask (small : bit < 8) : (UInt8.ofNat (2 ^ plane)).toNat.testBit bit = true ↔ plane = bit := by
  rw [UInt8.toNat_ofNat', Nat.testBit_mod_two_pow, Nat.testBit_two_pow]
  simp [small]

theorem getElem?_row (inside : x < width) (bytes : List UInt8) :
    (bits ((bytes.drop (y * bytesPerRow width)).take (bytesPerRow width)))[x]? =
      bytes[y * bytesPerRow width + x / 8]?.map fun byte => byte.toNat.testBit (7 - x % 8) := by
  have within : x / 8 < bytesPerRow width := by
    unfold bytesPerRow
    omega
  rw [getElem?_bits, List.getElem?_take_of_lt within, List.getElem?_drop]

theorem addPlane_sets (plane : Nat) (inside : x < width) (below : y < height) (small : bit < 8) (bytes : List UInt8) :
    Sets (width * height) (y * width + x) bit
      (plane = bit ∧ (bytes[y * bytesPerRow width + x / 8]?.map fun byte => byte.toNat.testBit (7 - x % 8)) = some true)
      (addPlane width height plane bytes) := by
  have fits := place_lt inside below
  have each : ∀ item ∈ (pieces (bytesPerRow width) height bytes).zipIdx, _ := fun item _ =>
    addRow_sets_at bit (UInt8.ofNat (2 ^ plane)) inside fits (bits item.1) item.2
  refine (Sets.foldl (fun _ _ => size_addRow ..) each).congr ?_
  rw [← getElem?_row inside bytes]
  simp only [testBit_mask small]
  constructor
  · rintro ⟨⟨row, _⟩, member, rfl, lit, rfl⟩
    have found := List.mk_mem_zipIdx_iff_getElem?.mp member
    rw [getElem?_pieces, if_pos below] at found
    cases found
    exact ⟨rfl, lit⟩
  · rintro ⟨rfl, lit⟩
    refine ⟨(_, y), List.mk_mem_zipIdx_iff_getElem?.mpr ?_, rfl, lit, rfl⟩
    rw [getElem?_pieces, if_pos below]

theorem byte_lt_planeSize (inside : x < width) (below : y < height) :
    y * bytesPerRow width + x / 8 < planeSize width height := by
  have within : x / 8 < bytesPerRow width := by
    unfold bytesPerRow
    omega
  exact place_lt within below

theorem planarOffset_lt (inside : x < width) (below : y < height) (among : plane < depth) :
    planarOffset width height plane x y < planarSize width height depth := by
  rw [planarOffset_eq]
  exact place_lt (byte_lt_planeSize inside below) among

theorem planeBit_iff {planes : List UInt8} : planeBit width height planes plane x y = true ↔
    (planes[planarOffset width height plane x y]?.map fun byte => byte.toNat.testBit (7 - x % 8)) = some true := by
  rw [planeBit, List.getD_eq_getElem?_getD]
  cases planes[planarOffset width height plane x y]? <;> simp

/-- The bits of a pixel are those that the planes hold for it. -/
theorem planarPixels_hasBit (inside : x < width) (below : y < height) (small : bit < 8) (planes : List UInt8) :
    HasBit (planarPixels width height depth planes) (y * width + x) bit ↔
      bit < depth ∧ planeBit width height planes bit x y = true := by
  have each : ∀ item ∈ (pieces (planeSize width height) depth planes).zipIdx, _ := fun item _ =>
    addPlane_sets item.2 inside below small item.1
  have sets := Sets.foldl (fun _ _ => size_addPlane ..) each (Array.replicate (width * height) 0) Array.size_replicate
  have clear : ¬ HasBit (Array.replicate (width * height) 0) (y * width + x) bit := by
    simp [HasBit, place_lt inside below]
  refine sets.trans ?_
  simp only [clear, false_or]
  have within := byte_lt_planeSize inside below
  have byte : ∀ plane, ((planes.drop (plane * planeSize width height)).take (planeSize width height))[
      y * bytesPerRow width + x / 8]? = planes[planarOffset width height plane x y]? := by
    intro plane
    rw [List.getElem?_take_of_lt within, List.getElem?_drop, planarOffset_eq]
  rw [planeBit_iff, ← byte bit]
  constructor
  · rintro ⟨⟨bytes, _⟩, member, rfl, lit⟩
    have found := List.mk_mem_zipIdx_iff_getElem?.mp member
    rw [getElem?_pieces] at found
    split at found
    · rename_i among
      cases found
      exact ⟨among, lit⟩
    · cases found
  · rintro ⟨among, lit⟩
    refine ⟨(_, bit), List.mk_mem_zipIdx_iff_getElem?.mpr ?_, rfl, lit⟩
    rw [getElem?_pieces, if_pos among]

theorem sum_bits {bits : Nat → Bool} (count : Nat) :
    ((List.range count).map fun place => 2 ^ place * (bits place).toNat).sum < 2 ^ count ∧
      ∀ place, ((List.range count).map fun place => 2 ^ place * (bits place).toNat).sum.testBit place =
        (decide (place < count) && bits place) := by
  induction count with
  | zero => simp
  | succ count ih =>
    obtain ⟨small, ih⟩ := ih
    have sum : ((List.range (count + 1)).map fun place => 2 ^ place * (bits place).toNat).sum =
        2 ^ count * (bits count).toNat + ((List.range count).map fun place => 2 ^ place * (bits place).toNat).sum := by
      rw [List.range_succ, List.map_append, List.sum_append, List.map_singleton, List.sum_singleton, Nat.add_comm]
    constructor
    · have top := Nat.mul_le_mul_left (2 ^ count) (Bool.toNat_le (bits count))
      rw [sum, Nat.pow_succ]
      omega
    · intro place
      rw [sum, Nat.testBit_two_pow_mul_add _ small, ih]
      by_cases lower : place < count
      · simp [lower, Nat.lt_succ_of_lt lower]
      · by_cases here : place = count
        · subst here
          cases bits place <;> simp
        · have above : ¬ place < count + 1 := by omega
          have high : (bits count).toNat < 2 ^ (place - count) :=
            Nat.lt_of_le_of_lt (Bool.toNat_le _) (Nat.one_lt_two_pow (by omega))
          simp [lower, above, Nat.testBit_lt_two_pow high]

def planarPixel (width height depth : Nat) (planes : List UInt8) (x y : Nat) : UInt8 :=
  UInt8.ofNat ((List.range depth).map fun plane => 2 ^ plane * (planeBit width height planes plane x y).toNat).sum

theorem planarPixel_lt (width height depth : Nat) (planes : List UInt8) (x y : Nat) :
    (planarPixel width height depth planes x y).toNat < 2 ^ depth := by
  rw [planarPixel, UInt8.toNat_ofNat']
  exact Nat.lt_of_le_of_lt (Nat.mod_le _ _) (sum_bits depth).1

theorem testBit_planarPixel (small : bit < 8) (planes : List UInt8) :
    (planarPixel width height depth planes x y).toNat.testBit bit = true ↔
      bit < depth ∧ planeBit width height planes bit x y = true := by
  rw [planarPixel, UInt8.toNat_ofNat', Nat.testBit_mod_two_pow, (sum_bits depth).2]
  simp [small]

theorem eq_of_testBits {one other : UInt8}
    (same : ∀ bit < 8, one.toNat.testBit bit = true ↔ other.toNat.testBit bit = true) : one = other := by
  apply UInt8.toNat_inj.mp
  apply Nat.eq_of_testBit_eq
  intro bit
  by_cases small : bit < 8
  · exact Bool.eq_iff_iff.mpr (same bit small)
  · have high : ∀ byte : UInt8, byte.toNat.testBit bit = false := fun byte =>
      Nat.testBit_lt_two_pow (Nat.lt_of_lt_of_le byte.toNat_lt (Nat.pow_le_pow_right (by decide) (by omega)))
    rw [high one, high other]

theorem getElem?_planarPixels (inside : x < width) (below : y < height) (planes : List UInt8) :
    (planarPixels width height depth planes)[y * width + x]? = some (planarPixel width height depth planes x y) := by
  have place := place_lt inside below
  rw [← size_planarPixels width height depth planes] at place
  rw [Array.getElem?_eq_getElem place]
  refine congrArg some (eq_of_testBits fun bit small => ?_)
  have lit : HasBit (planarPixels width height depth planes) _ bit ↔ _ := planarPixels_hasBit inside below small planes
  rw [HasBit, Array.getD_eq_getD_getElem?, Array.getElem?_eq_getElem place] at lit
  rw [testBit_planarPixel small]
  exact lit

theorem place_split {place : Nat} (among : place < width * height) :
    place % width < width ∧ place / width < height ∧ place / width * width + place % width = place := by
  have wide : 0 < width := Nat.pos_of_mul_pos_right (Nat.lt_of_le_of_lt (Nat.zero_le _) among)
  refine ⟨Nat.mod_lt _ wide, Nat.div_lt_of_lt_mul among, ?_⟩
  rw [Nat.mul_comm]
  exact Nat.div_add_mod place width

theorem mem_planarPixels {planes : List UInt8} {pixel : UInt8}
    (member : pixel ∈ planarPixels width height depth planes) :
    ∃ x y, x < width ∧ y < height ∧ pixel = planarPixel width height depth planes x y := by
  obtain ⟨place, among, rfl⟩ := Array.mem_iff_getElem.mp member
  rw [size_planarPixels] at among
  obtain ⟨inside, below, same⟩ := place_split among
  refine ⟨place % width, place / width, inside, below, ?_⟩
  have found : (planarPixels width height depth planes)[_]? = _ := getElem?_planarPixels inside below planes
  rw [same] at found
  rw [← Option.some_inj, ← found, Array.getElem?_eq_getElem]

end

end AmosBasic.Raster
