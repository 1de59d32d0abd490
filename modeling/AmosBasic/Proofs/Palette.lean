import AmosBasic.Palette
import AmosBasic.Proofs.Bytes

namespace AmosBasic

/-- A register word is `0x0RGB`. The first of its nibbles means nothing. -/
structure Color.IsRegister (color : Color) (word : Nat) : Prop where
  red : color.red.toNat = 16 * (word / 256 % 16)
  green : color.green.toNat = 16 * (word / 16 % 16)
  blue : color.blue.toNat = 16 * (word % 16)

def Palette.Holds (palette : Palette) (registers : List UInt8) : Prop :=
  ∀ index, (within : index < 32) → palette.colors[index].IsRegister
    (256 * (registers.getD (2 * index) 0).toNat + (registers.getD (2 * index + 1) 0).toNat)

def Color.register (color : Color) : List UInt8 :=
  [color.red / 16, color.green / 16 * 16 + color.blue / 16]

def Palette.encode (palette : Palette) : List UInt8 :=
  palette.colors.toList.flatMap Color.register

/-- Register words without the nibble in front of the three that are a color. -/
def Palette.keptRegisters (registers : List UInt8) : List UInt8 :=
  registers.mapIdx fun index byte => if index % 2 = 0 then byte % 16 else byte

section Registers

variable (high low : UInt8) (registers : List UInt8)

theorem Color.ofRegister_kept : ofRegister (high % 16) low = ofRegister high low := by
  have same : high % 16 % 16 = high % 16 := UInt8.toNat_inj.mp (by simp)
  simp only [ofRegister, same]

theorem Color.isRegister_ofRegister : (ofRegister high low).IsRegister (256 * high.toNat + low.toNat) := by
  have first := high.toNat_lt
  have second := low.toNat_lt
  constructor
  · simp only [ofRegister, UInt8.toNat_mul, UInt8.toNat_mod, UInt8.reduceToNat]
    omega
  · simp only [ofRegister, UInt8.toNat_mul, UInt8.toNat_div, UInt8.reduceToNat]
    omega
  · simp only [ofRegister, UInt8.toNat_mul, UInt8.toNat_mod, UInt8.reduceToNat]
    omega

theorem Color.IsRegister.unique {color other : Color} {word : Nat} (first : color.IsRegister word)
    (second : other.IsRegister word) : color = other := by
  obtain ⟨red, green, blue⟩ := color
  have reds : red = other.red := UInt8.toNat_inj.mp (first.red.trans second.red.symm)
  have greens : green = other.green := UInt8.toNat_inj.mp (first.green.trans second.green.symm)
  have blues : blue = other.blue := UInt8.toNat_inj.mp (first.blue.trans second.blue.symm)
  rw [reds, greens, blues]

theorem Color.length_register (color : Color) : color.register.length = 2 := rfl

theorem Color.register_ofRegister : (ofRegister high low).register = [high % 16, low] := by
  have first : high % 16 * 16 / 16 = high % 16 := by
    apply UInt8.toNat_inj.mp
    simp only [UInt8.toNat_div, UInt8.toNat_mul, UInt8.toNat_mod, UInt8.reduceToNat]
    omega
  have second : low / 16 * 16 / 16 * 16 + low % 16 * 16 / 16 = low := by
    apply UInt8.toNat_inj.mp
    have small := low.toNat_lt
    simp only [UInt8.toNat_add, UInt8.toNat_div, UInt8.toNat_mul, UInt8.toNat_mod, UInt8.reduceToNat]
    omega
  rw [register, ofRegister, first, second]

theorem getElem?_flatMap_uniform {α β : Type} {f : α → List β} {size place : Nat}
    (uniform : ∀ item, (f item).length = size) (within : place < size) (items : List α) (index : Nat) :
    (items.flatMap f)[index * size + place]? = items[index]?.bind fun item => (f item)[place]? := by
  induction items generalizing index with
  | nil => rfl
  | cons item items ih =>
    rw [List.flatMap_cons]
    cases index with
    | zero =>
      rw [Nat.zero_mul, Nat.zero_add, List.getElem?_append_left (by rw [uniform]; exact within)]
      rfl
    | succ index =>
      rw [Nat.succ_mul, List.getElem?_append_right (by rw [uniform]; omega), uniform,
        show index * size + size + place - size = index * size + place by omega, ih]
      rfl

namespace Palette

theorem getElem_colors_decode {index : Nat} (within : index < 32) : (decode registers).colors[index] =
    .ofRegister (registers.getD (2 * index) 0) (registers.getD (2 * index + 1) 0) := by
  simp [decode]

theorem holds_decode : (decode registers).Holds registers := by
  intro index within
  rw [getElem_colors_decode registers within]
  exact Color.isRegister_ofRegister _ _

theorem holds_iff {palette : Palette} : palette.Holds registers ↔ palette = decode registers := by
  constructor
  · intro holds
    have colors : palette.colors = (decode registers).colors :=
      Vector.ext fun index within => (holds index within).unique (holds_decode registers index within)
    exact congrArg mk colors
  · intro same
    rw [same]
    exact holds_decode registers

theorem getElem?_encode_decode {index place : Nat} (within : index < 32) (second : place < 2) :
    (decode registers).encode[index * 2 + place]? =
      [registers.getD (2 * index) 0 % 16, registers.getD (2 * index + 1) 0][place]? := by
  have color : (decode registers).colors.toList[index]? =
      some (.ofRegister (registers.getD (2 * index) 0) (registers.getD (2 * index + 1) 0)) := by
    rw [List.getElem?_eq_getElem (by simpa using within), Vector.getElem_toList, getElem_colors_decode]
  rw [encode, getElem?_flatMap_uniform Color.length_register second, color, Option.bind_some, Color.register_ofRegister]

theorem length_encode (palette : Palette) : palette.encode.length = size := by
  simp [encode, Color.register, size, List.map_const']

theorem decode_keptRegisters : decode (keptRegisters registers) = decode registers := by
  have colors : (decode (keptRegisters registers)).colors = (decode registers).colors := by
    apply Vector.ext
    intro index within
    have first : (keptRegisters registers).getD (2 * index) 0 = registers.getD (2 * index) 0 % 16 := by
      simp only [keptRegisters, List.getD_eq_getElem?_getD, List.getElem?_mapIdx, Nat.mul_mod_right, if_true]
      cases registers[2 * index]? <;> rfl
    have second : (keptRegisters registers).getD (2 * index + 1) 0 = registers.getD (2 * index + 1) 0 := by
      have odd : ¬ (2 * index + 1) % 2 = 0 := by omega
      simp only [keptRegisters, List.getD_eq_getElem?_getD, List.getElem?_mapIdx, odd, if_false, Option.map_id']
    rw [getElem_colors_decode, getElem_colors_decode, first, second, Color.ofRegister_kept]
  exact congrArg mk colors

theorem encode_decode {registers : List UInt8} (filled : registers.length = size) :
    (decode registers).encode = keptRegisters registers := by
  have sizes : (decode registers).encode.length = (keptRegisters registers).length := by
    rw [length_encode, keptRegisters, List.length_mapIdx, filled]
  refine List.ext_getElem? fun index => ?_
  by_cases within : index < size
  · have small : index / 2 < 32 := Nat.div_lt_of_lt_mul within
    have stored : registers[index]? = some (registers.getD index 0) := by
      rw [List.getD_eq_getElem?_getD, List.getElem?_eq_getElem (filled ▸ within)]
      rfl
    have word := getElem?_encode_decode registers small (Nat.mod_lt index Nat.two_pos)
    rw [Nat.div_add_mod'] at word
    rw [word, keptRegisters, List.getElem?_mapIdx, stored]
    rcases Nat.mod_two_eq_zero_or_one index with even | odd
    · have place : 2 * (index / 2) = index := by omega
      simp only [even, place, if_true, List.getElem?_cons_zero, Option.map_some]
    · have place : 2 * (index / 2) + 1 = index := by omega
      simp only [odd, place, Nat.one_ne_zero, if_false, List.getElem?_cons_succ, List.getElem?_cons_zero,
        Option.map_some]
  · rw [List.getElem?_eq_none (by rw [length_encode]; omega),
      List.getElem?_eq_none (by rw [← sizes, length_encode]; omega)]

variable {registers : List UInt8} {palette : Palette}

theorem Holds.keptRegisters (holds : palette.Holds registers) : palette.Holds (keptRegisters registers) := by
  rw [holds_iff, decode_keptRegisters, ← holds_iff]
  exact holds

theorem Holds.encode_eq (holds : palette.Holds registers) (filled : registers.length = size) :
    palette.encode = Palette.keptRegisters registers := by
  rw [(holds_iff registers).mp holds, encode_decode filled]

end Palette

end Registers

namespace Palette

theorem depth_cases {depth : Nat} (allowed : 1 ≤ depth ∧ depth ≤ maxDepth) :
    (depth ≠ maxDepth ∧ 2 ^ depth ≤ 32 ∧ max 1 (min depth maxDepth) = depth) ∨ depth = maxDepth := by
  have cases : depth = 1 ∨ depth = 2 ∨ depth = 3 ∨ depth = 4 ∨ depth = 5 ∨ depth = 6 := by
    unfold maxDepth at allowed
    omega
  rcases cases with rfl | rfl | rfl | rfl | rfl | rfl <;> decide

theorem colorTable_registers (palette : Palette) {depth : Nat} (allowed : 1 ≤ depth ∧ depth ≤ maxDepth)
    (shallow : depth ≠ maxDepth) : palette.colorTable depth = palette.colors.toList.take (2 ^ depth) := by
  rcases depth_cases allowed with ⟨-, few, same⟩ | deep
  · simp only [colorTable, same, few, if_true]
  · exact absurd deep shallow

theorem colorTable_maxDepth (palette : Palette) :
    palette.colorTable maxDepth = palette.colors.toList ++ palette.colors.toList.map Color.half := rfl

theorem length_colorTable (palette : Palette) {depth : Nat} (allowed : 1 ≤ depth ∧ depth ≤ maxDepth) :
    (palette.colorTable depth).length = 2 ^ depth := by
  rcases depth_cases allowed with ⟨shallow, few, -⟩ | rfl
  · rw [palette.colorTable_registers allowed shallow, List.length_take, Vector.length_toList]
    exact Nat.min_eq_left few
  · rw [colorTable_maxDepth, List.length_append, List.length_map, Vector.length_toList]
    rfl

theorem colorTable_half (palette : Palette) (register : Fin 32) :
    (palette.colorTable maxDepth)[register.val]? = palette.get? register ∧
      (palette.colorTable maxDepth)[32 + register.val]? = (palette.get? register).map Color.half := by
  have length : palette.colors.toList.length = 32 := Vector.length_toList
  have found : palette.colors.toList[register.val]? = palette.get? register := by simp [get?]
  rw [colorTable_maxDepth]
  constructor
  · rw [List.getElem?_append_left (by omega), found]
  · rw [List.getElem?_append_right (by omega), length, Nat.add_sub_cancel_left, List.getElem?_map, found]

end Palette

end AmosBasic
