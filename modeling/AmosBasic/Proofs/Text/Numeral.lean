import AmosBasic.Numeral
import Mathlib.Tactic.IntervalCases

namespace AmosBasic.Numeral

def digit? (base : Nat) (character : Char) : Option Nat :=
  let value :=
    if '0' ≤ character ∧ character ≤ '9' then character.toNat - '0'.toNat
    else if 'a' ≤ character ∧ character ≤ 'f' then character.toNat - 'a'.toNat + 10
    else base
  if value < base then some value else none

def append? (base number : Nat) (character : Char) : Option Nat :=
  (digit? base character).map fun value => base * number + value

def read? (base : Nat) (digits : List Char) : Option Nat :=
  if digits = [] then none else digits.foldlM (append? base) 0

def readFront? (base : Nat) (text : List Char) : Option (Nat × List Char) :=
  let digits := text.takeWhile fun character => (digit? base character).isSome
  (read? base digits).map fun number => (number, text.drop digits.length)

def readSigned? : List Char → Option Int
  | '-' :: digits => (read? 10 digits).map fun number : Nat => -(number : Int)
  | digits => (read? 10 digits).map Nat.cast

/-- The digits spell the number, and the first of them is not zero unless it is the only one. -/
structure Spells (base : Nat) (digits : List Char) (number : Nat) : Prop where
  read : read? base digits = some number
  canonical : digits.head? = some '0' → digits = ['0']

section

variable {base number : Nat} (two : 2 ≤ base) (sixteen : base ≤ 16)

include sixteen in
theorem digit?_digitChar {value : Nat} (less : value < base) : digit? base (Nat.digitChar value) = some value := by
  have small : value < 16 := by omega
  interval_cases value <;> exact if_pos less

include two

theorem digitChar_of_mem_toDigits {character : Char} (member : character ∈ Nat.toDigits base number) :
    ∃ value, value < base ∧ character = Nat.digitChar value := by
  induction number using Nat.strongRecOn with
  | ind number ih =>
    rw [Nat.toDigits_eq_if (by omega)] at member
    split at member
    · exact ⟨number, ‹_›, List.mem_singleton.mp member⟩
    · rcases List.mem_append.mp member with front | last
      · exact ih _ (Nat.div_lt_self (by omega) (by omega)) front
      · exact ⟨number % base, Nat.mod_lt _ (by omega), List.mem_singleton.mp last⟩

theorem head?_toDigits_of_pos (positive : 0 < number) : (Nat.toDigits base number).head? ≠ some '0' := by
  induction number using Nat.strongRecOn with
  | ind number ih =>
    rw [Nat.toDigits_eq_if (by omega)]
    split
    · intro zero
      exact positive.ne' (Nat.digitChar_eq_zero.mp (Option.some.inj zero))
    · have front := ih (number / base) (Nat.div_lt_self positive (by omega)) (Nat.div_pos (by omega) (by omega))
      obtain ⟨first, others, same⟩ := List.exists_cons_of_ne_nil (Nat.toDigits_ne_nil (b := base) (n := number / base))
      rw [same] at front ⊢
      exact front

include sixteen

theorem foldlM_toDigits : (Nat.toDigits base number).foldlM (append? base) 0 = some number := by
  induction number using Nat.strongRecOn with
  | ind number ih =>
    rw [Nat.toDigits_eq_if (by omega)]
    split
    · rename_i less
      simp [append?, digit?_digitChar sixteen less]
    · have last : digit? base (Nat.digitChar (number % base)) = some (number % base) :=
        digit?_digitChar sixteen (Nat.mod_lt _ (by omega))
      rw [List.foldlM_append, ih _ (Nat.div_lt_self (by omega) (by omega))]
      simp [append?, last, Nat.div_add_mod]

theorem read?_toDigits : read? base (Nat.toDigits base number) = some number := by
  rw [read?, if_neg Nat.toDigits_ne_nil, foldlM_toDigits two sixteen]

theorem spells_toDigits : Spells base (Nat.toDigits base number) number where
  read := read?_toDigits two sixteen
  canonical := by
    intro zero
    obtain rfl | positive := Nat.eq_zero_or_pos number
    · exact Nat.toDigits_zero base
    · exact absurd zero (head?_toDigits_of_pos two positive)

theorem readFront?_toDigits {rest : List Char} (ends : ∀ character ∈ rest.head?, digit? base character = none) :
    readFront? base (Nat.toDigits base number ++ rest) = some (number, rest) := by
  have digits : ∀ character ∈ Nat.toDigits base number, (digit? base character).isSome = true := by
    intro character member
    obtain ⟨value, less, rfl⟩ := digitChar_of_mem_toDigits two member
    rw [digit?_digitChar sixteen less]
    rfl
  have behind : rest.takeWhile (fun character => (digit? base character).isSome) = [] := by
    cases rest with
    | nil => rfl
    | cons character rest => simp [ends character rfl]
  rw [readFront?, List.takeWhile_append_of_pos digits, behind, List.append_nil, read?_toDigits two sixteen,
    List.drop_left]
  rfl

end

theorem readSigned?_of_head {digits : List Char} (unsigned : digits.head? ≠ some '-') :
    readSigned? digits = (read? 10 digits).map Nat.cast := by
  unfold readSigned?
  split
  · exact absurd rfl unsigned
  · rfl

theorem readSigned?_toDigits (number : Nat) : readSigned? (Nat.toDigits 10 number) = some (number : Int) := by
  rw [readSigned?_of_head, read?_toDigits (by decide) (by decide)]
  · rfl
  · intro minus
    obtain ⟨value, less, same⟩ := digitChar_of_mem_toDigits (by decide) (List.mem_of_head? minus)
    exact Nat.digitChar_ne '-' (by decide) same.symm

theorem readSigned?_toString (number : Int) : readSigned? (toString number).toList = some number := by
  rw [Int.toString_eq_repr, Int.repr_eq_if]
  split
  · rw [Nat.toList_repr, readSigned?_toDigits, Int.toNat_of_nonneg ‹_›]
  · have digits : read? 10 (Nat.toDigits 10 (-number).toNat) = some (-number).toNat :=
      read?_toDigits (by decide) (by decide)
    rw [String.toList_append, Nat.toList_repr, show "-".toList = ['-'] from rfl, List.singleton_append, readSigned?,
      digits, Option.map_some, Int.toNat_of_nonneg (by omega), Int.neg_neg]

end AmosBasic.Numeral
