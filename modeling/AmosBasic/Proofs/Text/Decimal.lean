import AmosBasic.Proofs.Text.Numeral
import Mathlib.Algebra.Order.Field.Rat
import Mathlib.Tactic.Ring

namespace AmosBasic

structure DecimalNumeral where
  negative : Bool
  whole : List Char
  part : List Char
  exponent? : Option Int
  deriving DecidableEq

namespace DecimalNumeral

/-- Digits, the first of them before the point. -/
structure WellFormed (numeral : DecimalNumeral) : Prop where
  whole : numeral.whole ≠ []
  digits : ∀ character ∈ numeral.whole ++ numeral.part, character.isDigit

def partText (part : List Char) : List Char :=
  if part = [] then [] else '.' :: part

def exponentText (exponent? : Option Int) : List Char :=
  exponent?.elim [] fun exponent => 'e' :: (toString exponent).toList

def text (numeral : DecimalNumeral) : String :=
  String.ofList ((if numeral.negative then ['-'] else []) ++
    (numeral.whole ++ (partText numeral.part ++ exponentText numeral.exponent?)))

def readPart? : List Char → Option (List Char × List Char)
  | '.' :: text =>
    let part := text.takeWhile Char.isDigit
    if part = [] then none else some (part, text.drop part.length)
  | text => some ([], text)

def readExponent? : List Char → Option (Option Int)
  | [] => some none
  | 'e' :: text => (Numeral.readSigned? text).map some
  | _ => none

def readUnsigned? (negative : Bool) (text : List Char) : Option DecimalNumeral := do
  let whole := text.takeWhile Char.isDigit
  if whole = [] then none
  else
    let (part, rest) ← readPart? (text.drop whole.length)
    let exponent? ← readExponent? rest
    return { negative, whole, part, exponent? }

def read? (text : String) : Option DecimalNumeral :=
  match text.toList with
  | '-' :: text => readUnsigned? true text
  | text => readUnsigned? false text

def magnitude (numeral : DecimalNumeral) : ℚ :=
  Nat.ofDigitChars 10 (numeral.whole ++ numeral.part) 0 *
    10 ^ (numeral.exponent?.getD 0 - numeral.part.length)

def significantDigits (numeral : DecimalNumeral) : Nat :=
  (((numeral.whole ++ numeral.part).dropWhile (· = '0')).reverse.dropWhile (· = '0')).length

variable {numeral : DecimalNumeral} {digits rest : List Char}

theorem takeWhile_digits (all : ∀ character ∈ digits, character.isDigit)
    (ends : ∀ character ∈ rest.head?, character.isDigit = false) :
    (digits ++ rest).takeWhile Char.isDigit = digits := by
  have behind : rest.takeWhile Char.isDigit = [] := by
    cases rest with
    | nil => rfl
    | cons character rest => simp [ends character rfl]
  rw [List.takeWhile_append_of_pos all, behind, List.append_nil]

theorem readExponent?_exponentText (exponent? : Option Int) :
    readExponent? (exponentText exponent?) = some exponent? := by
  cases exponent? with
  | none => rfl
  | some exponent => exact congrArg (Option.map some) (Numeral.readSigned?_toString exponent)

theorem head?_exponentText (exponent? : Option Int) :
    ∀ character ∈ (exponentText exponent?).head?, character = 'e' := by
  cases exponent? <;> simp [exponentText]

theorem readPart?_partText {part : List Char} (all : ∀ character ∈ part, character.isDigit)
    (ends : ∀ character ∈ rest.head?, character = 'e') : readPart? (partText part ++ rest) = some (part, rest) := by
  by_cases empty : part = []
  · subst empty
    cases rest with
    | nil => rfl
    | cons character rest =>
      obtain rfl := ends character rfl
      rfl
  · have digits : (part ++ rest).takeWhile Char.isDigit = part :=
      takeWhile_digits all fun character first => by rw [ends character first]; rfl
    simp [partText, empty, readPart?, digits]

theorem readUnsigned?_of_wellFormed (wellFormed : numeral.WellFormed) :
    readUnsigned? numeral.negative (numeral.whole ++ (partText numeral.part ++ exponentText numeral.exponent?)) =
      some numeral := by
  have whole : (numeral.whole ++ (partText numeral.part ++ exponentText numeral.exponent?)).takeWhile Char.isDigit =
      numeral.whole := by
    refine takeWhile_digits (fun character member => wellFormed.digits character (List.mem_append_left _ member)) ?_
    intro character first
    by_cases empty : numeral.part = []
    · rw [partText, if_pos empty, List.nil_append] at first
      rw [head?_exponentText _ character first]
      rfl
    · rw [partText, if_neg empty] at first
      obtain rfl : '.' = character := Option.some.inj first
      rfl
  have part := readPart?_partText
    (fun character member => wellFormed.digits character (List.mem_append_right _ member))
    (head?_exponentText numeral.exponent?)
  simp [readUnsigned?, whole, wellFormed.whole, part, readExponent?_exponentText]

theorem read?_text (wellFormed : numeral.WellFormed) : read? numeral.text = some numeral := by
  have unsigned := readUnsigned?_of_wellFormed wellFormed
  rw [read?, text, String.toList_ofList]
  cases sign : numeral.negative with
  | true =>
    rw [sign] at unsigned
    exact unsigned
  | false =>
    rw [sign] at unsigned
    obtain ⟨first, others, whole⟩ := List.exists_cons_of_ne_nil wellFormed.whole
    have digit : first.isDigit := wellFormed.digits first (by simp [whole])
    rw [if_neg Bool.false_ne_true, List.nil_append]
    rw [whole] at unsigned ⊢
    -- The text begins with a digit, and so not with a sign.
    split
    · rename_i same
      cases (List.cons.inj same).1
      cases digit
    · exact unsigned

example : read? "-1.5e16" = some ⟨true, ['1'], ['5'], some 16⟩ := by decide

theorem length_dropWhile_zeros_le (digits : List Char) (before behind : Nat) :
    ((((List.replicate before '0' ++ digits) ++ List.replicate behind '0').dropWhile (· = '0')).reverse.dropWhile
      (· = '0')).length ≤ digits.length := by
  have zeros : ∀ count rest, (List.replicate count '0' ++ rest).dropWhile (· = '0') = rest.dropWhile (· = '0') :=
    fun count rest => List.dropWhile_append_of_pos (by simp)
  rw [List.append_assoc, zeros, List.dropWhile_append]
  split
  · have none := zeros behind []
    rw [List.append_nil] at none
    simp [none]
  · rw [List.reverse_append, List.reverse_replicate, zeros]
    have trimmed := (List.dropWhile_sublist (· = '0') (l := (digits.dropWhile (· = '0')).reverse)).length_le
    have front := (List.dropWhile_sublist (· = '0') (l := digits)).length_le
    rw [List.length_reverse] at trimmed
    omega

theorem significantDigits_le {before behind : Nat}
    (same : numeral.whole ++ numeral.part = List.replicate before '0' ++ digits ++ List.replicate behind '0') :
    numeral.significantDigits ≤ digits.length := by
  rw [significantDigits, same]
  exact length_dropWhile_zeros_le digits before behind

/-- Zeros in front of digits count nothing, and each one behind them counts ten. -/
theorem magnitude_of_zeros {before behind : Nat}
    (same : numeral.whole ++ numeral.part = List.replicate before '0' ++ digits ++ List.replicate behind '0') :
    numeral.magnitude = Nat.ofDigitChars 10 digits 0 *
      10 ^ (numeral.exponent?.getD 0 - numeral.part.length + behind) := by
  rw [magnitude, same, Nat.ofDigitChars_append, Nat.ofDigitChars_append, Nat.ofDigitChars_replicate_zero,
    Nat.ofDigitChars_replicate_zero, Nat.mul_zero, zpow_add₀ (by norm_num), zpow_natCast]
  push_cast
  ring

end DecimalNumeral

end AmosBasic
