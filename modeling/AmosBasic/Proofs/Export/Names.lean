import AmosBasic.Export
import AmosBasic.Proofs.FileTree.Leading

namespace AmosBasic

def ImageKind.fileMark : ImageKind → String
  | sprites => "Sprite_"
  | icons => "Icon_"

inductive ExportedFile where
  | image (kind : ImageKind) (number : Nat) (raster : Raster)
  | picture (header : MemoryHeader) (picture : PackedPicture)
  | raw (header : MemoryHeader) (payload : List UInt8)
  deriving DecidableEq

namespace ExportedFile

def folder (output : OutputOptions) : ExportedFile → String
  | image .. => output.imageFolder
  | picture .. | raw .. => output.dataFolder

def stem : ExportedFile → String
  | image kind number _ => kind.fileMark ++ zeroFilled 3 (toString number)
  | picture header _ => "PacPic_" ++ zeroFilled 2 (toString header.number.toNat)
  | raw header _ => "Bank_" ++ zeroFilled 2 (toString header.number.toNat) ++ "_" ++ fileSafeName header.nameText

def ending : ExportedFile → String
  | image .. | picture .. => ".png"
  | raw .. => ".bin"

def name (file : ExportedFile) : String := file.stem ++ file.ending

def path (output : OutputOptions) (file : ExportedFile) : String := joinPath (file.folder output) file.name

end ExportedFile

theorem joinPath_inj {folder other name otherName : String} (single : '/' ∉ name.toList)
    (otherSingle : '/' ∉ otherName.toList) (same : joinPath folder name = joinPath other otherName) :
    name = otherName := by
  obtain ⟨parts, joined⟩ := exists_pathParts_joinPath folder
  obtain ⟨others, otherJoined⟩ := exists_pathParts_joinPath other
  have ends := congrArg pathParts same
  rw [joined name single, otherJoined otherName otherSingle] at ends
  exact (List.append_inj' ends rfl).2 |> List.singleton_inj.mp

section Numerals

variable {width : Nat}

theorem toList_zeroFilled (text : String) :
    (zeroFilled width text).toList = List.replicate (width - text.length) '0' ++ text.toList := by
  rw [zeroFilled, String.toList_append, String.toList_ofList]

theorem isDigit_of_mem_zeroFilled {number : Nat} {character : Char}
    (member : character ∈ (zeroFilled width (toString number)).toList) : character.isDigit = true := by
  rw [toList_zeroFilled, List.mem_append, Nat.toString_eq_repr, Nat.toList_repr] at member
  rcases member with zero | digit
  · rw [List.eq_of_mem_replicate zero]
    rfl
  · exact Nat.isDigit_of_mem_toDigits (by decide) (by decide) digit

theorem ofDigitChars_zeros (count : Nat) : Nat.ofDigitChars 10 (List.replicate count '0') 0 = 0 := by
  induction count with
  | zero => rfl
  | succ count ih => exact ih

/-- The zeros in front do not hide the number. -/
theorem ofDigitChars_zeroFilled (width number : Nat) :
    Nat.ofDigitChars 10 (zeroFilled width (toString number)).toList 0 = number := by
  rw [toList_zeroFilled, Nat.ofDigitChars_append, ofDigitChars_zeros, Nat.toString_eq_repr, Nat.toList_repr,
    Nat.ofDigitChars_toDigits (by decide) (by decide)]

theorem zeroFilled_inj {number other : Nat}
    (same : zeroFilled width (toString number) = zeroFilled width (toString other)) : number = other := by
  rw [← ofDigitChars_zeroFilled width number, same, ofDigitChars_zeroFilled]

theorem takeWhile_isDigit {digits : List Char} (numeric : ∀ character ∈ digits, character.isDigit = true)
    (text : List Char) : (digits ++ '_' :: text).takeWhile Char.isDigit = digits := by
  rw [List.takeWhile_append_of_pos numeric, List.takeWhile_cons_of_neg (by decide), List.append_nil]

theorem digits_inj {digits others text otherText : List Char}
    (numeric : ∀ character ∈ digits, character.isDigit = true)
    (otherNumeric : ∀ character ∈ others, character.isDigit = true)
    (same : digits ++ '_' :: text = others ++ '_' :: otherText) : digits = others ∧ text = otherText := by
  have numerals := congrArg (List.takeWhile Char.isDigit) same
  rw [takeWhile_isDigit numeric, takeWhile_isDigit otherNumeric] at numerals
  rw [numerals] at same
  exact ⟨numerals, (List.cons.inj (List.append_cancel_left same)).2⟩

end Numerals

def FileSafe (character : Char) : Prop := character.isAlphanum = true ∨ character = '_'

instance : DecidablePred FileSafe := fun character =>
  inferInstanceAs (Decidable (character.isAlphanum = true ∨ character = '_'))

theorem fileSafe_of_isDigit {character : Char} (digit : character.isDigit = true) : FileSafe character := by
  left
  simp [Char.isAlphanum, digit]

section SafeNames

theorem fileSafe_of_mem_fileSafeName {name : String} {character : Char}
    (member : character ∈ (fileSafeName name).toList) : FileSafe character := by
  unfold fileSafeName at member
  rw [String.toList_ofList, List.mem_reverse] at member
  have mapped := List.mem_reverse.mp ((List.dropWhile_suffix _).subset member)
  obtain ⟨original, -, rfl⟩ := List.mem_map.mp ((List.dropWhile_suffix _).subset mapped)
  by_cases alphanumeric : original.isAlphanum = true
  · rw [if_pos alphanumeric]
    exact .inl alphanumeric
  · rw [if_neg alphanumeric]
    exact .inr rfl

theorem head?_dropWhile_underscores (characters : List Char) :
    (characters.dropWhile (· = '_')).head? ≠ some '_' := by
  have first := List.head?_dropWhile_not (· = '_') characters
  intro underscore
  rw [underscore] at first
  simp at first

theorem getLast?_dropWhile_underscores {characters : List Char} (last : characters.getLast? ≠ some '_') :
    (characters.dropWhile (· = '_')).getLast? ≠ some '_' := by
  intro underscore
  obtain ⟨front, whole⟩ := List.dropWhile_suffix (l := characters) (· = '_')
  rw [← whole, List.getLast?_append, underscore] at last
  exact last rfl

theorem fileSafeName_bounds (name : String) :
    (fileSafeName name).toList.head? ≠ some '_' ∧ (fileSafeName name).toList.getLast? ≠ some '_' := by
  unfold fileSafeName
  rw [String.toList_ofList]
  constructor
  · rw [List.head?_reverse]
    apply getLast?_dropWhile_underscores
    rw [List.getLast?_reverse]
    exact head?_dropWhile_underscores _
  · rw [List.getLast?_reverse]
    exact head?_dropWhile_underscores _

end SafeNames

namespace ExportedFile

theorem stem_ne_empty (file : ExportedFile) : file.stem.toList ≠ [] := by
  rcases file with ⟨_ | _, number, raster⟩ | ⟨header, picture⟩ | ⟨header, payload⟩ <;>
    simp [stem, ImageKind.fileMark]

theorem fileSafe_of_mem_mark {mark : String} (known : mark ∈ ["Sprite_", "Icon_", "PacPic_", "Bank_", "_"])
    {character : Char} (member : character ∈ mark.toList) : FileSafe character := by
  -- A test of the lists, for a quantifier over characters is decided by going through all of them.
  have safe : ∀ mark ∈ ["Sprite_", "Icon_", "PacPic_", "Bank_", "_"],
      mark.toList.all (fun character => decide (FileSafe character)) = true := by decide
  exact of_decide_eq_true (List.all_eq_true.mp (safe mark known) character member)

theorem fileSafe_of_mem_stem {file : ExportedFile} {character : Char} (member : character ∈ file.stem.toList) :
    FileSafe character := by
  cases file with
  | image kind number raster =>
    rw [stem, String.toList_append, List.mem_append] at member
    rcases member with mark | digit
    · cases kind <;> exact fileSafe_of_mem_mark (by decide) mark
    · exact fileSafe_of_isDigit (isDigit_of_mem_zeroFilled digit)
  | picture header picture =>
    rw [stem, String.toList_append, List.mem_append] at member
    rcases member with mark | digit
    · exact fileSafe_of_mem_mark (by decide) mark
    · exact fileSafe_of_isDigit (isDigit_of_mem_zeroFilled digit)
  | raw header payload =>
    rw [stem, String.toList_append, String.toList_append, String.toList_append, List.mem_append, List.mem_append,
      List.mem_append] at member
    rcases member with ((mark | digit) | mark) | safe
    · exact fileSafe_of_mem_mark (by decide) mark
    · exact fileSafe_of_isDigit (isDigit_of_mem_zeroFilled digit)
    · exact fileSafe_of_mem_mark (by decide) mark
    · exact fileSafe_of_mem_fileSafeName safe

theorem ending_cases (file : ExportedFile) : file.ending = ".png" ∨ file.ending = ".bin" := by
  cases file <;> simp [ending]

theorem plain (file : ExportedFile) : PlainName file.name := by
  obtain ⟨first, rest, stem⟩ := List.exists_cons_of_ne_nil file.stem_ne_empty
  have safe : FileSafe first := fileSafe_of_mem_stem (stem ▸ List.mem_cons_self)
  have proper : first ≠ '.' := by
    rintro rfl
    exact absurd safe (by decide)
  have begins : file.name.toList = first :: (rest ++ file.ending.toList) := by
    rw [name, String.toList_append, stem, List.cons_append]
  refine ⟨?_, ?_, ?_, ?_⟩
  · intro empty
    simp [empty] at begins
  · intro dot
    rw [dot] at begins
    exact proper (List.cons.inj begins).1.symm
  · intro dots
    rw [dots] at begins
    exact proper (List.cons.inj begins).1.symm
  · intro slash
    rw [name, String.toList_append, List.mem_append] at slash
    rcases slash with slash | slash
    · exact absurd (fileSafe_of_mem_stem slash) (by decide)
    · rcases file.ending_cases with same | same <;> simp [same] at slash

def Alike : ExportedFile → ExportedFile → Prop
  | image kind number _, image otherKind otherNumber _ => kind = otherKind ∧ number = otherNumber
  | picture header _, picture other _ => header.number = other.number
  | raw header _, raw other _ =>
    header.number = other.number ∧ fileSafeName header.nameText = fileSafeName other.nameText
  | _, _ => False

theorem name_eq_iff {file other : ExportedFile} : file.name = other.name ↔ file.Alike other := by
  constructor
  · intro same
    have characters := congrArg String.toList same
    -- The first letters tell the kinds of files apart.
    cases file with
    | image kind number raster =>
      cases other with
      | image otherKind otherNumber otherRaster =>
        have marks : kind = otherKind := by
          cases kind <;> cases otherKind <;> first | rfl | simp [name, stem, ImageKind.fileMark] at characters
        subst marks
        have numerals : zeroFilled 3 (toString number) = zeroFilled 3 (toString otherNumber) :=
          String.toList_inj.mp (by simpa [name, stem, ending] using characters)
        exact ⟨rfl, zeroFilled_inj numerals⟩
      | picture | raw => cases kind <;> simp [name, stem, ImageKind.fileMark] at characters
    | picture header picture =>
      cases other with
      | picture otherHeader otherPicture =>
        have numerals : zeroFilled 2 (toString header.number.toNat) =
            zeroFilled 2 (toString otherHeader.number.toNat) :=
          String.toList_inj.mp (by simpa [name, stem, ending] using characters)
        exact UInt16.toNat_inj.mp (zeroFilled_inj numerals)
      | image kind => cases kind <;> simp [name, stem, ImageKind.fileMark] at characters
      | raw => simp [name, stem] at characters
    | raw header payload =>
      cases other with
      | raw otherHeader otherPayload =>
        have split : (zeroFilled 2 (toString header.number.toNat)).toList ++
              '_' :: (fileSafeName header.nameText).toList =
            (zeroFilled 2 (toString otherHeader.number.toNat)).toList ++
              '_' :: (fileSafeName otherHeader.nameText).toList := by
          refine List.append_cancel_right (?_ : _ ++ ".bin".toList = _ ++ ".bin".toList)
          simpa [name, stem, ending] using characters
        obtain ⟨number, safe⟩ :=
          digits_inj (fun _ => isDigit_of_mem_zeroFilled) (fun _ => isDigit_of_mem_zeroFilled) split
        exact ⟨UInt16.toNat_inj.mp (zeroFilled_inj (String.toList_inj.mp number)), String.toList_inj.mp safe⟩
      | image kind => cases kind <;> simp [name, stem, ImageKind.fileMark] at characters
      | picture => simp [name, stem] at characters
  · intro alike
    cases file <;> cases other <;> simp_all [Alike, name, stem, ending]

end ExportedFile

end AmosBasic
