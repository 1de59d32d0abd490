import AmosBasic.Command.Program
import AmosBasic.Proofs.Command.Arguments
import AmosBasic.Proofs.FileTree.Leading

namespace AmosBasic.Command

theorem fromUTF8?_eq_some_iff {bytes : ByteArray} {text : String} :
    String.fromUTF8? bytes = some text ↔ text.toUTF8 = bytes := by
  unfold String.fromUTF8?
  split
  · constructor
    · intro same
      cases same
      rfl
    · intro same
      subst same
      rfl
  · rename_i invalid
    simp only [reduceCtorEq, false_iff]
    intro same
    subst same
    exact invalid text.isValidUTF8

namespace Libraries

inductive Holds (libraries : Libraries) (tree : FileTree) (path : String) : List UInt8 → Prop
  | bytes {bytes : List UInt8} (stands : tree.Stands path (.file (.bytes bytes))) : Holds libraries tree path bytes
  | image {image : Png.Image} (stands : tree.Stands path (.file (.image image))) :
    Holds libraries tree path (libraries.encodeImage image)

/-- The settings before any of them is replaced: what the text of a given file is read as, or the standard ones. -/
inductive Configured (libraries : Libraries) (tree : FileTree) (given : List Argument) : Settings → Prop
  | standard (absent : pathGiven? given .config = none) :
    Configured libraries tree given ⟨⟨.amos, .bracketed⟩, ⟨false, "", ""⟩⟩
  | file {path text : String} {bytes : List UInt8} {settings : Settings} (named : pathGiven? given .config = some path)
      (holds : libraries.Holds tree path bytes) (spells : text.toUTF8 = bytes.toByteArray)
      (read : libraries.readSettings text = .ok settings) : Configured libraries tree given settings

/-- The source that an input is. A folder can be opened, but not read. -/
inductive Opens (libraries : Libraries) (tree : FileTree) (path : String) : Source → Prop
  | file {bytes : List UInt8} (holds : libraries.Holds tree path bytes) : Opens libraries tree path { bytes }
  | folder (stands : tree.Stands path .folder) :
    Opens libraries tree path { bytes := [], ending := .broken "Is a directory (os error 21)" }

variable {libraries : Libraries} {tree : FileTree} {path : String}

theorem holds_iff {bytes : List UInt8} : libraries.Holds tree path bytes ↔
    ∃ content, tree.find path = .ok (.file content) ∧ libraries.contentBytes content = bytes := by
  constructor
  · intro holds
    cases holds with
    | bytes stands => exact ⟨_, FileTree.stands_file_iff.mp stands, rfl⟩
    | image stands => exact ⟨_, FileTree.stands_file_iff.mp stands, rfl⟩
  · intro held
    obtain ⟨content, found, rfl⟩ := held
    cases content with
    | bytes bytes => exact .bytes (FileTree.stands_file_iff.mpr found)
    | image image => exact .image (FileTree.stands_file_iff.mpr found)

theorem loadSettings_ok_iff {settings : Settings} : libraries.loadSettings tree path = .ok settings ↔
    ∃ bytes text, libraries.Holds tree path bytes ∧ text.toUTF8 = bytes.toByteArray ∧
      libraries.readSettings text = .ok settings := by
  simp only [holds_iff, loadSettings]
  constructor
  · intro loaded
    rcases found : tree.find path with error | entries | content
    · simp [found] at loaded
    · simp [found] at loaded
    · cases decoded : String.fromUTF8? (libraries.contentBytes content).toByteArray with
      | none => simp [found, decoded] at loaded
      | some text =>
        refine ⟨_, text, ⟨content, rfl, rfl⟩, fromUTF8?_eq_some_iff.mp decoded, ?_⟩
        simp only [found, decoded, Settings.ofText] at loaded
        cases read : libraries.readSettings text with
        | error message =>
          rw [read] at loaded
          cases loaded
        | ok settings =>
          rw [read] at loaded
          cases loaded
          rfl
  · intro held
    obtain ⟨bytes, text, ⟨content, found, rfl⟩, spells, read⟩ := held
    simp only [found, fromUTF8?_eq_some_iff.mpr spells, Settings.ofText, read]
    rfl

theorem configured_iff {given : List Argument} {settings : Settings} : libraries.Configured tree given settings ↔
    (pathGiven? given .config).elim (.ok {}) (libraries.loadSettings tree) = .ok settings := by
  constructor
  · intro configured
    cases configured with
    | standard absent =>
      rw [absent]
      rfl
    | file named holds spells read =>
      rw [named]
      exact loadSettings_ok_iff.mpr ⟨_, _, holds, spells, read⟩
  · intro loaded
    cases named : pathGiven? given .config with
    | none =>
      rw [named] at loaded
      cases loaded
      exact .standard named
    | some path =>
      rw [named] at loaded
      obtain ⟨bytes, text, holds, spells, read⟩ := loadSettings_ok_iff.mp loaded
      exact .file named holds spells read

theorem opens_iff {source : Source} : libraries.Opens tree path source ↔
    libraries.openInput tree path = .ok source := by
  rw [openInput]
  constructor
  · intro opens
    cases opens with
    | file holds =>
      obtain ⟨content, found, rfl⟩ := holds_iff.mp holds
      rw [found]
    | folder stands =>
      obtain ⟨entries, found⟩ := FileTree.stands_folder_iff.mp stands
      rw [found]
      rfl
  · intro opened
    rcases found : tree.find path with error | entries | content
    · rw [found] at opened
      cases error <;> cases opened
    · rw [found] at opened
      cases opened
      exact .folder (FileTree.stands_folder_iff.mpr ⟨entries, found⟩)
    · rw [found] at opened
      cases opened
      exact .file (holds_iff.mpr ⟨content, found, rfl⟩)

end Libraries

end AmosBasic.Command
