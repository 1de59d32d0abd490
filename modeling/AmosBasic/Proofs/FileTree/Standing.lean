import AmosBasic.FileTree

namespace AmosBasic

inductive Standing where
  | folder
  | file (content : FileContent)
  deriving DecidableEq

namespace Entry

def standing : Entry → Standing
  | folder _ => .folder
  | file content => .file content

@[simp] def at? : Entry → List String → Option Entry
  | entry, [] => some entry
  | file _, _ :: _ => none
  | folder entries, name :: place => (entries.lookup name).bind fun entry => entry.at? place

theorem at?_append (entry : Entry) (place further : List String) :
    entry.at? (place ++ further) = (entry.at? place).bind fun inner => inner.at? further := by
  induction place generalizing entry with
  | nil => simp
  | cons name place ih =>
    cases entry with
    | file content => rfl
    | folder entries =>
      cases found : entries.lookup name with
      | none => simp [found]
      | some inner => simp [found, ih]

def Bare (entry : Entry) : Prop := ∀ name place, entry.at? (name :: place) = none

theorem bare_file (content : FileContent) : (file content).Bare := fun _ _ => rfl

theorem bare_folder : (folder []).Bare := fun _ _ => rfl

theorem bare_of_standing {entry : Entry} (other : entry.standing ≠ .folder) : entry.Bare := by
  cases entry with
  | folder entries => exact absurd rfl other
  | file content => exact bare_file content

end Entry

namespace Folder

theorem lookup_cons (other old : String) (kept : Entry) (rest : Folder) :
    List.lookup other ((old, kept) :: rest) = if other = old then some kept else List.lookup other rest := by
  by_cases same : other = old
  · simp [same]
  · simp [List.lookup_cons, same, beq_eq_false_iff_ne.mpr same]

theorem lookup_put (name other : String) (entry : Entry) (entries : Folder) :
    (entries.put name entry).lookup other = if other = name then some entry else entries.lookup other := by
  induction entries with
  | nil => exact lookup_cons other name entry []
  | cons first rest ih =>
    obtain ⟨old, kept⟩ := first
    by_cases here : old = name
    · subst here
      simp only [put, if_true, lookup_cons]
      split <;> rfl
    · simp only [put, here, if_false, lookup_cons, ih]
      by_cases first : other = old
      · simp only [first, here, if_true, if_false]
      · simp only [first, if_false]

/-- Something without anything below it is put where no folder stands, in a folder that is there. -/
theorem standing_putAt {entry : Entry} (bare : entry.Bare) (front : List String) (name : String) (entries : Folder)
    (around : ((Entry.folder entries).at? front).map Entry.standing = some .folder)
    (vacant : ((Entry.folder entries).at? (front ++ [name])).map Entry.standing ≠ some .folder) (place : List String) :
    ((Entry.folder (entries.putAt entry (front ++ [name]))).at? place).map Entry.standing =
      if place = front ++ [name] then some entry.standing
      else ((Entry.folder entries).at? place).map Entry.standing := by
  -- Inwards through the folders around the place; in the last of them `lookup_put` decides.
  induction front generalizing entries place with
  | nil =>
    cases place with
    | nil => simp [putAt, Entry.standing]
    | cons first place =>
      by_cases same : first = name
      · subst same
        cases place with
        | nil => simp [putAt, lookup_put]
        | cons second place =>
          have before : (entries.lookup first).bind (fun inner => inner.at? (second :: place)) = none := by
            cases found : entries.lookup first with
            | none => rfl
            | some inner =>
              have other : inner.standing ≠ .folder := by simpa [found] using vacant
              exact Entry.bare_of_standing other second place
          simp [putAt, lookup_put, bare second place, before]
      · simp [putAt, lookup_put, same]
  | cons outer front ih =>
    cases found : entries.lookup outer with
    | none => simp [found] at around
    | some inner =>
      cases inner with
      | file content =>
        cases front <;> simp [found, Entry.standing, Entry.at?] at around
      | folder inside =>
        have inner : ((Entry.folder inside).at? front).map Entry.standing = some .folder := by
          simpa [found] using around
        have free : ((Entry.folder inside).at? (front ++ [name])).map Entry.standing ≠ some .folder := by
          simpa [found] using vacant
        have nested : entries.putAt entry (outer :: (front ++ [name])) =
            entries.put outer (.folder (putAt entry (front ++ [name]) inside)) := by
          cases shape : front ++ [name] with
          | nil => simp at shape
          | cons next later => simp [putAt, found]
        rw [List.cons_append, nested]
        cases place with
        | nil => simp [Entry.standing]
        | cons first place =>
          by_cases same : first = outer
          · subst same
            simp [lookup_put, found, ih inside inner free place]
          · simp [lookup_put, same]

end Folder

namespace FileTree

def standing? (tree : FileTree) (place : List String) : Option Standing :=
  ((Entry.folder tree.entries).at? place).map Entry.standing

@[simp] theorem standing?_nil (tree : FileTree) : tree.standing? [] = some .folder := by
  simp [standing?, Entry.standing]

theorem standing?_around {tree : FileTree} {front : List String} {name : String} {standing : Standing}
    (found : tree.standing? (front ++ [name]) = some standing) : tree.standing? front = some .folder := by
  simp only [standing?, Entry.at?_append] at found ⊢
  cases outer : (Entry.folder tree.entries).at? front with
  | none => simp [outer] at found
  | some entry =>
    cases entry with
    | folder entries => rfl
    | file content => simp [outer, Entry.at?] at found

theorem standing?_put {tree : FileTree} {entry : Entry} (bare : entry.Bare) {front : List String} {name : String}
    (around : tree.standing? front = some .folder) (vacant : tree.standing? (front ++ [name]) ≠ some .folder)
    (place : List String) : (tree.put (front ++ [name]) entry).standing? place =
      if place = front ++ [name] then some entry.standing else tree.standing? place :=
  Folder.standing_putAt bare front name tree.entries around vacant place

end FileTree

end AmosBasic
