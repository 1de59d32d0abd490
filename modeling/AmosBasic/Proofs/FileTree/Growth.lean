import AmosBasic.Proofs.FileTree.Leading

namespace AmosBasic.FileTree

/-- Folders stay folders and files stay files, perhaps with other contents. -/
structure Grows (before after : FileTree) : Prop where
  home : after.workingFolder = before.workingFolder
  folder : ∀ place, before.standing? place = some .folder → after.standing? place = some .folder
  file : ∀ place content, before.standing? place = some (.file content) →
    ∃ other, after.standing? place = some (.file other)

variable {tree before middle after : FileTree}

theorem Grows.refl (tree : FileTree) : tree.Grows tree :=
  ⟨rfl, fun _ found => found, fun _ content found => ⟨content, found⟩⟩

theorem Grows.trans (first : before.Grows middle) (second : middle.Grows after) : before.Grows after where
  home := second.home.trans first.home
  folder place found := second.folder place (first.folder place found)
  file place content found := by
    obtain ⟨other, found⟩ := first.file place content found
    exact second.file place other found

theorem Grows.there (grows : before.Grows after) {place : List String} (found : before.standing? place ≠ none) :
    after.standing? place ≠ none := by
  obtain ⟨standing, found⟩ := Option.ne_none_iff_exists'.mp found
  cases standing with
  | folder => simp [grows.folder place found]
  | file content =>
    obtain ⟨other, found⟩ := grows.file place content found
    simp [found]

theorem Grows.follows (grows : before.Grows after) {inward names place : List String} {standing : Option Standing}
    (follows : before.Follows inward names place standing) (found : standing ≠ none) :
    after.Follows inward names place (after.standing? place) := by
  induction follows with
  | stop inward => exact .stop inward
  | stay within idle _ ih => exact .stay (grows.folder _ within) idle (ih found)
  | back within _ ih => exact .back (grows.folder _ within) (ih found)
  | enter within proper short there _ ih =>
    have there := grows.there (there.symm ▸ Option.some_ne_none _)
    obtain ⟨inner, there⟩ := Option.ne_none_iff_exists'.mp there
    exact .enter (grows.folder _ within) proper short there (ih found)
  | miss => exact absurd rfl found

theorem Grows.names (grows : before.Grows after) (path : String) (parts : List String) :
    after.names path parts = before.names path parts := by
  rw [FileTree.names, FileTree.names, grows.home]

theorem Grows.leads (grows : before.Grows after) {path : String} {place : List String} {standing : Option Standing}
    (leads : before.Leads path place standing) (found : standing ≠ none) :
    after.Leads path place (after.standing? place) := by
  obtain ⟨openable, follows⟩ := leads_iff.mp leads
  rw [leads_iff, grows.names]
  exact ⟨openable, grows.follows follows found⟩

theorem follows_blank {inward blank : List String} (within : tree.standing? inward.reverse = some .folder)
    (empty : ∀ name ∈ blank, name = "") : tree.Follows inward blank inward.reverse (some .folder) := by
  induction blank with
  | nil => exact follows_here within
  | cons name blank ih =>
    exact .stay within (.inl (empty name (by simp))) (ih fun other member => empty other (by simp [member]))

theorem Grows.follows_made (grows : before.Grows after) {inward names place : List String} {standing : Option Standing}
    (follows : before.Follows inward names place standing) (missing : standing = none)
    (made : after.standing? place = some .folder) : after.Follows inward names place (some .folder) := by
  -- The way is the same but for its end: the name that was missing there is entered now.
  induction follows with
  | stop inward => exact follows_here made
  | stay within idle _ ih => exact .stay (grows.folder _ within) idle (ih missing made)
  | back within _ ih => exact .back (grows.folder _ within) (ih missing made)
  | enter within proper short there _ ih =>
    have there := grows.there (there.symm ▸ Option.some_ne_none _)
    obtain ⟨inner, there⟩ := Option.ne_none_iff_exists'.mp there
    exact .enter (grows.folder _ within) proper short there (ih missing made)
  | @miss inward rest name within proper short _ last =>
    have blank : after.Follows (name :: inward) rest (name :: inward).reverse (some .folder) :=
      follows_blank (by rw [List.reverse_cons, made]) last
    rw [List.reverse_cons] at blank
    exact .enter (grows.folder _ within) proper short made blank

theorem put_changes {entry : Entry} (bare : entry.Bare) {front : List String} {name : String}
    (around : tree.standing? front = some .folder)
    (free : tree.standing? (front ++ [name]) = none ∨
      ∃ old content, tree.standing? (front ++ [name]) = some (.file old) ∧ entry.standing = .file content) :
    tree.Grows (tree.put (front ++ [name]) entry) ∧
      (tree.put (front ++ [name]) entry).standing? (front ++ [name]) = some entry.standing ∧
      ∀ other, other ≠ front ++ [name] →
        (tree.put (front ++ [name]) entry).standing? other = tree.standing? other := by
  have vacant : tree.standing? (front ++ [name]) ≠ some .folder := by
    rcases free with none | ⟨old, _, file, -⟩
    · simp [none]
    · simp [file]
  have stands := standing?_put bare around vacant
  have here : (tree.put (front ++ [name]) entry).standing? (front ++ [name]) = some entry.standing := by
    rw [stands, if_pos rfl]
  have elsewhere : ∀ other, other ≠ front ++ [name] →
      (tree.put (front ++ [name]) entry).standing? other = tree.standing? other := fun other different => by
    rw [stands, if_neg different]
  refine ⟨⟨rfl, fun place found => ?_, fun place content found => ?_⟩, here, elsewhere⟩
  · rw [elsewhere place (by rintro rfl; exact vacant found), found]
  · by_cases same : place = front ++ [name]
    · subst same
      rcases free with none | ⟨old, content, -, file⟩
      · rw [found] at none
        cases none
      · exact ⟨content, by rw [here, file]⟩
    · exact ⟨content, by rw [elsewhere place same, found]⟩

/-- Folders have been made, to each of which one of the paths leads, and nothing else has changed. -/
structure FoldersMade (before after : FileTree) (paths : List String) : Prop where
  grows : before.Grows after
  made : ∀ place, after.standing? place ≠ before.standing? place →
    before.standing? place = none ∧ ∃ path ∈ paths, after.Leads path place (some .folder)

theorem foldersMade_refl (tree : FileTree) (paths : List String) : tree.FoldersMade tree paths :=
  ⟨.refl tree, fun _ changed => absurd rfl changed⟩

theorem FoldersMade.trans {paths : List String} (first : before.FoldersMade middle paths)
    (second : middle.FoldersMade after paths) : before.FoldersMade after paths := by
  refine ⟨first.grows.trans second.grows, fun place changed => ?_⟩
  by_cases same : middle.standing? place = before.standing? place
  · rw [← same] at changed ⊢
    exact second.made place changed
  · obtain ⟨missing, path, among, leads⟩ := first.made place same
    have later := second.grows.leads leads (Option.some_ne_none _)
    rw [second.grows.folder place leads.standing_eq.symm] at later
    exact ⟨missing, path, among, later⟩

theorem FoldersMade.mono {paths more : List String} (made : before.FoldersMade after paths)
    (among : ∀ path ∈ paths, path ∈ more) : before.FoldersMade after more :=
  ⟨made.grows, fun place changed =>
    (made.made place changed).imp_right fun ⟨path, member, leads⟩ => ⟨path, among path member, leads⟩⟩

theorem exists_blank (parts : List String) :
    ∃ blank, parts = (parts.reverse.dropWhile (· = "")).reverse ++ blank ∧ ∀ name ∈ blank, name = "" := by
  refine ⟨(parts.reverse.takeWhile (· = "")).reverse, ?_, fun name member => ?_⟩
  · rw [← List.reverse_append, List.takeWhile_append_dropWhile, List.reverse_reverse]
  · simpa using List.all_eq_true.mp List.all_takeWhile name (List.mem_reverse.mp member)

theorem makeFolder_ok {path : String} (success : before.makeFolder path = .ok after) :
    before.FoldersMade after [path] := by
  obtain ⟨blank, whole, empty⟩ := exists_blank (pathParts path)
  unfold makeFolder at success
  generalize ((pathParts path).reverse.dropWhile (· = "")).reverse = parts at success whole
  rcases located : before.locateParts path parts with error | ⟨place, _ | entry⟩ <;> simp only [located] at success
  · cases success
  · cases success
    obtain ⟨openable, follows⟩ := locateParts_ok_iff.mp ⟨none, located, rfl⟩
    have missing : before.standing? place = none := follows.standing_eq.symm
    obtain ⟨front, name, rfl, around⟩ := follows.around (by simp) (by simp)
    obtain ⟨grows, here, elsewhere⟩ := put_changes Entry.bare_folder around (.inl missing)
    refine ⟨grows, fun place changed => ?_⟩
    by_cases same : place = front ++ [name]
    · subst same
      -- The new folder is where the path leads without the slashes behind it, and these lead on to the same place.
      have onward := follows_blank (by rw [List.reverse_reverse, here]; rfl) empty
      rw [List.reverse_reverse] at onward
      have walked := (grows.follows_made follows rfl here).append onward
      refine ⟨missing, path, List.mem_singleton.mpr rfl, leads_iff.mpr ⟨openable, ?_⟩⟩
      rw [whole, names_append, grows.names]
      exact walked
    · exact absurd (elsewhere place same) changed
  · cases success

theorem ensureFolder_ok {path : String} (success : before.ensureFolder path = .ok after) :
    before.FoldersMade after [path] := by
  unfold ensureFolder at success
  split at success
  · cases success
    exact makeFolder_ok ‹_›
  · split at success
    · cases success
      exact foldersMade_refl _ _
    · cases success

theorem makeFoldersIn_made (tree : FileTree) (paths : List String) :
    tree.FoldersMade (tree.makeFoldersIn paths).2 paths := by
  induction paths generalizing tree with
  | nil => exact foldersMade_refl _ _
  | cons path parents ih =>
    have first : ∀ {before after : FileTree}, before.ensureFolder path = .ok after →
        before.FoldersMade after (path :: parents) := fun success =>
      (ensureFolder_ok success).mono fun _ member => List.mem_cons.mpr (.inl (List.mem_singleton.mp member))
    have parents := (ih tree).mono fun _ member => List.mem_cons_of_mem path member
    unfold makeFoldersIn
    split
    · exact foldersMade_refl _ _
    · split
      · exact first ‹_›
      · split
        · rename_i around making
          rw [making] at parents
          split
          · exact parents.trans (first ‹_›)
          · exact parents
        · exact parents
      · exact foldersMade_refl _ _

theorem makeFolders_made (tree : FileTree) (path : String) :
    tree.FoldersMade (tree.makeFolders path).2 (path :: parentPaths path) :=
  tree.makeFoldersIn_made _

theorem writeFile_ok {folder name : String} {content : FileContent} (plain : PlainName name)
    (success : before.writeFile (joinPath folder name) content = .ok after) :
    before.Grows after ∧ ∃ place, after.Leads (joinPath folder name) place (some (.file content)) ∧
      ∀ other, other ≠ place → after.standing? other = before.standing? other := by
  have written : ∃ place standing, before.Leads (joinPath folder name) place standing ∧
      (standing = none ∨ ∃ old, standing = some (.file old)) ∧ after = before.put place (.file content) := by
    unfold writeFile at success
    split at success
    · cases success
    · cases success
    · rename_i place held? other located
      cases success
      refine ⟨place, held?.map Entry.standing, ⟨held?, located, rfl⟩, ?_, rfl⟩
      rcases held? with _ | entries | old
      · exact .inl rfl
      · exact absurd rfl (other entries)
      · exact .inr ⟨old, rfl⟩
  obtain ⟨place, standing, leads, free, rfl⟩ := written
  have other : standing ≠ some .folder := by
    rcases free with rfl | ⟨old, rfl⟩ <;> simp
  obtain ⟨front, last, rfl, around⟩ := leads.around other
  rw [leads.standing_eq] at free
  obtain ⟨grows, here, elsewhere⟩ :=
    put_changes (Entry.bare_file content) around (free.imp_right fun ⟨old, file⟩ => ⟨old, content, file, rfl⟩)
  obtain ⟨names, joined⟩ := before.exists_leads_joinPath_iff folder
  obtain ⟨openable, inner, follows, place, short, -⟩ := (joined rfl plain).mp leads
  have inside := grows.follows follows (Option.some_ne_none _)
  rw [grows.folder inner follows.standing_eq.symm] at inside
  exact ⟨grows, front ++ [last], (joined grows.home plain).mpr ⟨openable, inner, inside, place, short, here.symm⟩,
    elsewhere⟩

end AmosBasic.FileTree
