import AmosBasic.Proofs.Export.Plan
import AmosBasic.Proofs.FileTree.Growth

namespace AmosBasic

namespace ExportedFile

variable {output : OutputOptions} {path : String} {files front back : List ExportedFile} {file : ExportedFile}

theorem folder_eq_of_name_eq {other : ExportedFile} (same : file.name = other.name) :
    file.folder output = other.folder output := by
  have alike := name_eq_iff.mp same
  cases file <;> cases other <;> first | rfl | exact alike.elim

theorem path_eq_iff {other : ExportedFile} : file.path output = other.path output ↔ file.name = other.name := by
  constructor
  · exact joinPath_inj file.plain.single other.plain.single
  · intro same
    rw [path, path, folder_eq_of_name_eq same, same]

def latest? (output : OutputOptions) (path : String) (files : List ExportedFile) : Option ExportedFile :=
  files.reverse.find? fun file => file.path output = path

theorem latest?_append :
    latest? output path (front ++ back) = (latest? output path back).or (latest? output path front) := by
  rw [latest?, List.reverse_append, List.find?_append]
  rfl

theorem latest?_eq_none_iff : latest? output path files = none ↔ ∀ file ∈ files, file.path output ≠ path := by
  simp [latest?]

theorem mem_of_latest? (found : latest? output path files = some file) : file ∈ files ∧ file.path output = path :=
  ⟨List.mem_reverse.mp (List.mem_of_find?_eq_some found), by simpa using List.find?_some found⟩

theorem exists_latest? (member : file ∈ files) : ∃ other, latest? output (file.path output) files = some other := by
  apply Option.ne_none_iff_exists'.mp
  intro none
  exact latest?_eq_none_iff.mp none file member rfl

end ExportedFile

open ExportedFile

/-- Files have been made, and folders for those that were tried. Nothing else has changed. -/
structure FilesMade (output : OutputOptions) (before after : FileTree) (tried made : List ExportedFile) : Prop where
  grows : before.Grows after
  holds : ∀ path file, latest? output path made = some file → after.find path = .ok (.file file.content)
  changed : ∀ place, after.standing? place ≠ before.standing? place →
    (∃ file ∈ made, ∃ content, after.Leads (file.path output) place (some (.file content))) ∨
      before.standing? place = none ∧ ∃ file ∈ tried, ∃ path ∈ file.folder output :: parentPaths (file.folder output),
        after.Leads path place (some .folder)

section

variable {output : OutputOptions} {before middle after : FileTree} {tried made : List ExportedFile}

theorem filesMade_refl (output : OutputOptions) (tree : FileTree) : FilesMade output tree tree [] [] :=
  ⟨.refl tree, nofun, fun _ changed => absurd rfl changed⟩

theorem FilesMade.mono {more : List ExportedFile} (files : FilesMade output before after tried made)
    (among : ∀ file ∈ tried, file ∈ more) : FilesMade output before after more made :=
  ⟨files.grows, files.holds, fun place changed =>
    (files.changed place changed).imp_right fun ⟨missing, file, member, leads⟩ =>
      ⟨missing, file, among file member, leads⟩⟩

theorem FilesMade.kept {file : ExportedFile} {place : List String} {content : FileContent}
    (later : FilesMade output before after tried made)
    (leads : before.Leads (file.path output) place (some (.file content)))
    (single : ∀ other ∈ made, other.path output ≠ file.path output) :
    after.Leads (file.path output) place (some (.file content)) := by
  have behind := later.grows.leads leads (Option.some_ne_none _)
  have same : after.standing? place = before.standing? place := by
    -- What changed there would be a file of the same name, so of the same path, or a folder where nothing was before.
    refine Decidable.byContradiction fun changed => ?_
    rcases later.changed place changed with ⟨other, member, _, otherLeads⟩ | ⟨missing, -⟩
    · obtain ⟨inner, here⟩ := behind.place_joinPath file.plain
      obtain ⟨otherInner, there⟩ := otherLeads.place_joinPath other.plain
      have names : other.name = file.name :=
        List.singleton_inj.mp (List.append_inj' (there.symm.trans here) rfl).2
      exact single other member (path_eq_iff.mpr names)
    · rw [← leads.standing_eq] at missing
      cases missing
  rw [same, ← leads.standing_eq] at behind
  exact behind

theorem FilesMade.trans {moreTried moreMade : List ExportedFile} (first : FilesMade output before middle tried made)
    (second : FilesMade output middle after moreTried moreMade) :
    FilesMade output before after (tried ++ moreTried) (made ++ moreMade) where
  grows := first.grows.trans second.grows
  holds path file found := by
    rw [latest?_append] at found
    cases later : latest? output path moreMade with
    | some other =>
      rw [later] at found
      cases found
      exact second.holds path file later
    | none =>
      rw [later] at found
      obtain ⟨place, leads⟩ := FileTree.find_eq_file_iff.mp (first.holds path file found)
      obtain ⟨-, rfl⟩ := mem_of_latest? found
      exact FileTree.find_eq_file_iff.mpr ⟨place, second.kept leads (latest?_eq_none_iff.mp later)⟩
  changed place changed := by
    by_cases same : middle.standing? place = before.standing? place
    · rw [← same] at changed ⊢
      rcases second.changed place changed with ⟨file, member, leads⟩ | ⟨missing, file, member, leads⟩
      · exact .inl ⟨file, List.mem_append_right _ member, leads⟩
      · exact .inr ⟨missing, file, List.mem_append_right _ member, leads⟩
    · rcases first.changed place same with ⟨file, member, content, leads⟩ | ⟨missing, file, member, path, among, leads⟩
      · have behind := second.grows.leads leads (Option.some_ne_none _)
        obtain ⟨other, there⟩ := second.grows.file place content leads.standing_eq.symm
        rw [there] at behind
        exact .inl ⟨file, List.mem_append_left _ member, other, behind⟩
      · have behind := second.grows.leads leads (Option.some_ne_none _)
        rw [second.grows.folder place leads.standing_eq.symm] at behind
        exact .inr ⟨missing, file, List.mem_append_left _ member, path, among, behind⟩

theorem filesMade_of_folders {file : ExportedFile}
    (folders : before.FoldersMade after (file.folder output :: parentPaths (file.folder output))) :
    FilesMade output before after [file] [] where
  grows := folders.grows
  holds := nofun
  changed place changed := by
    obtain ⟨missing, path, among, leads⟩ := folders.made place changed
    exact .inr ⟨missing, file, List.mem_singleton.mpr rfl, path, among, leads⟩

theorem filesMade_of_file {file : ExportedFile}
    (success : before.writeFile (file.path output) file.content = .ok after) :
    FilesMade output before after [] [file] := by
  obtain ⟨grows, place, leads, others⟩ := FileTree.writeFile_ok file.plain success
  refine ⟨grows, fun path other found => ?_, fun other changed => ?_⟩
  · obtain ⟨member, rfl⟩ := mem_of_latest? found
    cases List.mem_singleton.mp member
    exact FileTree.find_eq_file_iff.mpr ⟨place, leads⟩
  · by_cases here : other = place
    · subst here
      exact .inl ⟨file, List.mem_singleton.mpr rfl, file.content, leads⟩
    · exact absurd (others other here) changed

end

end AmosBasic
