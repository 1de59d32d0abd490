import AmosBasic.Proofs.Export.Run

namespace AmosBasic

def FileTree.Inside (tree : FileTree) (inner outer : String) : Prop :=
  ∃ path ∈ inner :: parentPaths inner, ∃ place, tree.Leads path place (some .folder) ∧
    tree.Leads outer place (some .folder)

/-- A name of ASCII letters, digits and underscores with one of the two endings. In that of a raw bank, what comes
behind the number has no underscore at its ends. -/
structure SafeName (name : String) : Prop where
  plain : PlainName name
  spelled : ∃ stem ending, name = stem ++ ending ∧ stem ≠ "" ∧ (∀ character ∈ stem.toList, FileSafe character) ∧
    (ending = ".png" ∨ ending = ".bin")
  trimmed : "Bank_".toList <+: name.toList → ∃ number part, name = "Bank_" ++ number ++ "_" ++ part ++ ".bin" ∧
    (∀ character ∈ number.toList, character.isDigit = true) ∧
      part.toList.head? ≠ some '_' ∧ part.toList.getLast? ≠ some '_'

namespace ExportedFile

theorem trimmed {file : ExportedFile} (begins : "Bank_".toList <+: file.name.toList) :
    ∃ number part, file.name = "Bank_" ++ number ++ "_" ++ part ++ ".bin" ∧
      (∀ character ∈ number.toList, character.isDigit = true) ∧
        part.toList.head? ≠ some '_' ∧ part.toList.getLast? ≠ some '_' := by
  obtain ⟨rest, same⟩ := begins
  cases file with
  | image kind => cases kind <;> simp [name, stem, ImageKind.fileMark] at same
  | picture => simp [name, stem] at same
  | raw header payload =>
    exact ⟨zeroFilled 2 (toString header.number.toNat), fileSafeName header.nameText, rfl,
      fun _ => isDigit_of_mem_zeroFilled, fileSafeName_bounds header.nameText⟩

theorem safeName (file : ExportedFile) : SafeName file.name where
  plain := file.plain
  spelled := ⟨file.stem, file.ending, rfl, fun empty => file.stem_ne_empty (String.toList_eq_nil_iff.mpr empty),
    fun _ => fileSafe_of_mem_stem, file.ending_cases⟩
  trimmed := trimmed

theorem folder_cases (output : OutputOptions) (file : ExportedFile) :
    file.folder output = output.imageFolder ∨ file.folder output = output.dataFolder := by
  cases file with
  | image => exact .inl rfl
  | picture | raw => exact .inr rfl

end ExportedFile

variable {output : OutputOptions} {contents : List BankContent} {file : ExportedFile}

theorem folder_of_no_images
    (none : ∀ content ∈ contents, ∀ kind, ∀ image ∈ content.imagesOf kind, image.raster.isEmpty = true)
    (member : file ∈ exportedFiles [] contents) : file.folder output = output.dataFolder := by
  obtain ⟨front, content, back, rfl, made⟩ := mem_exportedFiles member
  cases content with
  | images kind bank =>
    obtain ⟨image, number, among, something, -⟩ := BankContent.mem_exportedImages.mp made
    have held : image ∈ (BankContent.images kind bank).imagesOf kind := by
      rw [BankContent.imagesOf, if_pos rfl]
      exact List.fst_mem_of_mem_zipIdx among
    have nothing := none _ (List.mem_append_right front List.mem_cons_self) kind image held
    rw [something] at nothing
    cases nothing
  | picture | raw =>
    cases List.mem_singleton.mp made
    rfl

theorem folder_of_no_memory (none : ∀ content ∈ contents, content.number? = none)
    (member : file ∈ exportedFiles [] contents) : file.folder output = output.imageFolder := by
  obtain ⟨front, content, back, rfl, made⟩ := mem_exportedFiles member
  cases content with
  | images kind bank =>
    obtain ⟨_, _, -, -, rfl⟩ := BankContent.mem_exportedImages.mp made
    rfl
  | picture | raw => cases none _ (List.mem_append_right front List.mem_cons_self)

theorem FilesMade.stood {before after : FileTree} {tried made : List ExportedFile}
    (files : FilesMade output before after tried made) {outer : String}
    (apart : ∀ file ∈ tried, ¬ after.Inside (file.folder output) outer) {place : List String}
    (leads : after.Leads outer place (some .folder)) : before.standing? place = some .folder := by
  refine Decidable.byContradiction fun missing => ?_
  have changed : after.standing? place ≠ before.standing? place := by
    rw [← leads.standing_eq]
    exact Ne.symm missing
  rcases files.changed place changed with ⟨_, -, _, written⟩ | ⟨-, file, member, path, among, way⟩
  · cases leads.standing_eq.trans written.standing_eq.symm
  · exact apart file member ⟨path, among, place, way, leads⟩

def triedFiles (contents : List BankContent) (final : Machine Exporter) : List ExportedFile :=
  (exportedFiles [] contents).take (final.receiver.files.size + 1)

/-- What a run may have opened, and changed in the tree, that came to certain banks. -/
structure ExportConfined (output : OutputOptions) (tree : FileTree) (contents : List BankContent)
    (final : Machine Exporter) : Prop where
  opened : ∀ path, Note.writing path ∈ final.notes ∨ path ∈ final.receiver.files →
    ∃ file ∈ triedFiles contents final, path = joinPath (file.folder output) file.name ∧
      (file.folder output = output.imageFolder ∨ file.folder output = output.dataFolder) ∧ SafeName file.name
  changed : ∀ place, final.receiver.tree.standing? place ≠ tree.standing? place →
    (∃ file ∈ triedFiles contents final, ∃ content,
      final.receiver.tree.Leads (file.path output) place (some (.file content))) ∨
    tree.standing? place = none ∧ ∃ file ∈ triedFiles contents final,
      ∃ path ∈ file.folder output :: parentPaths (file.folder output),
        final.receiver.tree.Leads path place (some .folder)
  noImages : (∀ content ∈ contents, ∀ kind, ∀ image ∈ content.imagesOf kind, image.raster.isEmpty = true) →
    ¬ final.receiver.tree.Inside output.dataFolder output.imageFolder →
      ∀ place, final.receiver.tree.Leads output.imageFolder place (some .folder) →
        tree.standing? place = some .folder
  noMemory : (∀ content ∈ contents, content.number? = none) →
    ¬ final.receiver.tree.Inside output.imageFolder output.dataFolder →
      ∀ place, final.receiver.tree.Leads output.dataFolder place (some .folder) →
        tree.standing? place = some .folder

/-- However a run ends, it has opened no files but safe names in the two folders, and has changed nothing but files of
such names and the folders that they need, with those around them. A folder for which nothing was met is not made,
unless the other one is in it or is the same. -/
theorem export_confined (options : DecodeOptions) (sourceOnly : Bool) (source : Source) (listing : Listing)
    (output : OutputOptions) (tree : FileTree) :
    ∃ (lines : List Line) (contents : List BankContent),
      sinkCalls Exporter.receive options sourceOnly (.fresh source (.fresh listing output tree)) =
        lines.map .line ++ contents.map .bank ∧
      ExportConfined output tree contents
        (decode Exporter.receive options sourceOnly (.fresh source (.fresh listing output tree))).2 := by
  obtain ⟨lines, contents, made, calls, run⟩ := decode_exports options sourceOnly source listing output tree
  generalize (decode Exporter.receive options sourceOnly (.fresh source (.fresh listing output tree))) = ran at run
  have count : made.length = ran.2.receiver.files.size := by
    rw [← Array.length_toList, run.files, List.length_map]
  have files := run.tree
  have opened := run.opened
  rw [count] at files opened
  have further : ∀ file ∈ made, file ∈ triedFiles contents ran.2 := by
    intro file member
    rw [List.prefix_iff_eq_take.mp run.first, count] at member
    exact List.take_subset_take_left _ (Nat.le_succ _) member
  refine ⟨lines, contents, calls, ?_, ?_, ?_, ?_⟩
  · intro path member
    have tried : ∃ file ∈ triedFiles contents ran.2, file.path output = path := by
      rcases member with noted | written
      · exact opened path noted
      · rw [← Array.mem_toList_iff, run.files] at written
        obtain ⟨file, among, same⟩ := List.mem_map.mp written
        exact ⟨file, further file among, same⟩
    obtain ⟨file, among, rfl⟩ := tried
    exact ⟨file, among, rfl, file.folder_cases output, file.safeName⟩
  · intro place changed
    exact (files.changed place changed).imp_left fun ⟨file, member, written⟩ => ⟨file, further file member, written⟩
  · intro none apart place leads
    refine files.stood (fun file member => ?_) leads
    rwa [folder_of_no_images none (List.mem_of_mem_take member)]
  · intro none apart place leads
    refine files.stood (fun file member => ?_) leads
    rwa [folder_of_no_memory none (List.mem_of_mem_take member)]

end AmosBasic
