import AmosBasic.Proofs.Export.Run
import Mathlib.Data.List.Nodup

namespace AmosBasic

open ExportedFile

def ExportedFile.number? : ExportedFile → Option UInt16
  | image .. => none
  | picture header _ | raw header _ => some header.number

theorem ExportedFile.Replaces.number {file other : ExportedFile} (replaces : file.Replaces other) :
    ∃ number, file.number? = some number ∧ other.number? = some number := by
  cases file with
  | image => exact replaces.elim
  | picture header =>
    cases other with
    | picture => exact ⟨header.number, rfl, congrArg some replaces.symm⟩
    | image | raw => exact replaces.elim
  | raw header =>
    cases other with
    | raw => exact ⟨header.number, rfl, congrArg some replaces.1.symm⟩
    | image | picture => exact replaces.elim

theorem filterMap_number_exported (earlier : List BankContent) (content : BankContent) :
    (content.exported earlier).filterMap ExportedFile.number? = content.number?.toList := by
  cases content with
  | images kind bank =>
    refine List.filterMap_eq_nil_iff.mpr fun file member => ?_
    obtain ⟨_, _, -, -, rfl⟩ := BankContent.mem_exportedImages.mp member
    rfl
  | picture | raw => rfl

theorem filterMap_number_exportedFiles (earlier contents : List BankContent) :
    (exportedFiles earlier contents).filterMap ExportedFile.number? = contents.filterMap BankContent.number? := by
  induction contents generalizing earlier with
  | nil => rfl
  | cons content contents ih =>
    rw [exportedFiles, List.filterMap_append, filterMap_number_exported, ih, List.filterMap_cons]
    cases content.number? <;> rfl

theorem exportedFiles_paths (output : OutputOptions) (contents : List BankContent) :
    (exportedFiles [] contents).Pairwise fun file other =>
      file.path output = other.path output ↔ file.Replaces other :=
  (exportedFiles_names contents).imp fun names => path_eq_iff.trans names

theorem nodup_paths (output : OutputOptions) {contents : List BankContent}
    (distinct : (contents.filterMap BankContent.number?).Nodup) :
    ((exportedFiles [] contents).map (path output)).Nodup := by
  rw [← filterMap_number_exportedFiles []] at distinct
  have apart := List.pairwise_filterMap.mp distinct
  refine List.pairwise_map.mpr (((exportedFiles_paths output contents).and apart).imp ?_)
  rintro file other ⟨replaces, different⟩ same
  obtain ⟨number, here, there⟩ := (replaces.mp same).number
  exact different number here number there rfl

theorem latest?_of_nodup {output : OutputOptions} {files : List ExportedFile}
    (distinct : (files.map (path output)).Nodup) {file : ExportedFile} (member : file ∈ files) :
    latest? output (file.path output) files = some file := by
  obtain ⟨other, latest⟩ := exists_latest? member
  obtain ⟨among, same⟩ := mem_of_latest? latest
  rw [latest, List.inj_on_of_nodup_map distinct among member same]

/-- Of two files that one run made, the later is written over the earlier if and only if both come from packed pictures
with one number, or from raw banks with one number and one safe name. So nothing is lost if the memory banks have
different numbers. -/
theorem export_overwrites_only_twins (options : DecodeOptions) (sourceOnly : Bool) (source : Source) (listing : Listing)
    (output : OutputOptions) (tree : FileTree) :
    let run := decode Exporter.receive options sourceOnly (.fresh source (.fresh listing output tree))
    ∃ (lines : List Line) (contents : List BankContent) (made : List ExportedFile),
      sinkCalls Exporter.receive options sourceOnly (.fresh source (.fresh listing output tree)) =
        lines.map .line ++ contents.map .bank ∧
      made <+: exportedFiles [] contents ∧ run.2.receiver.files.toList = made.map (path output) ∧
      (∀ summary, run.1 = .ok summary → made = exportedFiles [] contents) ∧
      made.Pairwise (fun file other => file.path output = other.path output ↔ file.Replaces other) ∧
      ((contents.filterMap BankContent.number?).Nodup → run.2.receiver.files.toList.Nodup ∧
        ∀ file ∈ made, run.2.receiver.tree.find (file.path output) = .ok (.file file.content)) := by
  intro run
  obtain ⟨lines, contents, made, calls, exported⟩ := decode_exports options sourceOnly source listing output tree
  refine ⟨lines, contents, made, calls, exported.first, exported.files, ?_, ?_, fun distinct => ?_⟩
  · exact fun summary success => (exported.whole summary success).1
  · exact (exportedFiles_paths output contents).sublist exported.first.sublist
  · have apart : (made.map (path output)).Nodup :=
      (nodup_paths output distinct).sublist (exported.first.map (path output)).sublist
    refine ⟨exported.files ▸ apart, fun file member => ?_⟩
    exact exported.tree.holds _ file (latest?_of_nodup apart member)

end AmosBasic
