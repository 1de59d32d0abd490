import AmosBasic.Proofs.Decoding.RoundTrip
import AmosBasic.Proofs.Export.Run

namespace AmosBasic

/-- A run that succeeds has handed over all that any other receiver gets. -/
theorem sinkCalls_of_success {σ : Type} {sink : Sink σ} {options : DecodeOptions} {sourceOnly : Bool} {source : Source}
    {receiver : σ} {summary : Summary} {final : Machine σ}
    (success : decode sink options sourceOnly (.fresh source receiver) = (.ok summary, final)) :
    sinkCalls sink options sourceOnly (.fresh source receiver) =
      sinkCalls Sink.discard options sourceOnly (.fresh source ()) := by
  have willing : ∀ receiver delivery, (Sink.discard receiver delivery).refusal = none := fun _ _ => rfl
  obtain ⟨-, due⟩ := sinkCalls_outcome options sourceOnly willing source ()
  rcases decode_cases sink options sourceOnly source receiver with ⟨_, -, -, -, calls⟩ |
    ⟨_, _, _, _, _, -, -, failed, -⟩
  · rw [calls, due]
  · rw [success] at failed
    cases failed

/-- An export that succeeds has made the files of all banks of the stream, in order. Every one of their paths leads to
what the last of the files with this path is to hold, and the listing has got the text of every line. -/
theorem export_writes_all {options : DecodeOptions} {sourceOnly : Bool} {source : Source} {listing : Listing}
    {output : OutputOptions} {tree : FileTree} {summary : Summary} {final : Machine Exporter}
    (success : decode Exporter.receive options sourceOnly (.fresh source (.fresh listing output tree)) =
      (.ok summary, final)) :
    ∃ lines contents,
      sinkCalls Sink.discard options sourceOnly (.fresh source ()) = lines.map .line ++ contents.map .bank ∧
      final.receiver.files.toList = (exportedFiles [] contents).map (ExportedFile.path output) ∧
      (∀ path ∈ final.receiver.files, ∃ file,
        ExportedFile.latest? output path (exportedFiles [] contents) = some file ∧
          final.receiver.tree.find path = .ok (.file file.content)) ∧
      final.receiver.listing.text = listing.text ++ Exporter.listedText lines := by
  obtain ⟨lines, contents, made, calls, run⟩ := decode_exports options sourceOnly source listing output tree
  rw [sinkCalls_of_success success] at calls
  rw [success] at run
  obtain ⟨rfl, text⟩ := run.whole summary rfl
  refine ⟨lines, contents, calls, run.files, fun path member => ?_, text⟩
  rw [← Array.mem_toList_iff, run.files] at member
  obtain ⟨file, among, rfl⟩ := List.mem_map.mp member
  obtain ⟨last, latest⟩ := ExportedFile.exists_latest? among
  exact ⟨last, latest, run.tree.holds _ last latest⟩

theorem export_writes_all_sprite_and_bank :
    let draft : FileDraft :=
      { variant := HeaderVariant.known[1], lines := [⟨2, [.token 0x0476]⟩],
        banks := [.images .sprites [⟨0, 1, 1, 0, 0, []⟩, ⟨1, 1, 1, 0, 0, [0x80, 0x01]⟩] (List.replicate 64 0),
          .memory 5 true 1 (Latin1.encode "Datas   ") [1, 2]] }
    let output : OutputOptions := { imageFolder := "pictures", dataFolder := "data" }
    ∃ summary final,
      decode Exporter.receive {} false (.fresh { bytes := draft.encode } (.fresh {} output {})) = (.ok summary, final) ∧
      final.receiver.files.toList = ["pictures/Sprite_002.png", "data/Bank_05_Datas.bin"] ∧
      ∃ lines contents,
        sinkCalls Sink.discard {} false (.fresh { bytes := draft.encode } ()) = lines.map .line ++ contents.map .bank ∧
        final.receiver.files.toList = (exportedFiles [] contents).map (ExportedFile.path output) ∧
        (∀ path ∈ final.receiver.files, ∃ file,
          ExportedFile.latest? output path (exportedFiles [] contents) = some file ∧
            final.receiver.tree.find path = .ok (.file file.content)) ∧
        final.receiver.listing.text = Listing.text {} ++ Exporter.listedText lines := by
  intro draft output
  have valid : draft.Valid := ⟨by decide, by decide, by decide, by decide, by decide⟩
  have taken : (Exporter.receive.accept? (.fresh {} output {})
      ((draft.lineDeliveries {}).map .line ++ draft.bankDeliveries.map .bank)).map (fun last => last.files.toList) =
        some ["pictures/Sprite_002.png", "data/Bank_05_Datas.bin"] := by decide +kernel
  obtain ⟨last, accepted, files⟩ := Option.map_eq_some_iff.mp taken
  obtain ⟨final, success, rfl⟩ := valid.decode_of_accepted accepted
  exact ⟨_, final, success, files, export_writes_all success⟩

end AmosBasic
