import AmosBasic.Proofs.Decoding.Answers
import AmosBasic.Proofs.Export.Answers

namespace AmosBasic

def Exporter.fresh (listing : Listing) (output : OutputOptions) (tree : FileTree) : Exporter :=
  { listing, options := output, tree }

structure ExportRun (listing : Listing) (output : OutputOptions) (tree : FileTree) (lines : List Line)
    (contents : List BankContent) (made : List ExportedFile) (run : Except DecodeError Summary × Machine Exporter) :
    Prop where
  files : run.2.receiver.files.toList = made.map (ExportedFile.path output)
  first : made <+: exportedFiles [] contents
  tree : FilesMade output tree run.2.receiver.tree ((exportedFiles [] contents).take (made.length + 1)) made
  opened : ∀ path, Note.writing path ∈ run.2.notes →
    ∃ file ∈ (exportedFiles [] contents).take (made.length + 1), file.path output = path
  whole : ∀ summary, run.1 = .ok summary → made = exportedFiles [] contents ∧
    run.2.receiver.listing.text = listing.text ++ Exporter.listedText lines

section

variable {σ : Type} (sink : Sink σ) (options : DecodeOptions) (sourceOnly : Bool) (source : Source) (receiver : σ)

theorem sinkCalls_cases : ∃ (lines : List Line) (contents : List BankContent),
    sinkCalls sink options sourceOnly (.fresh source receiver) = lines.map .line ++ contents.map .bank := by
  obtain ⟨lines, banks, _, _, handed, -⟩ := decodeOutcome_handed options sourceOnly (Machine.fresh source ()).view
  have front := sinkCalls_front sink options sourceOnly source receiver
  rw [handed, deliveries] at front
  refine ⟨lines.take (sinkCalls sink options sourceOnly (.fresh source receiver)).length,
    (banks.map Bank.content).take
      ((sinkCalls sink options sourceOnly (.fresh source receiver)).length - lines.length), ?_⟩
  rw [List.map_take, List.map_take]
  have cut := List.prefix_iff_eq_take.mp front
  rw [List.take_append, List.length_map] at cut
  exact cut

variable {sink options sourceOnly source receiver}

theorem sound_of_sinkCalls {lines : List Line} {contents : List BankContent}
    (calls : sinkCalls sink options sourceOnly (.fresh source receiver) = lines.map .line ++ contents.map .bank) :
    ∀ content ∈ contents, Exporter.Sound content := by
  intro content member raster shown
  refine wellFormed_of_delivered sink options sourceOnly source receiver ?_ shown
  rw [calls]
  exact List.mem_append_right _ (List.mem_map_of_mem member)

end

theorem give_exports (listing : Listing) (output : OutputOptions) (tree : FileTree) (lines : List Line)
    {contents : List BankContent} (sound : ∀ content ∈ contents, Exporter.Sound content) :
    ∃ longer made,
      Exporter.Exports { Exporter.fresh listing output tree with listing := longer } (exportedFiles [] contents) made
        (BankContent.countImages contents)
        (Sink.give Exporter.receive (.fresh listing output tree) (lines.map .line ++ contents.map .bank)) ∧
      ((Sink.give Exporter.receive (.fresh listing output tree)
          (lines.map .line ++ contents.map .bank)).refusal = none →
        longer.text = listing.text ++ Exporter.listedText lines) := by
  have lists := Exporter.give_lines_lists lines (.fresh listing output tree)
  rw [Sink.give_append]
  generalize Sink.give Exporter.receive (.fresh listing output tree) (lines.map .line) = behind at lists
  obtain ⟨longer, kept⟩ := lists.kept
  have uncounted : behind.receiver.count = BankContent.countImages [] := by
    rw [kept]
    funext kind
    cases kind <;> rfl
  have nothing := Exporter.exports_nothing kept (by simp [lists.silent])
  obtain ⟨made, exports⟩ := nothing.andThen fun _ => Exporter.give_banks_exports sound uncounted
  refine ⟨longer, made, exports, fun accepted => ?_⟩
  have listed := lists.listed (Receipt.accepted_of_andThen accepted)
  rw [kept] at listed
  exact listed

theorem decode_exports (options : DecodeOptions) (sourceOnly : Bool) (source : Source) (listing : Listing)
    (output : OutputOptions) (tree : FileTree) :
    ∃ lines contents made,
      sinkCalls Exporter.receive options sourceOnly (.fresh source (.fresh listing output tree)) =
        lines.map .line ++ contents.map .bank ∧
      ExportRun listing output tree lines contents made
        (decode Exporter.receive options sourceOnly (.fresh source (.fresh listing output tree))) := by
  obtain ⟨received, notes, accepted⟩ :=
    decode_given Exporter.receive options sourceOnly source (.fresh listing output tree)
  obtain ⟨lines, contents, calls⟩ :=
    sinkCalls_cases Exporter.receive options sourceOnly source (.fresh listing output tree)
  obtain ⟨longer, made, exports, listed⟩ := give_exports listing output tree lines (sound_of_sinkCalls calls)
  rw [calls] at received notes accepted
  refine ⟨lines, contents, made, calls, ?_, exports.first, ?_, ?_, ?_⟩
  · rw [received, exports.files]
    rfl
  · rw [received]
    exact exports.tree
  · intro path member
    rcases notes _ member with foreign | answer
    · exact absurd rfl foreign
    · exact exports.opened path answer
  · intro summary success
    refine ⟨exports.whole (accepted summary success), ?_⟩
    rw [received, exports.listing]
    exact listed (accepted summary success)

end AmosBasic
