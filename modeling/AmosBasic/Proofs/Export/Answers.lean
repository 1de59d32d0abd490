import AmosBasic.Proofs.Decoding.Rasters
import AmosBasic.Proofs.Export.Making
import AmosBasic.Proofs.Reading.Receiving

namespace AmosBasic

open BankContent

namespace Exporter

def count (exporter : Exporter) : ImageKind → Nat
  | .sprites => exporter.sprites
  | .icons => exporter.icons

/-- The first files of a plan have been made, or all of them and then the images are counted as planned. At most one
more was tried. -/
structure Exports (before : Exporter) (plan made : List ExportedFile) (counts : ImageKind → Nat)
    (receipt : Receipt Exporter) : Prop where
  listing : receipt.receiver.listing = before.listing
  options : receipt.receiver.options = before.options
  counted : receipt.refusal = none → receipt.receiver.count = counts
  files : receipt.receiver.files.toList = before.files.toList ++ made.map (ExportedFile.path before.options)
  first : made <+: plan
  whole : receipt.refusal = none → made = plan
  tree : FilesMade before.options before.tree receipt.receiver.tree (plan.take (made.length + 1)) made
  opened : ∀ path, Note.writing path ∈ receipt.notes →
    ∃ file ∈ plan.take (made.length + 1), file.path before.options = path

section

variable {before : Exporter} {plan made more moreMade : List ExportedFile} {counts moreCounts : ImageKind → Nat}
  {receipt : Receipt Exporter} {next : Exporter → Receipt Exporter}

theorem exports_nothing {exporter : Exporter} (kept : receipt.receiver = exporter)
    (silent : ∀ path, Note.writing path ∉ receipt.notes) : exporter.Exports [] [] exporter.count receipt := by
  subst kept
  exact ⟨rfl, rfl, fun _ => rfl, (List.append_nil _).symm, List.prefix_refl _, fun _ => rfl, filesMade_refl _ _,
    fun path member => absurd member (silent path)⟩

theorem Exports.refused (exports : before.Exports plan made counts receipt) {error : DecodeError}
    (refusal : receipt.refusal = some error) (more : List ExportedFile) (moreCounts : ImageKind → Nat) :
    before.Exports (plan ++ more) made moreCounts receipt := by
  have further : ∀ file ∈ plan.take (made.length + 1), file ∈ (plan ++ more).take (made.length + 1) := by
    intro file member
    rw [List.take_append]
    exact List.mem_append_left _ member
  refine ⟨exports.listing, exports.options, ?_, exports.files, ?_, ?_, exports.tree.mono further, ?_⟩
  · simp [refusal]
  · exact exports.first.trans (List.prefix_append _ _)
  · simp [refusal]
  · intro path member
    obtain ⟨file, among, same⟩ := exports.opened path member
    exact ⟨file, further file among, same⟩

theorem Exports.continued (front : before.Exports plan plan counts receipt) (accepted : receipt.refusal = none)
    (back : receipt.receiver.Exports more moreMade moreCounts (next receipt.receiver)) :
    before.Exports (plan ++ more) (plan ++ moreMade) moreCounts (receipt.andThen next) := by
  have tried : (plan ++ more).take ((plan ++ moreMade).length + 1) =
      plan.take (plan.length + 1) ++ more.take (moreMade.length + 1) := by
    rw [List.length_append, Nat.add_assoc, List.take_length_add_append, List.take_of_length_le (Nat.le_succ _)]
  rw [Receipt.andThen_of_accepted accepted]
  refine ⟨back.listing.trans front.listing, back.options.trans front.options, back.counted, ?_, ?_, ?_, ?_, ?_⟩
  · rw [back.files, front.files, front.options, List.map_append, List.append_assoc]
  · exact (List.prefix_append_right_inj plan).mpr back.first
  · intro whole
    rw [back.whole whole]
  · have later := back.tree
    rw [front.options] at later
    rw [tried]
    exact front.tree.trans later
  · intro path member
    rw [tried]
    rcases List.mem_append.mp member with earlier | later
    · obtain ⟨file, among, same⟩ := front.opened path earlier
      exact ⟨file, List.mem_append_left _ among, same⟩
    · obtain ⟨file, among, same⟩ := back.opened path later
      rw [front.options] at same
      exact ⟨file, List.mem_append_right _ among, same⟩

theorem Exports.andThen (front : before.Exports plan made counts receipt)
    (back : receipt.refusal = none →
      ∃ moreMade, receipt.receiver.Exports more moreMade moreCounts (next receipt.receiver)) :
    ∃ allMade, before.Exports (plan ++ more) allMade moreCounts (receipt.andThen next) := by
  cases answer : receipt.refusal with
  | some error =>
    rw [Receipt.andThen_of_refused answer]
    exact ⟨made, front.refused answer more moreCounts⟩
  | none =>
    obtain ⟨moreMade, back⟩ := back answer
    obtain rfl := front.whole answer
    exact ⟨_, front.continued answer back⟩

end

theorem create_exports (exporter : Exporter) (file : ExportedFile) :
    ∃ made, exporter.Exports [file] made exporter.count
      (exporter.create (file.folder exporter.options) file.name file.content) := by
  have folders := exporter.tree.makeFolders_made (file.folder exporter.options)
  unfold create makeFolders
  rcases making : exporter.tree.makeFolders (file.folder exporter.options) with ⟨error | _, around⟩ <;>
    rw [making] at folders
  · exact ⟨[], rfl, rfl, nofun, (List.append_nil _).symm, List.nil_prefix, nofun, filesMade_of_folders folders, nofun⟩
  · simp only [accept, Receipt.andThen_accept, writeFile]
    have path : joinPath (file.folder exporter.options) file.name = file.path exporter.options := rfl
    rw [path]
    have opened : ∀ other, Note.writing other ∈ [Note.writing (file.path exporter.options)] →
        ∃ tried ∈ [file], tried.path exporter.options = other := by
      intro other member
      cases List.mem_singleton.mp member
      exact ⟨file, List.mem_singleton.mpr rfl, rfl⟩
    cases writing : around.writeFile (file.path exporter.options) file.content with
    | error error =>
      exact ⟨[], rfl, rfl, nofun, (List.append_nil _).symm, List.nil_prefix, nofun, filesMade_of_folders folders,
        opened⟩
    | ok made =>
      refine ⟨[file], rfl, rfl, fun _ => rfl, ?_, List.prefix_refl _, fun _ => rfl, ?_, opened⟩
      · exact Array.toList_push
      · exact (filesMade_of_folders folders).trans (filesMade_of_file writing)

theorem writeImage_of_wellFormed {raster : Raster} (wellFormed : raster.WellFormed) (something : raster.isEmpty = false)
    (folder name : String) (exporter : Exporter) :
    exporter.writeImage folder name raster =
      exporter.create folder name (.image ⟨raster.width, raster.height, raster.colorTable, raster.rows⟩) := by
  have made := wellFormed.ofRaster_ok_iff.mpr ⟨something, rfl⟩
  simp only [writeImage, something, made, Bool.false_eq_true, if_false]

theorem writePicture_eq (header : MemoryHeader) (packed : PackedPicture) (exporter : Exporter) :
    exporter.writePicture header packed = Receipt.andThen { receiver := exporter, notes := [.planar 1 1 1] }
      (create exporter.options.dataFolder (ExportedFile.picture header packed).name
        (ExportedFile.picture header packed).content) := by
  let raster : Raster := ⟨1, 1, 1, #[0], packed.screen.palette⟩
  have same : packed.raster = (.ok raster, [.planar 1 1 1]) := rfl
  have wellFormed : raster.WellFormed := by
    obtain ⟨_, made, wellFormed⟩ := packed.raster_wellFormed
    rw [same] at made
    cases made
    exact wellFormed
  have rows : raster.rows = [[0]] := rfl
  have written := writeImage_of_wellFormed wellFormed rfl exporter.options.dataFolder
    (ExportedFile.picture header packed).name
  rw [rows] at written
  simp only [writePicture, same]
  exact congrArg _ (funext written)

def countOn (exporter : Exporter) (kind : ImageKind) (count : Nat) : ImageKind → Nat := fun other =>
  exporter.count other + if kind = other then count else 0

theorem writeBankImage_exports (kind : ImageKind) {raster : Raster} (wellFormed : raster.WellFormed)
    (exporter : Exporter) :
    ∃ made, exporter.Exports
      (if raster.isEmpty then [] else [.image kind (exporter.count kind + 1) raster]) made (exporter.countOn kind 1)
      (exporter.writeBankImage kind raster) := by
  have counted : (exporter.nextImage kind).2.count = exporter.countOn kind 1 := by
    funext other
    cases kind <;> cases other <;> rfl
  have name : (exporter.nextImage kind).1 = (ExportedFile.image kind (exporter.count kind + 1) raster).name := by
    cases kind <;> rfl
  -- Counting an image changes nothing else of the exporter.
  have other : ∀ {plan made : List ExportedFile} {counts : ImageKind → Nat} {receipt : Receipt Exporter},
      (exporter.nextImage kind).2.Exports plan made counts receipt → exporter.Exports plan made counts receipt := by
    intro plan made counts receipt exports
    cases kind <;>
      exact ⟨exports.listing, exports.options, exports.counted, exports.files, exports.first, exports.whole,
        exports.tree, exports.opened⟩
  have options : (exporter.nextImage kind).2.options = exporter.options := by
    cases kind <;> rfl
  rw [writeBankImage, ← counted]
  dsimp only
  cases something : raster.isEmpty with
  | true =>
    refine ⟨[], other ?_⟩
    simp only [writeImage, something, if_true]
    exact exports_nothing rfl fun path member => by simp at member
  | false =>
    rw [writeImage_of_wellFormed wellFormed something, name]
    obtain ⟨made, exports⟩ := create_exports (exporter.nextImage kind).2 (.image kind (exporter.count kind + 1) raster)
    exact ⟨made, other exports⟩

theorem each_image_exports (kind : ImageKind) {images : List BankImage}
    (wellFormed : ∀ image ∈ images, image.raster.WellFormed) (exporter : Exporter) :
    ∃ made, exporter.Exports (exportedImages kind (exporter.count kind + 1) images) made
      (exporter.countOn kind images.length)
      (Receipt.each (fun image => writeBankImage kind image.raster) images exporter) := by
  induction images generalizing exporter with
  | nil =>
    have counted : exporter.countOn kind 0 = exporter.count := by
      funext other
      simp [countOn]
    rw [List.length_nil, counted]
    exact ⟨[], exports_nothing rfl fun _ => List.not_mem_nil⟩
  | cons image images ih =>
    obtain ⟨first, others⟩ := List.forall_mem_cons.mp wellFormed
    obtain ⟨made, exports⟩ := exporter.writeBankImage_exports kind first
    rw [exportedImages_cons, Receipt.each]
    refine exports.andThen fun accepted => ?_
    obtain ⟨moreMade, later⟩ := ih others (exporter.writeBankImage kind image.raster).receiver
    have counted := exports.counted accepted
    have here : (exporter.writeBankImage kind image.raster).receiver.count kind = exporter.count kind + 1 := by
      simp [counted, countOn]
    have there : (exporter.writeBankImage kind image.raster).receiver.countOn kind images.length =
        exporter.countOn kind (image :: images).length := by
      funext other
      rw [countOn, counted, countOn, countOn, List.length_cons]
      split <;> omega
    rw [here, there] at later
    exact ⟨moreMade, later⟩

def Sound (content : BankContent) : Prop := ∀ raster, (Delivery.bank content).Shows raster → raster.WellFormed

theorem receive_bank_exports {earlier : List BankContent} {content : BankContent} (sound : Sound content)
    {exporter : Exporter} (counted : exporter.count = countImages earlier) :
    ∃ made, exporter.Exports (content.exported earlier) made (countImages (earlier ++ [content]))
      (receive exporter (.bank content)) := by
  cases content with
  | images kind bank =>
    have wellFormed : ∀ image ∈ bank.images, image.raster.WellFormed := fun image member =>
      sound image.raster ⟨image, member, rfl⟩
    have answer : receive exporter (.bank (.images kind bank)) =
        Receipt.each (fun image => writeBankImage kind image.raster) bank.images exporter := by
      rw [receive, Receipt.foldl_andThen]
      exact Receipt.andThen_accept exporter
    have counts : exporter.countOn kind bank.images.length = countImages (earlier ++ [.images kind bank]) := by
      funext other
      rw [countOn, counted, countImages_append, countImages_singleton, imagesOf]
      split <;> rfl
    have exports := each_image_exports kind wellFormed exporter
    rw [counts, counted] at exports
    rw [answer]
    exact exports
  | picture header packed =>
    have counts : exporter.count = countImages (earlier ++ [.picture header packed]) := by
      funext other
      rw [counted, countImages_append, countImages_singleton]
      rfl
    obtain ⟨made, exports⟩ := create_exports exporter (.picture header packed)
    rw [← counts, receive, writePicture_eq]
    have opening : exporter.Exports [] [] exporter.count { receiver := exporter, notes := [.planar 1 1 1] } :=
      exports_nothing rfl (by simp)
    exact opening.andThen fun _ => ⟨made, exports⟩
  | raw header payload =>
    have counts : exporter.count = countImages (earlier ++ [.raw header payload]) := by
      funext other
      rw [counted, countImages_append, countImages_singleton]
      rfl
    rw [← counts]
    exact create_exports exporter (.raw header payload)

theorem give_banks_exports {contents : List BankContent} (sound : ∀ content ∈ contents, Sound content)
    {earlier : List BankContent} {exporter : Exporter} (counted : exporter.count = countImages earlier) :
    ∃ made, exporter.Exports (exportedFiles earlier contents) made (countImages (earlier ++ contents))
      (Sink.give receive exporter (contents.map .bank)) := by
  induction contents generalizing earlier exporter with
  | nil =>
    rw [List.append_nil, ← counted]
    exact ⟨[], exports_nothing rfl fun _ => List.not_mem_nil⟩
  | cons content contents ih =>
    obtain ⟨first, others⟩ := List.forall_mem_cons.mp sound
    obtain ⟨made, exports⟩ := receive_bank_exports first counted
    refine exports.andThen fun accepted => ?_
    have later := ih others (exports.counted accepted)
    rw [List.append_assoc] at later
    exact later

section Lines

theorem text_of_write {listing longer : Listing} {text : String} (written : listing.write text = some longer) :
    longer.text = listing.text ++ text := by
  unfold Listing.write at written
  split at written
  · rename_i empty
    cases written
    rw [String.isEmpty_iff.mp empty, String.append_empty]
  · dsimp only at written
    split at written
    · split at written
      · cases written
      · cases written
        rfl
    · cases written
      rfl

structure Lists (before : Exporter) (text : String) (receipt : Receipt Exporter) : Prop where
  kept : ∃ listing, receipt.receiver = { before with listing }
  silent : receipt.notes = []
  listed : receipt.refusal = none → receipt.receiver.listing.text = before.listing.text ++ text

theorem writeText_lists (text : String) (exporter : Exporter) : exporter.Lists text (exporter.writeText text) := by
  unfold writeText
  cases written : exporter.listing.write text with
  | none => exact ⟨⟨exporter.listing, rfl⟩, rfl, nofun⟩
  | some longer => exact ⟨⟨longer, rfl⟩, rfl, fun _ => text_of_write written⟩

theorem Lists.andThen {before : Exporter} {text more : String} {receipt : Receipt Exporter}
    {next : Exporter → Receipt Exporter} (front : before.Lists text receipt)
    (back : receipt.receiver.Lists more (next receipt.receiver)) :
    before.Lists (text ++ more) (receipt.andThen next) := by
  cases answer : receipt.refusal with
  | some error =>
    rw [Receipt.andThen_of_refused answer]
    exact ⟨front.kept, front.silent, by simp [answer]⟩
  | none =>
    rw [Receipt.andThen_of_accepted answer]
    obtain ⟨listing, kept⟩ := front.kept
    obtain ⟨later, keptLater⟩ := back.kept
    refine ⟨⟨later, ?_⟩, ?_, fun accepted => ?_⟩
    · rw [keptLater, kept]
    · rw [front.silent, back.silent]
      rfl
    · rw [back.listed accepted, front.listed answer, String.append_assoc]

def listedText (lines : List Line) : String := String.join (lines.map fun line => line.text ++ "\n")

theorem give_lines_lists (lines : List Line) (exporter : Exporter) :
    exporter.Lists (listedText lines) (Sink.give receive exporter (lines.map .line)) := by
  induction lines generalizing exporter with
  | nil => exact ⟨⟨exporter.listing, rfl⟩, rfl, fun _ => (String.append_empty).symm⟩
  | cons line lines ih =>
    have whole : listedText (line :: lines) = line.text ++ "\n" ++ listedText lines := by
      rw [listedText, List.map_cons, String.join_cons]
      rfl
    rw [whole]
    exact ((writeText_lists line.text exporter).andThen (writeText_lists "\n" _)).andThen (ih _)

end Lines

end Exporter

end AmosBasic
