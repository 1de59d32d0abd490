import AmosBasic.Proofs.Export.Names

namespace AmosBasic

namespace ExportedFile

/-- An image keeps its size, its colors and its pixels. A picture is not unpacked, and only its colors are kept. -/
def content : ExportedFile → FileContent
  | image _ _ raster => .image ⟨raster.width, raster.height, raster.colorTable, raster.rows⟩
  | picture _ packed => .image ⟨1, 1, packed.screen.palette.colorTable 1, [[0]]⟩
  | raw _ payload => .bytes payload

def Replaces : ExportedFile → ExportedFile → Prop
  | picture header _, picture other _ => header.number = other.number
  | raw header _, raw other _ =>
    header.number = other.number ∧ fileSafeName header.nameText = fileSafeName other.nameText
  | _, _ => False

def Ascends : ExportedFile → ExportedFile → Prop
  | image kind number _, image other otherNumber _ => kind = other → number < otherNumber
  | _, _ => True

theorem Ascends.alike_iff {file other : ExportedFile} (ascends : file.Ascends other) :
    file.Alike other ↔ file.Replaces other := by
  cases file with
  | image kind number raster =>
    cases other with
    | image otherKind otherNumber otherRaster =>
      constructor
      · rintro ⟨rfl, rfl⟩
        exact absurd (ascends rfl) (Nat.lt_irrefl _)
      · exact False.elim
    | picture | raw => exact Iff.rfl
  | picture | raw => cases other <;> exact Iff.rfl

end ExportedFile

namespace BankContent

def imagesOf (kind : ImageKind) : BankContent → List BankImage
  | images other bank => if other = kind then bank.images else []
  | picture .. | raw .. => []

def number? : BankContent → Option UInt16
  | images .. => none
  | picture header _ | raw header _ => some header.number

def countImages (contents : List BankContent) (kind : ImageKind) : Nat :=
  (contents.flatMap (imagesOf kind)).length

def exportedImages (kind : ImageKind) (first : Nat) (images : List BankImage) : List ExportedFile :=
  (images.zipIdx first).filterMap fun (image, number) =>
    if image.raster.isEmpty then none else some (.image kind number image.raster)

def exported (earlier : List BankContent) : BankContent → List ExportedFile
  | images kind bank => exportedImages kind (countImages earlier kind + 1) bank.images
  | picture header packed => [.picture header packed]
  | raw header payload => [.raw header payload]

theorem countImages_append (earlier later : List BankContent) (kind : ImageKind) :
    countImages (earlier ++ later) kind = countImages earlier kind + countImages later kind := by
  simp [countImages]

theorem countImages_singleton (content : BankContent) (kind : ImageKind) :
    countImages [content] kind = (content.imagesOf kind).length := by
  simp [countImages]

theorem mem_exportedImages {kind : ImageKind} {first : Nat} {images : List BankImage} {file : ExportedFile} :
    file ∈ exportedImages kind first images ↔ ∃ image number, (image, number) ∈ images.zipIdx first ∧
      image.raster.isEmpty = false ∧ file = .image kind number image.raster := by
  simp only [exportedImages, List.mem_filterMap, Prod.exists]
  refine exists_congr fun image => exists_congr fun number => and_congr_right fun _ => ?_
  cases image.raster.isEmpty <;> simp [eq_comm]

theorem exportedImages_cons (kind : ImageKind) (first : Nat) (image : BankImage) (images : List BankImage) :
    exportedImages kind first (image :: images) =
      (if image.raster.isEmpty then [] else [.image kind first image.raster]) ++
        exportedImages kind (first + 1) images := by
  cases empty : image.raster.isEmpty <;> simp [exportedImages, empty]

theorem exportedImages_ascend (kind : ImageKind) (first : Nat) (images : List BankImage) :
    (exportedImages kind first images).Pairwise ExportedFile.Ascends := by
  have upwards : (images.zipIdx first).Pairwise fun image other => image.2 < other.2 := by
    rw [← List.pairwise_map (f := Prod.snd), List.zipIdx_map_snd]
    exact List.pairwise_lt_range'
  refine upwards.filterMap _ fun image other less file made otherFile otherMade => ?_
  dsimp only at made otherMade
  split at made
  · cases made
  · split at otherMade
    · cases otherMade
    · cases made
      cases otherMade
      exact fun _ => less

theorem exported_numbers {earlier : List BankContent} {content : BankContent} {kind : ImageKind} {number : Nat}
    {raster : Raster} (member : .image kind number raster ∈ content.exported earlier) :
    countImages earlier kind < number ∧ number ≤ countImages (earlier ++ [content]) kind := by
  cases content with
  | images other bank =>
    obtain ⟨image, place, among, -, same⟩ := mem_exportedImages.mp member
    cases same
    obtain ⟨least, most, -⟩ := List.mem_zipIdx among
    rw [countImages_append, countImages_singleton, imagesOf, if_pos rfl]
    omega
  | picture | raw => simp [exported] at member

end BankContent

open BankContent

def exportedFiles (earlier : List BankContent) : List BankContent → List ExportedFile
  | [] => []
  | content :: contents => content.exported earlier ++ exportedFiles (earlier ++ [content]) contents

variable {earlier contents : List BankContent} {file : ExportedFile}

theorem mem_exportedFiles (member : file ∈ exportedFiles earlier contents) :
    ∃ front content back, contents = front ++ content :: back ∧ file ∈ content.exported (earlier ++ front) := by
  induction contents generalizing earlier with
  | nil => cases member
  | cons content contents ih =>
    rcases List.mem_append.mp member with first | later
    · exact ⟨[], content, contents, rfl, by rwa [List.append_nil]⟩
    · obtain ⟨front, other, back, rfl, among⟩ := ih later
      exact ⟨content :: front, other, back, rfl, by rwa [List.append_assoc] at among⟩

theorem ascends_of_later {content : BankContent} {later : ExportedFile} (member : file ∈ content.exported earlier)
    (among : later ∈ exportedFiles (earlier ++ [content]) contents) : file.Ascends later := by
  obtain ⟨front, other, back, rfl, made⟩ := mem_exportedFiles among
  cases file with
  | image kind number raster =>
    cases later with
    | image otherKind otherNumber otherRaster =>
      rintro rfl
      have most := (exported_numbers member).2
      have least := (exported_numbers made).1
      rw [countImages_append (earlier ++ [content])] at least
      omega
    | picture | raw => exact trivial
  | picture | raw => exact trivial

theorem exportedFiles_ascend (earlier contents : List BankContent) :
    (exportedFiles earlier contents).Pairwise ExportedFile.Ascends := by
  induction contents generalizing earlier with
  | nil => exact .nil
  | cons content contents ih =>
    refine List.pairwise_append.mpr ⟨?_, ih _, fun file member later among => ascends_of_later member among⟩
    cases content with
    | images kind bank => exact exportedImages_ascend kind _ bank.images
    | picture | raw => exact List.pairwise_singleton _ _

/-- Two files of one export share a name if they are the same kind of memory bank, with the same number and, where the
bank is not a picture, the same safe name. -/
theorem exportedFiles_names (contents : List BankContent) :
    (exportedFiles [] contents).Pairwise fun file other => file.name = other.name ↔ file.Replaces other :=
  (exportedFiles_ascend [] contents).imp fun ascends => ExportedFile.name_eq_iff.trans ascends.alike_iff

end AmosBasic
