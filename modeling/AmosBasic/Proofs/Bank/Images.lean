import AmosBasic.Proofs.Bank.Grammar
import AmosBasic.Proofs.Reading.Passage

namespace AmosBasic

open Reading

theorem Raster.bytesPerRow_words (widthWords : Nat) : bytesPerRow (16 * widthWords) = 2 * widthWords := by
  unfold bytesPerRow
  omega

theorem Raster.planarSize_words (widthWords height depth : Nat) :
    planarSize (16 * widthWords) height depth = 2 * widthWords * height * depth := by
  rw [planarSize, planeSize, bytesPerRow_words]

namespace StoredImage

theorem encode_eq (image : StoredImage) :
    image.encode = bigEndianBytes 2 image.widthWords ++ (bigEndianBytes 2 image.height ++
      (bigEndianBytes 2 image.depth ++ (bigEndianBytes 2 image.hotspotX ++
        (bigEndianBytes 2 image.hotspotY ++ image.planes)))) := by
  simp [encode, wordBytes]

def planar (image : StoredImage) : PlanarImage :=
  { width := 16 * image.widthWords, height := image.height, depth := image.depth, hotspotX := image.hotspotX,
    hotspotY := image.hotspotY, planes := image.planes }

def raster (image : StoredImage) (palette : Palette) : Raster :=
  { width := 16 * image.widthWords, height := image.height, depth := image.depth, palette,
    pixels := Raster.planarPixels (16 * image.widthWords) image.height image.depth image.planes }

def colored (palette : Palette) (image : StoredImage) : BankImage :=
  { hotspotX := image.hotspotX, hotspotY := image.hotspotY, raster := image.raster palette }

theorem WellFormed.ofPlanar_eq {image : StoredImage} (wellFormed : image.WellFormed) (palette : Palette) :
    Raster.ofPlanar (16 * image.widthWords) image.height image.depth image.planes palette =
      .ok (image.raster palette) := by
  have depth := wellFormed.depth
  have shallow : ¬ (image.depth < 1 ∨ Palette.maxDepth < image.depth) := by omega
  have enough : ¬ image.planes.length <
      Raster.planarSize (16 * image.widthWords) image.height image.depth := by
    rw [Raster.planarSize_words, wellFormed.planes]
    exact Nat.lt_irrefl _
  simp only [Raster.ofPlanar, shallow, if_false, enough]
  rfl

end StoredImage

variable {α : Type} {start stop : Place} {bytes : List UInt8} {handed : List Delivery} {value : α}

theorem passes_planarImage_bind {index : Nat} {next : PlanarImage → Reading α} :
    Passes (PlanarImage.reading index >>= next) start bytes handed stop value ↔
      ∃ (image : StoredImage) (rest : List UInt8), bytes = image.encode ++ rest ∧ image.WellFormed ∧
        Passes (next image.planar) (start.behind image.encode.length) rest handed stop value := by
  simp only [PlanarImage.reading, LawfulMonad.bind_assoc, passes_word_bind, passes_currentPosition_bind]
  constructor
  · intro passage
    obtain ⟨widthWords, _, rfl, widthFits, height, _, rfl, heightFits, depth, _, rfl, depthFits, passage⟩ := passage
    by_cases deep : depth < 1 ∨ Palette.maxDepth < depth
    · rw [if_pos deep] at passage
      cases passage
    · rw [if_neg deep] at passage
      simp only [LawfulMonad.bind_assoc, passes_word_bind, passes_bytes_bind, passes_remark_bind,
        LawfulMonad.pure_bind, Place.behind_behind] at passage
      obtain ⟨hotspotX, _, rfl, xFits, hotspotY, _, rfl, yFits, planes, rest, rfl, filled, after⟩ := passage
      have range : 1 ≤ depth ∧ depth ≤ Palette.maxDepth := by omega
      have wellFormed : StoredImage.WellFormed ⟨widthWords, height, depth, hotspotX, hotspotY, planes⟩ := by
        refine ⟨?_, range, filled⟩
        simp only [List.forall_mem_cons]
        exact ⟨widthFits, heightFits, depthFits, xFits, yFits, by simp⟩
      refine ⟨_, rest, ?_, wellFormed, ?_⟩
      · simp only [StoredImage.encode_eq, List.append_assoc]
      · rw [StoredImage.length_encode, filled]
        exact after
  · intro stored
    obtain ⟨image, rest, rfl, wellFormed, after⟩ := stored
    have fits := wellFormed.words
    have depth := wellFormed.depth
    simp only [List.forall_mem_cons] at fits
    obtain ⟨widthFits, heightFits, depthFits, xFits, yFits, -⟩ := fits
    have shallow : ¬ (image.depth < 1 ∨ Palette.maxDepth < image.depth) := by omega
    rw [image.encode_eq]
    simp only [List.append_assoc]
    refine ⟨_, _, rfl, widthFits, _, _, rfl, heightFits, _, _, rfl, depthFits, ?_⟩
    rw [if_neg shallow]
    simp only [LawfulMonad.bind_assoc, passes_word_bind, passes_bytes_bind, passes_remark_bind,
      LawfulMonad.pure_bind, Place.behind_behind]
    refine ⟨_, _, rfl, xFits, _, _, rfl, yFits, _, _, rfl, wellFormed.planes, ?_⟩
    rw [image.length_encode, wellFormed.planes] at after
    exact after

theorem passes_planarImages_bind {count index : Nat} {read : List PlanarImage}
    {next : List PlanarImage → Reading α} :
    Passes (ImageBank.planarReading count index read >>= next) start bytes handed stop value ↔
      ∃ (images : List StoredImage) (rest : List UInt8), bytes = images.flatMap StoredImage.encode ++ rest ∧
        images.length = count ∧ (∀ image ∈ images, image.WellFormed) ∧
        Passes (next (read.reverse ++ images.map StoredImage.planar))
          (start.behind (images.flatMap StoredImage.encode).length) rest handed stop value := by
  induction count generalizing index read start bytes with
  | zero =>
    simp only [ImageBank.planarReading, LawfulMonad.pure_bind, List.length_eq_zero_iff]
    constructor
    · intro passage
      refine ⟨[], bytes, rfl, rfl, by simp, ?_⟩
      simpa [Place.behind] using passage
    · intro stored
      obtain ⟨_, rest, rfl, rfl, -, passage⟩ := stored
      simpa [Place.behind] using passage
  | succ count ih =>
    simp only [ImageBank.planarReading, LawfulMonad.bind_assoc, passes_planarImage_bind, ih, List.reverse_cons,
      List.append_assoc, List.singleton_append, Place.behind_behind]
    constructor
    · intro passage
      obtain ⟨image, _, rfl, first, images, rest, rfl, rfl, others, passage⟩ := passage
      refine ⟨image :: images, rest, ?_, rfl, List.forall_mem_cons.mpr ⟨first, others⟩, ?_⟩
      · rw [List.flatMap_cons, List.append_assoc]
      · rw [List.flatMap_cons, List.length_append]
        exact passage
    · intro stored
      obtain ⟨_ | ⟨image, images⟩, rest, rfl, size, all, passage⟩ := stored
      · cases size
      · obtain ⟨first, others⟩ := List.forall_mem_cons.mp all
        rw [List.flatMap_cons, List.length_append] at passage
        refine ⟨image, _, ?_, first, images, rest, rfl, Nat.succ.inj size, others, passage⟩
        rw [List.flatMap_cons, List.append_assoc]

/-- Coloring never fails, since the planes of every image are all there. -/
theorem passes_coloring_bind {images : List StoredImage} (wellFormed : ∀ image ∈ images, image.WellFormed)
    {palette : Palette} {colored : List BankImage} {next : List BankImage → Reading α} :
    Passes (ImageBank.coloring palette (images.map StoredImage.planar) colored >>= next) start bytes handed stop
        value ↔
      Passes (next (colored.reverse ++ images.map (StoredImage.colored palette))) start bytes handed stop value := by
  induction images generalizing colored with
  | nil => simp [ImageBank.coloring]
  | cons image images ih =>
    obtain ⟨first, others⟩ := List.forall_mem_cons.mp wellFormed
    have same : Raster.ofPlanar image.planar.width image.planar.height image.planar.depth image.planar.planes palette =
        .ok (image.raster palette) := first.ofPlanar_eq palette
    simp only [List.map_cons, ImageBank.coloring, PlanarImage.coloring, Raster.convert, same, LawfulMonad.bind_assoc,
      passes_remarks_bind, LawfulMonad.pure_bind, ih others, List.reverse_cons, List.append_assoc,
      List.singleton_append]
    rfl

theorem passes_imageBank_bind {next : ImageBank → Reading α} :
    Passes (ImageBank.reading >>= next) start bytes handed stop value ↔
      ∃ (images : List StoredImage) (palette rest : List UInt8),
        bytes = bigEndianBytes 2 images.length ++ (images.flatMap StoredImage.encode ++ (palette ++ rest)) ∧
        images.length < 2 ^ 16 ∧ (∀ image ∈ images, image.WellFormed) ∧ palette.length = Palette.size ∧
        Passes (next ⟨images.map (StoredImage.colored (.decode palette)), .decode palette⟩)
          (start.behind (2 + (images.flatMap StoredImage.encode).length + palette.length)) rest handed stop value := by
  simp only [ImageBank.reading, LawfulMonad.bind_assoc, passes_word_bind, passes_remark_bind,
    passes_planarImages_bind, passes_bytes_bind, LawfulMonad.pure_bind, Place.behind_behind, List.reverse_nil,
    List.nil_append]
  constructor
  · intro passage
    obtain ⟨_, _, rfl, fits, images, _, rfl, rfl, wellFormed, palette, rest, rfl, filled, passage⟩ := passage
    rw [passes_coloring_bind wellFormed] at passage
    exact ⟨images, palette, rest, rfl, fits, wellFormed, filled, filled ▸ passage⟩
  · intro stored
    obtain ⟨images, palette, rest, rfl, fits, wellFormed, filled, passage⟩ := stored
    rw [filled] at passage
    refine ⟨_, _, rfl, fits, images, _, rfl, rfl, wellFormed, palette, rest, rfl, filled, ?_⟩
    rw [passes_coloring_bind wellFormed]
    exact passage

end AmosBasic
