import AmosBasic.Proofs.Bank.Acceptance
import AmosBasic.Proofs.Decoding.Refusal
import AmosBasic.Proofs.Decoding.RoundTrip
import AmosBasic.Proofs.Raster

namespace AmosBasic

open Reading

theorem StoredImage.WellFormed.raster {image : StoredImage} (wellFormed : image.WellFormed) (palette : Palette) :
    (image.raster palette).WellFormed := by
  have words := wellFormed.words
  have width := words image.widthWords (by simp)
  have height := words image.height (by simp)
  exact Raster.wellFormed_of_ofPlanar ⟨by omega, by omega⟩ (wellFormed.ofPlanar_eq palette)

theorem PackedPicture.raster_wellFormed (picture : PackedPicture) :
    ∃ raster, picture.raster.1 = .ok raster ∧ raster.WellFormed := by
  -- One pixel of one plane stands in for the picture, so the planes are never short.
  have enough : ∃ raster, Raster.ofPlanar 1 1 1 [0] picture.screen.palette = .ok raster := ⟨_, rfl⟩
  obtain ⟨raster, made⟩ := enough
  refine ⟨raster, ?_, Raster.wellFormed_of_ofPlanar ⟨by decide, by decide⟩ made⟩
  simp only [PackedPicture.raster, Raster.convert, made]

/-- The raster is among the images of a bank, or stands in for a packed picture. -/
def Delivery.Shows (raster : Raster) : Delivery → Prop
  | .bank (.images _ stored) => ∃ image ∈ stored.images, image.raster = raster
  | .bank (.picture _ picture) => picture.raster.1 = .ok raster
  | _ => False

theorem StoredBank.WellFormed.shows {bank : StoredBank} (wellFormed : bank.WellFormed) {raster : Raster}
    (shown : (Delivery.bank bank.content).Shows raster) : raster.WellFormed := by
  cases bank with
  | images kind stored palette =>
    obtain ⟨_, member, rfl⟩ := shown
    obtain ⟨image, among, rfl⟩ := List.mem_map.mp member
    exact (wellFormed.2.1 image among).raster _
  | memory number chip sizeField name payload =>
    rcases (MemoryHeader.ofFields number chip sizeField name).content_eq payload with
      ⟨-, -, picture, -, same⟩ | ⟨-, same⟩
    · rw [content, same] at shown
      obtain ⟨_, made, sound⟩ := picture.raster_wellFormed
      cases made.symm.trans shown
      exact sound
    · rw [content, same] at shown
      exact shown.elim

theorem Reading.Repeats.stored_banks {view stop : View} {banks : List Bank}
    (reads : Repeats Bank.reading view banks stop) :
    ∀ bank ∈ banks, ∃ stored : StoredBank, stored.WellFormed ∧ bank.content = stored.content := by
  induction reads with
  | nil => exact fun _ none => absurd none List.not_mem_nil
  | cons came _ ih =>
    rw [List.forall_mem_cons]
    refine ⟨?_, ih⟩
    obtain ⟨bytes, -, -, passage⟩ := passes_of_outcome came
    rw [← bind_pure Bank.reading, passes_bank_bind] at passage
    obtain ⟨-, stored, rest, -, wellFormed, passage⟩ := passage
    obtain ⟨-, -, -, rfl⟩ := passes_pure.mp passage
    exact ⟨stored, wellFormed, rfl⟩

theorem wellFormed_of_delivered {σ : Type} (sink : Sink σ) (options : DecodeOptions) (sourceOnly : Bool)
    (source : Source) (receiver : σ) {delivery : Delivery}
    (delivered : delivery ∈ sinkCalls sink options sourceOnly (.fresh source receiver)) {raster : Raster}
    (shown : delivery.Shows raster) : raster.WellFormed := by
  obtain ⟨lines, banks, _, _, handed, reads⟩ := decodeOutcome_handed options sourceOnly (Machine.fresh source ()).view
  have member := (sinkCalls_front sink options sourceOnly source receiver).subset delivered
  rw [handed, deliveries, List.mem_append, List.mem_map, List.mem_map] at member
  rcases member with ⟨line, -, rfl⟩ | ⟨content, member, rfl⟩
  · exact shown.elim
  · obtain ⟨bank, among, rfl⟩ := List.mem_map.mp member
    obtain ⟨stored, storedWell, same⟩ := reads.stored_banks bank among
    rw [same] at shown
    exact storedWell.shows shown

/-- Every raster that decoding hands over, in a bank of images or in place of a packed picture, is sound, and so it is
under any other palette. A packed picture always has one. -/
theorem delivered_rasters_sound {σ : Type} (sink : Sink σ) (options : DecodeOptions) (sourceOnly : Bool)
    (source : Source) (receiver : σ) {delivery : Delivery}
    (delivered : delivery ∈ sinkCalls sink options sourceOnly (.fresh source receiver)) :
    (∀ raster, delivery.Shows raster → raster.Sound ∧ ∀ palette, (raster.withPalette palette).Sound) ∧
      ∀ header picture, delivery = .bank (.picture header picture) → ∃ raster, delivery.Shows raster := by
  constructor
  · intro raster shown
    have wellFormed := wellFormed_of_delivered sink options sourceOnly source receiver delivered shown
    exact ⟨wellFormed.sound, fun palette => (wellFormed.withPalette palette).sound⟩
  · rintro header picture rfl
    obtain ⟨raster, made, -⟩ := picture.raster_wellFormed
    exact ⟨raster, made⟩

theorem delivered_rasters_sound_sprite :
    let sprite : StoredImage := ⟨1, 1, 1, 0, 0, [0x80, 0x01]⟩
    let draft : FileDraft :=
      { variant := HeaderVariant.known[1], lines := [], banks := [.images .sprites [sprite] (List.replicate 64 0)] }
    ∃ delivery ∈ sinkCalls Sink.discard {} false (.fresh { bytes := draft.encode } ()),
      ∃ raster, delivery.Shows raster ∧ raster.width = 16 ∧ raster.isEmpty = false ∧ raster.Sound := by
  intro sprite draft
  have valid : draft.Valid := ⟨by decide, by decide, by decide, by decide, by decide⟩
  have calls := valid.sinkCalls_eq {} (fun _ _ => rfl : ∀ receiver delivery,
    (Sink.discard receiver delivery).refusal = none) ()
  have handed : draft.bankDeliveries = [StoredBank.content (.images .sprites [sprite] (List.replicate 64 0))] := rfl
  have delivered : .bank (StoredBank.content (.images .sprites [sprite] (List.replicate 64 0))) ∈
      sinkCalls Sink.discard {} false (.fresh { bytes := draft.encode } ()) := by
    rw [calls, handed]
    exact List.mem_append_right _ (List.mem_singleton.mpr rfl)
  have shown : Delivery.Shows (sprite.raster (.decode (List.replicate 64 0)))
      (.bank (StoredBank.content (.images .sprites [sprite] (List.replicate 64 0)))) :=
    ⟨_, List.mem_singleton.mpr rfl, rfl⟩
  obtain ⟨sound, -⟩ := delivered_rasters_sound Sink.discard {} false { bytes := draft.encode } () delivered
  exact ⟨_, delivered, _, shown, rfl, rfl, (sound _ shown).1⟩

end AmosBasic
