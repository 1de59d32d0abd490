import AmosBasic.Proofs.Bank.Contents
import AmosBasic.Proofs.Reading.Keeping
import AmosBasic.Proofs.Reading.Supply

namespace AmosBasic

open Reading

/-- The front of a bank in which it turns out to be damaged. -/
inductive DamagedBank : List UInt8 → Prop
  | tag {tag : List UInt8} (four : tag.length = 4) (unknown : ∀ type : BankType, tag ≠ type.tag) : DamagedBank tag
  | size (number chip : Nat) {sizeField : Nat} (fits : sizeField < 2 ^ 32)
      (short : sizeField % 2 ^ 28 < memoryBankNameSize) :
      DamagedBank (BankType.memory.tag ++ (bigEndianBytes 2 number ++ (bigEndianBytes 2 chip ++
        bigEndianBytes 4 sizeField)))
  | depth (kind : ImageKind) (widthWords height : Nat) {count depth : Nat} {images : List StoredImage}
      (countFits : count < 2 ^ 16) (further : images.length < count) (wellFormed : ∀ image ∈ images, image.WellFormed)
      (depthFits : depth < 2 ^ 16) (impossible : depth < 1 ∨ Palette.maxDepth < depth) :
      DamagedBank (kind.type.tag ++ (bigEndianBytes 2 count ++ (images.flatMap StoredImage.encode ++
        (bigEndianBytes 2 widthWords ++ (bigEndianBytes 2 height ++ bigEndianBytes 2 depth)))))

section

variable (start : Place)

theorem passes_bankType (type : BankType) : Passes BankType.reading start type.tag [] (start.behind 4) type := by
  rw [← bind_pure BankType.reading, passes_bankType_bind]
  exact ⟨type, [], (List.append_nil _).symm, .done⟩

theorem passes_memoryHeader {number chip sizeField : Nat} {name : List UInt8}
    (fits : number < 2 ^ 16 ∧ chip < 2 ^ 16 ∧ sizeField < 2 ^ 32) (named : name.length = memoryBankNameSize)
    (long : memoryBankNameSize ≤ sizeField % 2 ^ 28) :
    Passes MemoryHeader.reading start
      (bigEndianBytes 2 number ++ (bigEndianBytes 2 chip ++ (bigEndianBytes 4 sizeField ++ name))) []
      ⟨start.position + 16, { start.progress with currentBank? := some (UInt16.ofNat number) }⟩
      (.ofFields number chip sizeField name) := by
  obtain ⟨numberFits, chipFits, sizeFits⟩ := fits
  rw [← bind_pure MemoryHeader.reading, passes_memoryHeader_bind]
  refine ⟨number, chip, sizeField, name, [], ?_, numberFits, chipFits, sizeFits, named, long, .done⟩
  rw [List.append_nil]

theorem passes_planarImage {image : StoredImage} (wellFormed : image.WellFormed) (index : Nat) :
    Passes (PlanarImage.reading index) start image.encode [] (start.behind image.encode.length) image.planar := by
  rw [← bind_pure (PlanarImage.reading index), passes_planarImage_bind]
  exact ⟨image, [], (List.append_nil _).symm, wellFormed, .done⟩

theorem StoredBank.WellFormed.passes {bank : StoredBank} (wellFormed : bank.WellFormed) :
    Passes BankContent.reading start bank.encode [] (bank.behind start) bank.content := by
  rw [← bind_pure BankContent.reading, passes_content_bind]
  exact ⟨bank, [], (List.append_nil _).symm, wellFormed, .done⟩

variable (ending : Ending)

theorem outcome_content_of_memory (rest : List UInt8) :
    BankContent.reading.outcome ⟨BankType.memory.tag ++ rest, ending, start⟩ =
      (MemoryHeader.reading >>= fun header => Reading.bytes header.size >>= fun payload =>
        BankContent.ofPayload header payload).outcome ⟨rest, ending, start.behind 4⟩ :=
  outcome_bind_of_passes (passes_bankType start .memory) rest ending

theorem outcome_content_of_images (kind : ImageKind) (rest : List UInt8) :
    BankContent.reading.outcome ⟨kind.type.tag ++ rest, ending, start⟩ =
      (ImageBank.reading >>= fun bank => pure (.images kind bank)).outcome ⟨rest, ending, start.behind 4⟩ := by
  cases kind with
  | sprites => exact outcome_bind_of_passes (passes_bankType start .sprite) rest ending
  | icons => exact outcome_bind_of_passes (passes_bankType start .icon) rest ending

theorem outcome_planarReading_of_depth {images : List StoredImage} {left depth : Nat}
    (index widthWords height : Nat) (read : List PlanarImage) (further : images.length < left)
    (wellFormed : ∀ image ∈ images, image.WellFormed) (fits : depth < 2 ^ 16)
    (impossible : depth < 1 ∨ Palette.maxDepth < depth) (rest : List UInt8) :
    (ImageBank.planarReading left index read).outcome
      ⟨images.flatMap StoredImage.encode ++ (bigEndianBytes 2 widthWords ++ (bigEndianBytes 2 height ++
        (bigEndianBytes 2 depth ++ rest))), ending, start⟩ =
      ⟨.error (.corruptStream (some (start.position + (images.flatMap StoredImage.encode).length + 4))
          (.bankImageDepth depth (index + images.length))), [],
        ⟨rest, ending, start.behind ((images.flatMap StoredImage.encode).length + 6)⟩⟩ := by
  induction images generalizing left index read start with
  | nil =>
    cases left with
    | zero => exact absurd further (Nat.lt_irrefl 0)
    | succ left =>
      have same : bigEndian (bigEndianBytes 2 depth) = depth := bigEndian_bigEndianBytes_of_lt fits
      have image : (PlanarImage.reading index).outcome
          ⟨bigEndianBytes 2 widthWords ++ (bigEndianBytes 2 height ++ (bigEndianBytes 2 depth ++ rest)), ending,
            start⟩ = ⟨.error (.corruptStream (some (start.position + 4)) (.bankImageDepth depth index)), [],
            ⟨rest, ending, start.behind 6⟩⟩ := by
        rw [PlanarImage.reading, outcome_word_bind_of_append (length_bigEndianBytes 2 widthWords),
          outcome_word_bind_of_append (length_bigEndianBytes 2 height), outcome_currentPosition_bind,
          outcome_word_bind_of_append (length_bigEndianBytes 2 depth), same, if_pos impossible]
        rfl
      rw [ImageBank.planarReading]
      exact outcome_bind_of_error image
  | cons image images ih =>
    obtain ⟨first, others⟩ := List.forall_mem_cons.mp wellFormed
    cases left with
    | zero => cases further
    | succ left =>
      have later := ih (start.behind image.encode.length) (index + 1) (image.planar :: read)
        (Nat.lt_of_succ_lt_succ further) others
      have passage := passes_planarImage start first index
      rw [ImageBank.planarReading, List.flatMap_cons, List.append_assoc, outcome_bind_of_passes passage, later,
        Place.behind_behind, List.length_append, List.length_cons, Place.behind_position]
      simp only [Nat.add_assoc, Nat.add_comm, Nat.add_left_comm]

theorem outcome_imageBank_of_depth {images : List StoredImage} {count depth : Nat} (widthWords height : Nat)
    (countFits : count < 2 ^ 16) (further : images.length < count) (wellFormed : ∀ image ∈ images, image.WellFormed)
    (fits : depth < 2 ^ 16) (impossible : depth < 1 ∨ Palette.maxDepth < depth) (rest : List UInt8) :
    ImageBank.reading.outcome ⟨bigEndianBytes 2 count ++ (images.flatMap StoredImage.encode ++
        (bigEndianBytes 2 widthWords ++ (bigEndianBytes 2 height ++ (bigEndianBytes 2 depth ++ rest)))), ending,
        start⟩ =
      ⟨.error (.corruptStream (some (start.position + 2 + (images.flatMap StoredImage.encode).length + 4))
          (.bankImageDepth depth images.length)), [],
        ⟨rest, ending, start.behind (2 + ((images.flatMap StoredImage.encode).length + 6))⟩⟩ := by
  have same : bigEndian (bigEndianBytes 2 count) = count := bigEndian_bigEndianBytes_of_lt countFits
  have fails := outcome_planarReading_of_depth (start.behind 2) ending 0 widthWords height [] further wellFormed fits
    impossible rest
  rw [Nat.zero_add, Place.behind_behind] at fails
  rw [ImageBank.reading, outcome_word_bind_of_append (length_bigEndianBytes 2 count), same, outcome_remark_bind]
  exact outcome_bind_of_error fails

theorem DamagedBank.outcome_content {piece : List UInt8} (damaged : DamagedBank piece) :
    ∃ error, ∀ rest, BankContent.reading.outcome ⟨piece ++ rest, ending, start⟩ =
      ⟨.error error, [], ⟨rest, ending, start.behind piece.length⟩⟩ := by
  cases damaged with
  | tag four unknown =>
    refine ⟨.corruptStream (some start.position) (.unknownBankType piece), fun rest => ?_⟩
    have untyped : BankType.ofTag? piece = none := by
      cases found : BankType.ofTag? piece with
      | none => rfl
      | some type => exact absurd (BankType.ofTag?_eq_some_iff.mp found) (unknown type)
    have type : BankType.reading.outcome ⟨piece ++ rest, ending, start⟩ =
        ⟨.error (.corruptStream (some start.position) (.unknownBankType piece)), [],
          ⟨rest, ending, start.behind 4⟩⟩ := by
      rw [BankType.reading, outcome_currentPosition_bind, outcome_bytes_bind_of_append four, untyped]
      rfl
    rw [four]
    exact outcome_bind_of_error type
  | @size number chip sizeField fits short =>
    refine ⟨.corruptStream (some (start.position + 4)) (.shortMemoryBank (bigEndian (bigEndianBytes 2 number))
      (sizeField % 2 ^ 28)), fun rest => ?_⟩
    have same : bigEndian (bigEndianBytes 4 sizeField) = sizeField := bigEndian_bigEndianBytes_of_lt fits
    have header : MemoryHeader.reading.outcome ⟨bigEndianBytes 2 number ++ (bigEndianBytes 2 chip ++
        (bigEndianBytes 4 sizeField ++ rest)), ending, start.behind 4⟩ =
        ⟨.error (.corruptStream (some (start.position + 4)) (.shortMemoryBank (bigEndian (bigEndianBytes 2 number))
          (sizeField % 2 ^ 28))), [], ⟨rest, ending, start.behind 12⟩⟩ := by
      rw [MemoryHeader.reading, outcome_currentPosition_bind,
        outcome_word_bind_of_append (length_bigEndianBytes 2 number),
        outcome_word_bind_of_append (length_bigEndianBytes 2 chip),
        outcome_word_bind_of_append (length_bigEndianBytes 4 sizeField), same, if_pos short]
      rfl
    simp only [List.append_assoc]
    rw [outcome_content_of_memory, outcome_bind_of_error header]
    simp only [List.length_append, StoredBank.length_tag, length_bigEndianBytes]
  | @depth kind widthWords height count depth images countFits further wellFormed depthFits impossible =>
    refine ⟨.corruptStream (some ((start.behind 4).position + 2 + (images.flatMap StoredImage.encode).length + 4))
      (.bankImageDepth depth images.length), fun rest => ?_⟩
    have bank := outcome_imageBank_of_depth (start.behind 4) ending widthWords height countFits further wellFormed
      depthFits impossible rest
    simp only [List.append_assoc]
    rw [outcome_content_of_images, outcome_bind_of_error bank]
    simp only [Place.behind_behind, List.length_append, StoredBank.length_tag, length_bigEndianBytes]

end

section

variable {bytes : List UInt8}

theorem planarImage_front {index : Nat} (goesOn : ¬ (PlanarImage.reading index).RunsOut bytes) :
    (∃ (image : StoredImage) (rest : List UInt8), image.WellFormed ∧ bytes = image.encode ++ rest) ∨
    ∃ (widthWords height depth : Nat) (rest : List UInt8), depth < 2 ^ 16 ∧ (depth < 1 ∨ Palette.maxDepth < depth) ∧
      bytes = bigEndianBytes 2 widthWords ++ (bigEndianBytes 2 height ++ (bigEndianBytes 2 depth ++ rest)) := by
  obtain ⟨widthWords, _, widthFits, rfl, behindWidth⟩ := word_of_not_runsOut goesOn
  obtain ⟨height, _, heightFits, rfl, behindHeight⟩ := word_of_not_runsOut behindWidth
  obtain ⟨_, atDepth⟩ := position_of_not_runsOut behindHeight
  obtain ⟨depth, rest, depthFits, rfl, behindDepth⟩ := word_of_not_runsOut atDepth
  by_cases impossible : depth < 1 ∨ Palette.maxDepth < depth
  · exact .inr ⟨widthWords, height, depth, rest, depthFits, impossible, rfl⟩
  · rw [if_neg impossible] at behindDepth
    obtain ⟨hotspotX, _, xFits, rfl, behindX⟩ := word_of_not_runsOut behindDepth
    obtain ⟨hotspotY, _, yFits, rfl, behindY⟩ := word_of_not_runsOut behindX
    obtain ⟨planes, rest, filled, rfl, -⟩ := bytes_of_not_runsOut behindY
    refine .inl ⟨⟨widthWords, height, depth, hotspotX, hotspotY, planes⟩, rest, ⟨?_, ?_, filled⟩, ?_⟩
    · simp only [List.forall_mem_cons]
      exact ⟨widthFits, heightFits, depthFits, xFits, yFits, by simp⟩
    · dsimp only
      omega
    · simp only [StoredImage.encode_eq, List.append_assoc]

theorem planarReading_front {left index : Nat} {read : List PlanarImage}
    (goesOn : ¬ (ImageBank.planarReading left index read).RunsOut bytes) :
    (∃ (images : List StoredImage) (rest : List UInt8), images.length = left ∧ (∀ image ∈ images, image.WellFormed) ∧
      bytes = images.flatMap StoredImage.encode ++ rest) ∨
    ∃ (images : List StoredImage) (widthWords height depth : Nat) (rest : List UInt8), images.length < left ∧
      (∀ image ∈ images, image.WellFormed) ∧ depth < 2 ^ 16 ∧ (depth < 1 ∨ Palette.maxDepth < depth) ∧
      bytes = images.flatMap StoredImage.encode ++ (bigEndianBytes 2 widthWords ++ (bigEndianBytes 2 height ++
        (bigEndianBytes 2 depth ++ rest))) := by
  induction left generalizing index read bytes with
  | zero => exact .inl ⟨[], bytes, rfl, by simp, rfl⟩
  | succ left ih =>
    rw [ImageBank.planarReading] at goesOn
    rcases planarImage_front (first_of_not_runsOut goesOn) with ⟨image, rest, wellFormed, rfl⟩ |
        ⟨widthWords, height, depth, rest, fits, impossible, rfl⟩
    · have passes : ∀ start, ∃ stop, Passes (PlanarImage.reading index) start image.encode [] stop image.planar :=
        fun start => ⟨_, passes_planarImage start wellFormed index⟩
      have later := behind_of_not_runsOut passes goesOn
      rcases ih later with ⟨images, rest, rfl, all, rfl⟩ |
          ⟨images, widthWords, height, depth, rest, further, all, fits, impossible, rfl⟩
      · refine .inl ⟨image :: images, rest, rfl, List.forall_mem_cons.mpr ⟨wellFormed, all⟩, ?_⟩
        rw [List.flatMap_cons, List.append_assoc]
      · refine .inr ⟨image :: images, widthWords, height, depth, rest, Nat.succ_lt_succ further,
          List.forall_mem_cons.mpr ⟨wellFormed, all⟩, fits, impossible, ?_⟩
        rw [List.flatMap_cons, List.append_assoc]
    · exact .inr ⟨[], widthWords, height, depth, rest, Nat.succ_pos left, by simp, fits, impossible, rfl⟩

end

def StoredOrDamaged (bytes : List UInt8) : Prop :=
  (∃ (bank : StoredBank) (rest : List UInt8), bank.WellFormed ∧ bytes = bank.encode ++ rest) ∨
    ∃ piece rest, DamagedBank piece ∧ bytes = piece ++ rest

theorem images_front (kind : ImageKind) {bytes : List UInt8} (goesOn : ¬ ImageBank.reading.RunsOut bytes) :
    StoredOrDamaged (kind.type.tag ++ bytes) := by
  obtain ⟨count, _, countFits, rfl, behindCount⟩ := word_of_not_runsOut goesOn
  let coloring := fun planar => Reading.bytes Palette.size >>= fun palette =>
    ImageBank.coloring (.decode palette) planar [] >>= fun images => pure (ImageBank.mk images (.decode palette))
  have loop : ¬ (ImageBank.planarReading count 0 [] >>= coloring).RunsOut _ := behindCount
  rcases planarReading_front (first_of_not_runsOut loop) with ⟨images, rest, rfl, wellFormed, rfl⟩ |
      ⟨images, widthWords, height, depth, rest, further, wellFormed, fits, impossible, rfl⟩
  · have passes : ∀ start, ∃ stop, Passes (ImageBank.planarReading images.length 0 []) start
        (images.flatMap StoredImage.encode) [] stop (images.map StoredImage.planar) := by
      intro start
      rw [← bind_pure (ImageBank.planarReading images.length 0 [])]
      exact ⟨_, passes_planarImages_bind.mpr ⟨images, [], (List.append_nil _).symm, rfl, wellFormed, .done⟩⟩
    have behindImages := behind_of_not_runsOut passes loop
    obtain ⟨palette, rest, filled, rfl, -⟩ := bytes_of_not_runsOut behindImages
    refine .inl ⟨.images kind images palette, rest, ⟨countFits, wellFormed, filled⟩, ?_⟩
    simp only [StoredBank.encode, ImageBank.encode, List.append_assoc]
  · refine .inr ⟨_, rest, .depth kind widthWords height countFits further wellFormed fits impossible, ?_⟩
    simp only [List.append_assoc]

theorem memory_front {bytes : List UInt8}
    (goesOn : ¬ (MemoryHeader.reading >>= fun header => Reading.bytes header.size >>= fun payload =>
      BankContent.ofPayload header payload).RunsOut bytes) : StoredOrDamaged (BankType.memory.tag ++ bytes) := by
  have header := first_of_not_runsOut goesOn
  obtain ⟨_, atNumber⟩ := position_of_not_runsOut header
  obtain ⟨number, _, numberFits, rfl, behindNumber⟩ := word_of_not_runsOut atNumber
  obtain ⟨chip, _, chipFits, rfl, behindChip⟩ := word_of_not_runsOut behindNumber
  obtain ⟨sizeField, rest, sizeFits, rfl, behindSize⟩ := word_of_not_runsOut behindChip
  by_cases short : sizeField % 2 ^ 28 < memoryBankNameSize
  · refine .inr ⟨_, rest, .size number chip sizeFits short, ?_⟩
    simp only [List.append_assoc]
  · rw [if_neg short] at behindSize
    obtain ⟨name, rest, named, rfl, -⟩ := bytes_of_not_runsOut behindSize
    have passes : ∀ start, ∃ stop, Passes MemoryHeader.reading start (bigEndianBytes 2 number ++
        (bigEndianBytes 2 chip ++ (bigEndianBytes 4 sizeField ++ name))) [] stop
        (.ofFields number chip sizeField name) :=
      fun start => ⟨_, passes_memoryHeader start ⟨numberFits, chipFits, sizeFits⟩ named (Nat.not_lt.mp short)⟩
    simp only [← List.append_assoc] at goesOn passes
    have behindHeader := behind_of_not_runsOut passes goesOn
    obtain ⟨payload, rest, filled, rfl, -⟩ := bytes_of_not_runsOut behindHeader
    refine .inl ⟨.memory number chip sizeField name payload, rest, ⟨numberFits, chipFits, sizeFits, named, ?_⟩, ?_⟩
    · simp only [MemoryHeader.ofFields] at filled
      omega
    · simp only [StoredBank.encode, List.append_assoc]

/-- Unless the bytes run out, a bank can be read or is damaged, and there are no other damages. -/
theorem stored_or_damaged {bytes : List UInt8} (goesOn : ¬ BankContent.reading.RunsOut bytes) :
    StoredOrDamaged bytes := by
  obtain ⟨_, atTag⟩ := position_of_not_runsOut (first_of_not_runsOut goesOn)
  obtain ⟨tag, rest, four, rfl, -⟩ := bytes_of_not_runsOut atTag
  cases found : BankType.ofTag? tag with
  | none =>
    refine .inr ⟨tag, rest, .tag four fun type same => ?_, rfl⟩
    rw [BankType.ofTag?_eq_some_iff.mpr same] at found
    cases found
  | some type =>
    cases BankType.ofTag?_eq_some_iff.mp found
    have passes : ∀ start, ∃ stop, Passes BankType.reading start type.tag [] stop type :=
      fun start => ⟨_, passes_bankType start type⟩
    have behindTag := behind_of_not_runsOut passes goesOn
    cases type with
    | sprite => exact images_front .sprites (first_of_not_runsOut behindTag)
    | icon => exact images_front .icons (first_of_not_runsOut behindTag)
    | memory => exact memory_front behindTag

end AmosBasic
