import AmosBasic.Proofs.Bank.Payloads

namespace AmosBasic

open Reading

/-- Two streams of one length that differ at these places only. -/
structure AgreesOutside (places : Nat → Prop) (one other : List UInt8) : Prop where
  length : other.length = one.length
  same : ∀ index, ¬ places index → other[index]? = one[index]?

namespace AgreesOutside

variable {places : Nat → Prop} {one other front rest : List UInt8}

theorem mono {more : Nat → Prop} (agrees : AgreesOutside places one other) (all : ∀ index, places index → more index) :
    AgreesOutside more one other :=
  ⟨agrees.length, fun index outside => agrees.same index fun inside => outside (all index inside)⟩

theorem eq (agrees : AgreesOutside places one other) (nowhere : ∀ index < one.length, ¬ places index) :
    other = one := by
  apply List.ext_getElem?
  intro index
  by_cases within : index < one.length
  · exact agrees.same index (nowhere index within)
  · have length := agrees.length
    rw [List.getElem?_eq_none (by omega), List.getElem?_eq_none (by omega)]

theorem split (agrees : AgreesOutside places (front ++ rest) other) :
    ∃ otherFront otherRest, other = otherFront ++ otherRest ∧ AgreesOutside places front otherFront ∧
      AgreesOutside (fun index => places (front.length + index)) rest otherRest := by
  have length := agrees.length
  rw [List.length_append] at length
  refine ⟨other.take front.length, other.drop front.length, (List.take_append_drop _ _).symm, ⟨?_, ?_⟩, ⟨?_, ?_⟩⟩
  · rw [List.length_take]
    omega
  · intro index outside
    by_cases within : index < front.length
    · rw [List.getElem?_take_of_lt within, agrees.same index outside, List.getElem?_append_left within]
    · rw [List.getElem?_eq_none (by rw [List.length_take]; omega), List.getElem?_eq_none (by omega)]
  · rw [List.length_drop]
    omega
  · intro index outside
    rw [List.getElem?_drop, agrees.same _ outside, List.getElem?_append_right (Nat.le_add_right _ _),
      Nat.add_sub_cancel_left]

end AgreesOutside

def bankExtent (bytes : List UInt8) : Nat :=
  (BankContent.reading.outcome ⟨bytes, .finished, ⟨0, {}⟩⟩).view.place.position

def payloadOffset : Nat := 4 + 2 + 2 + 4 + memoryBankNameSize

/-- The places of the payloads in a stream of banks. -/
inductive PayloadAt : List UInt8 → Nat → Prop
  | here {bytes : List UInt8} {index : Nat} (memory : bytes.take 4 = BankType.memory.tag)
      (behindName : payloadOffset ≤ index) (within : index < bankExtent bytes) : PayloadAt bytes index
  | behind {bytes : List UInt8} {index : Nat} (later : PayloadAt (bytes.drop (bankExtent bytes)) index) :
      PayloadAt bytes (bankExtent bytes + index)

theorem PayloadAt.inside {bytes : List UInt8} {index : Nat} (there : PayloadAt bytes index)
    (within : index < bankExtent bytes) : bytes.take 4 = BankType.memory.tag ∧ payloadOffset ≤ index := by
  cases there with
  | here memory behindName _ => exact ⟨memory, behindName⟩
  | behind _ => omega

theorem PayloadAt.of_behind {piece rest : List UInt8} (extent : bankExtent (piece ++ rest) = piece.length)
    {index : Nat} (there : PayloadAt (piece ++ rest) (piece.length + index)) : PayloadAt rest index := by
  generalize sum : piece.length + index = place at there
  cases there with
  | here _ _ within => omega
  | @behind _ beyond later =>
    rw [extent, List.drop_left] at later
    have same : index = beyond := by omega
    rw [same]
    exact later

theorem StoredBank.WellFormed.extent {bank : StoredBank} (wellFormed : bank.WellFormed) (rest : List UInt8) :
    bankExtent (bank.encode ++ rest) = bank.encode.length := by
  rw [bankExtent, outcome_of_passes (wellFormed.passes _)]
  exact Nat.zero_add _

theorem DamagedBank.extent {piece : List UInt8} (damaged : DamagedBank piece) (rest : List UInt8) :
    bankExtent (piece ++ rest) = piece.length := by
  obtain ⟨error, fails⟩ := damaged.outcome_content ⟨0, {}⟩ .finished
  rw [bankExtent, fails]
  exact Nat.zero_add _

theorem extent_of_runsOut {bytes : List UInt8} (runsOut : BankContent.reading.RunsOut bytes) :
    bankExtent bytes = bytes.length := by
  have balance := outcome_balance BankContent.reading ⟨bytes, .finished, ⟨0, {}⟩⟩ rfl
  obtain ⟨error, last, came⟩ := runsOut .finished ⟨0, {}⟩
  rw [came] at balance
  rw [bankExtent, came]
  simpa using balance

theorem take_tag (type : BankType) (rest : List UInt8) : (type.tag ++ rest).take 4 = type.tag :=
  List.take_left' (StoredBank.length_tag type)

theorem ImageKind.tag_ne_memory (kind : ImageKind) : kind.type.tag ≠ BankType.memory.tag := by
  cases kind <;> decide

theorem DamagedBank.no_payload {piece : List UInt8} (damaged : DamagedBank piece) (rest : List UInt8) :
    ∀ index < piece.length, ¬ PayloadAt (piece ++ rest) index := by
  intro index within there
  obtain ⟨memory, behindName⟩ := there.inside (by rw [damaged.extent]; exact within)
  have offset : payloadOffset = 20 := rfl
  cases damaged with
  | tag four unknown => omega
  | size number chip fits short =>
    simp only [List.length_append, StoredBank.length_tag, length_bigEndianBytes] at within
    omega
  | depth kind widthWords height countFits further wellFormed depthFits impossible =>
    rw [List.append_assoc, take_tag] at memory
    exact kind.tag_ne_memory memory

theorem StoredBank.no_payload_in_images {kind : ImageKind} {images : List StoredImage} {palette : List UInt8}
    (wellFormed : (StoredBank.images kind images palette).WellFormed) (rest : List UInt8) :
    ∀ index < (StoredBank.images kind images palette).encode.length,
      ¬ PayloadAt ((StoredBank.images kind images palette).encode ++ rest) index := by
  intro index within there
  obtain ⟨memory, -⟩ := there.inside (by rw [wellFormed.extent]; exact within)
  rw [StoredBank.encode, ImageBank.encode] at memory
  simp only [List.append_assoc] at memory
  rw [take_tag] at memory
  exact kind.tag_ne_memory memory

theorem memory_fields {bytes : List UInt8} (memory : bytes.take 4 = BankType.memory.tag)
    (enough : payloadOffset ≤ bytes.length) :
    ∃ (number chip sizeField : Nat) (name payload : List UInt8), number < 2 ^ 16 ∧ chip < 2 ^ 16 ∧ sizeField < 2 ^ 32 ∧
      name.length = memoryBankNameSize ∧
      bytes = (StoredBank.memory number chip sizeField name payload).encode := by
  have offset : payloadOffset = 12 + memoryBankNameSize := rfl
  have whole := List.take_append_drop 4 bytes
  rw [memory] at whole
  generalize bytes.drop 4 = fields at whole
  subst whole
  rw [List.length_append, StoredBank.length_tag] at enough
  obtain ⟨number, fields, numberFits, rfl⟩ := exists_eq_bigEndianBytes_append (show 2 ≤ fields.length by omega)
  rw [List.length_append, length_bigEndianBytes] at enough
  obtain ⟨chip, fields, chipFits, rfl⟩ := exists_eq_bigEndianBytes_append (show 2 ≤ fields.length by omega)
  rw [List.length_append, length_bigEndianBytes] at enough
  obtain ⟨sizeField, fields, sizeFits, rfl⟩ := exists_eq_bigEndianBytes_append (show 4 ≤ fields.length by omega)
  rw [List.length_append, length_bigEndianBytes] at enough
  have named : (fields.take memoryBankNameSize).length = memoryBankNameSize := List.length_take_of_le (by omega)
  refine ⟨number, chip, sizeField, fields.take memoryBankNameSize, fields.drop memoryBankNameSize, numberFits, chipFits,
    sizeFits, named, ?_⟩
  simp only [StoredBank.encode, List.append_assoc, List.take_append_drop]

theorem StoredBank.cut_of_runsOut {number chip sizeField : Nat} {name payload : List UInt8}
    (numberFits : number < 2 ^ 16) (chipFits : chip < 2 ^ 16) (sizeFits : sizeField < 2 ^ 32)
    (named : name.length = memoryBankNameSize)
    (runsOut : BankContent.reading.RunsOut (StoredBank.memory number chip sizeField name payload).encode) :
    (StoredBank.memory number chip sizeField name payload).Cut := by
  refine ⟨numberFits, chipFits, sizeFits, named, Nat.lt_of_not_le fun filled => ?_⟩
  obtain ⟨_, _, drained⟩ := runsOut .finished ⟨0, {}⟩
  by_cases short : sizeField % 2 ^ 28 < memoryBankNameSize
  · obtain ⟨error, fails⟩ := (DamagedBank.size number chip sizeFits short).outcome_content ⟨0, {}⟩ .finished
    have whole : (StoredBank.memory number chip sizeField name payload).encode = (BankType.memory.tag ++
        (bigEndianBytes 2 number ++ (bigEndianBytes 2 chip ++ bigEndianBytes 4 sizeField))) ++ (name ++ payload) := by
      simp only [StoredBank.encode, List.append_assoc]
    rw [whole, fails] at drained
    have none : name ++ payload = [] := congrArg (·.view.unread) drained
    rw [(List.append_eq_nil_iff.mp none).1] at named
    cases named
  · let size := sizeField % 2 ^ 28 - memoryBankNameSize
    have wellFormed : (StoredBank.memory number chip sizeField name (payload.take size)).WellFormed := by
      refine ⟨numberFits, chipFits, sizeFits, named, ?_⟩
      rw [List.length_take_of_le (by omega)]
      omega
    have whole : (StoredBank.memory number chip sizeField name payload).encode =
        (StoredBank.memory number chip sizeField name (payload.take size)).encode ++ payload.drop size := by
      simp only [StoredBank.encode, List.append_assoc, List.take_append_drop]
    rw [whole, outcome_of_passes (wellFormed.passes _)] at drained
    cases drained

/-- What agrees with a memory bank in front of its payload is one with another payload. -/
theorem memory_agrees {places : Nat → Prop} {number chip sizeField : Nat} {name payload other : List UInt8}
    (named : name.length = memoryBankNameSize)
    (agrees : AgreesOutside places (StoredBank.memory number chip sizeField name payload).encode other)
    (header : ∀ index < payloadOffset, ¬ places index) :
    ∃ otherPayload, otherPayload.length = payload.length ∧
      other = (StoredBank.memory number chip sizeField name otherPayload).encode := by
  obtain ⟨front, otherPayload, rfl, same, behind⟩ := agrees.split
  have equal := same.eq fun index within => header index (by
    simp only [List.length_append, StoredBank.length_tag, length_bigEndianBytes, named] at within
    exact within)
  refine ⟨otherPayload, behind.length, ?_⟩
  rw [equal]
  rfl

theorem StoredBank.WellFormed.payloadOffset_le {number chip sizeField : Nat} {name payload : List UInt8}
    (wellFormed : (memory number chip sizeField name payload).WellFormed) :
    payloadOffset ≤ (memory number chip sizeField name payload).encode.length := by
  rw [wellFormed.length_encode, size, ← wellFormed.2.2.2.2, payloadOffset]
  omega

theorem StoredBank.encode_pos {bank : StoredBank} (wellFormed : bank.WellFormed) : 0 < bank.encode.length := by
  rw [wellFormed.length_encode]
  cases bank <;> exact Nat.pos_of_ne_zero (by simp [StoredBank.size])

theorem DamagedBank.length_pos {piece : List UInt8} (damaged : DamagedBank piece) : 0 < piece.length := by
  cases damaged with
  | tag four => omega
  | size | depth =>
    rw [List.length_append, StoredBank.length_tag]
    omega

theorem banksApart_of_runsOut {one other : List UInt8} (runsOut : BankContent.reading.RunsOut one)
    (agrees : AgreesOutside (PayloadAt one) one other) : BanksApart one other := by
  have inside : ∀ index < one.length, PayloadAt one index →
      one.take 4 = BankType.memory.tag ∧ payloadOffset ≤ index := by
    intro index within there
    exact there.inside (by rw [extent_of_runsOut runsOut]; exact within)
  by_cases reaches : one.take 4 = BankType.memory.tag ∧ payloadOffset ≤ one.length
  · obtain ⟨number, chip, sizeField, name, payload, numberFits, chipFits, sizeFits, named, rfl⟩ :=
      memory_fields reaches.1 reaches.2
    have header : ∀ index < payloadOffset,
        ¬ PayloadAt (StoredBank.memory number chip sizeField name payload).encode index := by
      intro index before there
      exact Nat.not_le.mpr before (inside index (by omega) there).2
    obtain ⟨otherPayload, length, rfl⟩ := memory_agrees named agrees header
    exact .cut (StoredBank.cut_of_runsOut numberFits chipFits sizeFits named runsOut) length
  · have same := agrees.eq fun index within there => reaches (by
      obtain ⟨memory, behindName⟩ := inside index within there
      exact ⟨memory, by omega⟩)
    rw [same]
    exact .same one

theorem banksApart_of_agrees {one other : List UInt8} (agrees : AgreesOutside (PayloadAt one) one other) :
    BanksApart one other := by
  induction size : one.length using Nat.strongRecOn generalizing one other with
  | ind size ih =>
    subst size
    by_cases runsOut : BankContent.reading.RunsOut one
    · exact banksApart_of_runsOut runsOut agrees
    · rcases stored_or_damaged runsOut with ⟨bank, rest, wellFormed, rfl⟩ | ⟨piece, rest, damaged, rfl⟩
      · have positive := StoredBank.encode_pos wellFormed
        obtain ⟨front, otherRest, rfl, here, behind⟩ := agrees.split
        have agreeing := behind.mono fun index => PayloadAt.of_behind (wellFormed.extent rest)
        have later := ih _ (by rw [List.length_append]; omega) agreeing rfl
        cases bank with
        | images kind images palette =>
          rw [here.eq (StoredBank.no_payload_in_images wellFormed rest)]
          exact .images wellFormed later
        | memory number chip sizeField name payload =>
          have header : ∀ index < payloadOffset,
              ¬ PayloadAt ((StoredBank.memory number chip sizeField name payload).encode ++ rest) index := by
            intro index before there
            have room := wellFormed.payloadOffset_le
            have within := there.inside (by rw [wellFormed.extent]; omega)
            exact Nat.not_le.mpr before within.2
          obtain ⟨otherPayload, length, rfl⟩ := memory_agrees wellFormed.2.2.2.1 here header
          exact .memory wellFormed length later
      · have positive := damaged.length_pos
        obtain ⟨front, otherRest, rfl, here, behind⟩ := agrees.split
        have agreeing := behind.mono fun index => PayloadAt.of_behind (damaged.extent rest)
        rw [here.eq (damaged.no_payload rest)]
        exact .damaged damaged (ih _ (by rw [List.length_append]; omega) agreeing rfl)

end AmosBasic
