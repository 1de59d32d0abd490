import AmosBasic.Bank.Encoding
import AmosBasic.Proofs.Bank.Picture
import AmosBasic.Proofs.Palette

namespace AmosBasic

open Reading

namespace PackedPicture

def encode (picture : PackedPicture) : List UInt8 :=
  encodeScreen picture.screen picture.screen.palette.encode ++ encodeLayout picture.layout ++ picture.packedData

/-- The part of a byte of the payload that a picture depends on: nothing of the ids and of the unknown bytes, and half
of a byte that a register word begins with. -/
def keptByte (index : Nat) (byte : UInt8) : UInt8 :=
  if index < 4 ∨ 16 ≤ index ∧ index < 20 ∨ 90 ≤ index ∧ index < 94 then 0
  else if 26 ≤ index ∧ index < 90 ∧ index % 2 = 0 then byte % 16
  else byte

def kept (payload : List UInt8) : List UInt8 :=
  payload.mapIdx keptByte

end PackedPicture

theorem length_wordBytes (words : List Nat) : (wordBytes words).length = 2 * words.length := by
  induction words with
  | nil => rfl
  | cons word words ih =>
    rw [wordBytes, List.flatMap_cons, List.length_append, length_bigEndianBytes, List.length_cons]
    rw [wordBytes] at ih
    omega

namespace PackedPicture

variable {start stop : Place} {bytes : List UInt8} {handed : List Delivery}

/-- A screen description with what it holds besides the screen: an id, four bytes that are unknown, and whole register
words. -/
structure StoredScreen (screen : Screen) where
  id : List UInt8
  unknown : List UInt8
  registers : List UInt8
  length_id : id.length = 4
  length_unknown : unknown.length = 4
  length_registers : registers.length = Palette.size
  holds : screen.palette.Holds registers
  fits : ∀ word ∈ [screen.width, screen.height, screen.hardwareX, screen.hardwareY, screen.hardwareWidth,
    screen.hardwareHeight, screen.planeControl, screen.colors, screen.planes], word < 256 ^ 2

structure StoredLayout (layout : PictureLayout) where
  id : List UInt8
  length_id : id.length = 4
  fits : ∀ word ∈ [layout.xOffset, layout.yOffset, layout.width, layout.height, layout.linesPerLump, layout.planes],
    word < 256 ^ 2
  placesFit : ∀ place ∈ [layout.runDataOffset, layout.pointsOffset], place < 256 ^ 4

namespace StoredScreen

variable {screen : Screen}

def encode (stored : StoredScreen screen) : List UInt8 :=
  stored.id ++
    (wordBytes [screen.width, screen.height, screen.hardwareX, screen.hardwareY, screen.hardwareWidth,
      screen.hardwareHeight] ++ (stored.unknown ++ (wordBytes [screen.planeControl, screen.colors, screen.planes] ++
        stored.registers)))

def blank (stored : StoredScreen screen) : StoredScreen screen where
  id := List.replicate 4 0
  unknown := List.replicate 4 0
  registers := Palette.keptRegisters stored.registers
  length_id := rfl
  length_unknown := rfl
  length_registers := by rw [Palette.keptRegisters, List.length_mapIdx, stored.length_registers]
  holds := stored.holds.keptRegisters
  fits := stored.fits

end StoredScreen

namespace StoredLayout

variable {layout : PictureLayout}

def fields (layout : PictureLayout) : List UInt8 :=
  wordBytes [layout.xOffset, layout.yOffset, layout.width, layout.height, layout.linesPerLump, layout.planes] ++
    (bigEndianBytes 4 layout.runDataOffset ++ bigEndianBytes 4 layout.pointsOffset)

def encode (stored : StoredLayout layout) : List UInt8 :=
  stored.id ++ fields layout

def blank (stored : StoredLayout layout) : StoredLayout layout :=
  { stored with id := List.replicate 4 0, length_id := rfl }

end StoredLayout

theorem passes_screenReading {screen : Screen} : Passes screenReading start bytes handed stop screen ↔
    handed = [] ∧ stop = start.behind 90 ∧ ∃ stored : StoredScreen screen, bytes = stored.encode := by
  simp only [screenReading, expectId, LawfulMonad.bind_assoc, passes_word_bind, passes_ite_bind, passes_remark_bind,
    LawfulMonad.pure_bind, ite_self, passes_skipped_bind, passes_bytes_bind, passes_pure]
  constructor
  · intro passage
    obtain ⟨id, _, rfl, -, width, _, rfl, widthFits, height, _, rfl, heightFits, hardwareX, _, rfl, xFits, hardwareY, _,
      rfl, yFits, hardwareWidth, _, rfl, widthFits', hardwareHeight, _, rfl, heightFits', unknown, _, rfl, four,
      planeControl, _, rfl, controlFits, colors, _, rfl, colorsFit, planes, _, rfl, planesFit, registers, _, rfl,
      filled, rfl, rfl, rfl, rfl⟩ := passage
    refine ⟨rfl, rfl, ⟨bigEndianBytes 4 id, unknown, registers, length_bigEndianBytes 4 id, four, filled,
      Palette.holds_decode registers, ?_⟩, ?_⟩
    · simp only [List.forall_mem_cons]
      exact ⟨widthFits, heightFits, xFits, yFits, widthFits', heightFits', controlFits, colorsFit, planesFit,
        List.forall_mem_nil _⟩
    · simp only [StoredScreen.encode, wordBytes, List.flatMap_cons, List.flatMap_nil, List.append_assoc,
        List.append_nil]
  · intro described
    obtain ⟨rfl, rfl, ⟨id, unknown, registers, length, four, filled, holds, fits⟩, rfl⟩ := described
    simp only [List.forall_mem_cons] at fits
    obtain ⟨widthFits, heightFits, xFits, yFits, widthFits', heightFits', controlFits, colorsFit, planesFit, -⟩ := fits
    have palette := (Palette.holds_iff registers).mp holds
    -- Any four bytes are read as an id: they spell the number that is compared.
    have idFits := bigEndian_lt id
    have spelled := bigEndianBytes_bigEndian id
    rw [length] at idFits spelled
    refine ⟨bigEndian id, _, ?_, idFits, _, _, rfl, widthFits, _, _, rfl, heightFits, _, _, rfl, xFits, _, _, rfl,
      yFits, _, _, rfl, widthFits', _, _, rfl, heightFits', unknown, _, rfl, four, _, _, rfl, controlFits, _, _, rfl,
      colorsFit, _, _, rfl, planesFit, registers, [], rfl, filled, rfl, rfl, rfl, by rw [← palette]⟩
    simp only [StoredScreen.encode, spelled, wordBytes, List.flatMap_cons, List.flatMap_nil, List.append_assoc,
      List.append_nil]

theorem passes_layoutReading {layout : PictureLayout} : Passes layoutReading start bytes handed stop layout ↔
    handed = [] ∧ stop = start.behind 24 ∧ ∃ stored : StoredLayout layout, bytes = stored.encode := by
  simp only [layoutReading, expectId, LawfulMonad.bind_assoc, passes_word_bind, passes_ite_bind, passes_remark_bind,
    LawfulMonad.pure_bind, ite_self, passes_pure]
  constructor
  · intro passage
    obtain ⟨id, _, rfl, -, xOffset, _, rfl, xFits, yOffset, _, rfl, yFits, width, _, rfl, widthFits, height, _, rfl,
      heightFits, linesPerLump, _, rfl, linesFit, planes, _, rfl, planesFit, runDataOffset, _, rfl, runDataFits,
      pointsOffset, _, rfl, pointsFit, rfl, rfl, rfl, rfl⟩ := passage
    refine ⟨rfl, rfl, ⟨bigEndianBytes 4 id, length_bigEndianBytes 4 id, ?_, ?_⟩, ?_⟩
    · simp only [List.forall_mem_cons]
      exact ⟨xFits, yFits, widthFits, heightFits, linesFit, planesFit, List.forall_mem_nil _⟩
    · simp only [List.forall_mem_cons]
      exact ⟨runDataFits, pointsFit, List.forall_mem_nil _⟩
    · simp only [StoredLayout.encode, StoredLayout.fields, wordBytes, List.flatMap_cons, List.flatMap_nil,
        List.append_assoc, List.append_nil]
  · intro described
    obtain ⟨rfl, rfl, ⟨id, length, fits, placesFit⟩, rfl⟩ := described
    simp only [List.forall_mem_cons] at fits placesFit
    obtain ⟨xFits, yFits, widthFits, heightFits, linesFit, planesFit, -⟩ := fits
    obtain ⟨runDataFits, pointsFit, -⟩ := placesFit
    have idFits := bigEndian_lt id
    have spelled := bigEndianBytes_bigEndian id
    rw [length] at idFits spelled
    refine ⟨bigEndian id, _, ?_, idFits, _, _, rfl, xFits, _, _, rfl, yFits, _, _, rfl, widthFits, _, _, rfl,
      heightFits, _, _, rfl, linesFit, _, _, rfl, planesFit, _, _, rfl, runDataFits, _, [], rfl, pointsFit, rfl, rfl,
      rfl, rfl⟩
    simp only [StoredLayout.encode, StoredLayout.fields, spelled, wordBytes, List.flatMap_cons, List.flatMap_nil,
      List.append_assoc, List.append_nil]

theorem passes_reading {packedData : List UInt8} {picture : PackedPicture} :
    Passes (reading packedData) start bytes handed stop picture ↔
      packedData = picture.packedData ∧ handed = [] ∧ stop = start.behind pictureHeaderSize ∧
        ∃ (screen : StoredScreen picture.screen) (layout : StoredLayout picture.layout),
          bytes = screen.encode ++ layout.encode := by
  constructor
  · intro passage
    obtain ⟨_, _, _, _, _, screen, rfl, rfl, first, rest⟩ := passes_bind.mp passage
    obtain ⟨rfl, rfl, storedScreen, rfl⟩ := passes_screenReading.mp first
    obtain ⟨_, _, _, _, _, layout, rfl, rfl, second, last⟩ := passes_bind.mp rest
    obtain ⟨rfl, rfl, storedLayout, rfl⟩ := passes_layoutReading.mp second
    rw [passes_remark_bind, passes_pure] at last
    obtain ⟨rfl, rfl, rfl, rfl⟩ := last
    exact ⟨rfl, rfl, rfl, storedScreen, storedLayout, by rw [List.append_nil]⟩
  · intro described
    obtain ⟨rfl, rfl, rfl, screen, layout, rfl⟩ := described
    have first : Passes screenReading start screen.encode [] (start.behind 90) picture.screen :=
      passes_screenReading.mpr ⟨rfl, rfl, screen, rfl⟩
    have second : Passes layoutReading (start.behind 90) layout.encode [] (start.behind pictureHeaderSize)
        picture.layout := passes_layoutReading.mpr ⟨rfl, rfl, layout, rfl⟩
    refine passes_bind.mpr ⟨_, layout.encode, [], [], _, _, rfl, rfl, first, ?_⟩
    refine passes_bind.mpr ⟨_, [], [], [], _, _, (List.append_nil _).symm, rfl, second, ?_⟩
    rw [passes_remark_bind, passes_pure]
    exact ⟨rfl, rfl, rfl, rfl⟩

section Pieces

variable {offset : Nat} {piece : List UInt8}

theorem mapIdx_keptByte_of_lost (four : piece.length = 4) (places : offset = 0 ∨ offset = 16 ∨ offset = 90) :
    piece.mapIdx (fun index => keptByte (index + offset)) = List.replicate 4 0 := by
  rw [← four]
  refine List.mapIdx_eq_replicate_iff.mpr fun index within => ?_
  rw [keptByte, if_pos (by omega)]

theorem mapIdx_keptByte_of_whole (places : 4 ≤ offset ∧ offset + piece.length ≤ 16 ∨
    20 ≤ offset ∧ offset + piece.length ≤ 26 ∨ 94 ≤ offset) :
    piece.mapIdx (fun index => keptByte (index + offset)) = piece := by
  refine List.ext_getElem List.length_mapIdx fun index _ within => ?_
  rw [List.getElem_mapIdx, keptByte, if_neg (by omega), if_neg (by omega)]

theorem mapIdx_keptByte_registers (filled : piece.length = Palette.size) :
    piece.mapIdx (fun index => keptByte (index + 26)) = Palette.keptRegisters piece := by
  refine List.mapIdx_eq_mapIdx_iff.mpr fun index within => ?_
  rw [filled, Palette.size] at within
  rw [keptByte, if_neg (by omega)]
  exact if_congr (by omega) rfl rfl

end Pieces

structure StoredPicture (picture : PackedPicture) where
  screen : StoredScreen picture.screen
  layout : StoredLayout picture.layout

namespace StoredPicture

variable {picture : PackedPicture}

def encode (stored : StoredPicture picture) : List UInt8 :=
  stored.screen.encode ++ stored.layout.encode ++ picture.packedData

def blank (stored : StoredPicture picture) : StoredPicture picture :=
  ⟨stored.screen.blank, stored.layout.blank⟩

def proper (stored : StoredPicture picture) : StoredPicture picture where
  screen :=
    { id := bigEndianBytes 4 screenId
      unknown := List.replicate 4 0
      registers := picture.screen.palette.encode
      length_id := rfl
      length_unknown := rfl
      length_registers := Palette.length_encode _
      holds := by
        rw [stored.screen.holds.encode_eq stored.screen.length_registers]
        exact stored.screen.holds.keptRegisters
      fits := stored.screen.fits }
  layout := { stored.layout with id := bigEndianBytes 4 layoutId, length_id := rfl }

theorem encode_proper (stored : StoredPicture picture) : stored.proper.encode = picture.encode := by
  have gap : List.replicate 4 (0 : UInt8) = bigEndianBytes 2 0 ++ bigEndianBytes 2 0 := by decide
  simp only [encode, proper, StoredScreen.encode, StoredLayout.encode, StoredLayout.fields, PackedPicture.encode,
    encodeScreen, encodeLayout, wordBytes, gap, List.flatMap_cons, List.flatMap_nil, List.append_assoc,
    List.append_nil]

theorem encode_blank_proper (stored : StoredPicture picture) : stored.proper.blank.encode = stored.blank.encode := by
  have colors := stored.screen.holds.encode_eq stored.screen.length_registers
  have again := stored.proper.screen.holds.encode_eq stored.proper.screen.length_registers
  have registers :
      Palette.keptRegisters picture.screen.palette.encode = Palette.keptRegisters stored.screen.registers :=
    again.symm.trans colors
  simp only [encode, blank, proper, StoredScreen.encode, StoredScreen.blank, StoredLayout.encode, StoredLayout.blank,
    registers]

/-- The blank form has what is kept of every piece, at its place. -/
theorem kept_encode (stored : StoredPicture picture) : kept stored.encode = stored.blank.encode := by
  have fields : (StoredLayout.fields picture.layout).length = 20 := by
    simp only [StoredLayout.fields, List.length_append, length_wordBytes, length_bigEndianBytes, List.length_cons,
      List.length_nil]
  have start : stored.screen.id.mapIdx keptByte = List.replicate 4 0 :=
    mapIdx_keptByte_of_lost stored.screen.length_id (.inl rfl)
  simp only [kept, encode, blank, StoredScreen.encode, StoredScreen.blank, StoredLayout.encode, StoredLayout.blank,
    List.append_assoc, List.mapIdx_append, stored.screen.length_id, stored.screen.length_unknown, length_wordBytes,
    stored.screen.length_registers, stored.layout.length_id, fields, List.length_cons, List.length_nil, Palette.size,
    Nat.add_assoc, Nat.reduceAdd, Nat.reduceMul]
  rw [start, mapIdx_keptByte_of_whole, mapIdx_keptByte_of_lost stored.screen.length_unknown (.inr (.inl rfl)),
    mapIdx_keptByte_of_whole, mapIdx_keptByte_registers stored.screen.length_registers,
    mapIdx_keptByte_of_lost stored.layout.length_id (.inr (.inr rfl)), mapIdx_keptByte_of_whole,
    mapIdx_keptByte_of_whole]
  · exact .inr (.inr (by decide))
  · exact .inr (.inr (by decide))
  · exact .inr (.inl (by simp [length_wordBytes]))
  · exact .inl (by simp [length_wordBytes])

end StoredPicture

theorem run_reading {payload : List UInt8} (enough : pictureHeaderSize ≤ payload.length) :
    ∃ (picture : PackedPicture) (final : Machine Unit),
      (reading (payload.drop pictureHeaderSize)).run Sink.discard { cursor := .ofBytes payload, receiver := () } =
        (.ok picture, final) ∧
      final.cursor.position = pictureHeaderSize ∧ final.unread = payload.drop pictureHeaderSize ∧
      picture.packedData = payload.drop pictureHeaderSize ∧
      ∃ stored : StoredPicture picture, payload = stored.encode := by
  let machine : Machine Unit := { cursor := .ofBytes payload, receiver := () }
  obtain ⟨picture, came⟩ := takes_reading (payload.drop pictureHeaderSize) machine.view enough
  obtain ⟨final, same, view, -⟩ := run_of_silent Sink.discard machine (congrArg Outcome.handed came)
  obtain ⟨bytes, unread, -, passage⟩ := passes_of_outcome came
  obtain ⟨data, -, -, screen, layout, rfl⟩ := passes_reading.mp passage
  rw [came] at same view
  have place : final.place = machine.place.behind pictureHeaderSize :=
    (congrArg View.place view).trans (View.behind_place enough)
  refine ⟨picture, final, same, ?_, congrArg View.unread view, data.symm, ⟨screen, layout⟩, ?_⟩
  · exact (congrArg Place.position place).trans (Nat.zero_add _)
  · exact unread.trans (congrArg (screen.encode ++ layout.encode ++ ·) data)

theorem parse_of_run {payload : List UInt8} (enough : pictureHeaderSize ≤ payload.length) {picture : PackedPicture}
    {final : Machine Unit}
    (run : (reading (payload.drop pictureHeaderSize)).run Sink.discard { cursor := .ofBytes payload, receiver := () } =
      (.ok picture, final)) : (parse payload).1 = .ok picture := by
  rw [parse, if_neg (Nat.not_lt.mpr enough)]
  exact congrArg Prod.fst run

theorem StoredPicture.length_headers {picture : PackedPicture} (stored : StoredPicture picture) :
    (stored.screen.encode ++ stored.layout.encode).length = pictureHeaderSize := by
  simp [StoredScreen.encode, StoredLayout.encode, StoredLayout.fields, length_wordBytes, stored.screen.length_id,
    stored.screen.length_unknown, stored.screen.length_registers, stored.layout.length_id, Palette.size,
    pictureHeaderSize]

theorem parse_encode {picture : PackedPicture} (stored : StoredPicture picture) :
    (parse stored.encode).1 = .ok picture := by
  have length := stored.length_headers
  have enough : pictureHeaderSize ≤ stored.encode.length := by
    rw [StoredPicture.encode, List.length_append, length]
    exact Nat.le_add_right _ _
  have data : stored.encode.drop pictureHeaderSize = picture.packedData := List.drop_left' length
  have passage : Passes (reading picture.packedData) ⟨0, {}⟩ (stored.screen.encode ++ stored.layout.encode) []
      (Place.behind ⟨0, {}⟩ pictureHeaderSize) picture :=
    passes_reading.mpr ⟨rfl, rfl, rfl, stored.screen, stored.layout, rfl⟩
  let machine : Machine Unit := { cursor := .ofBytes stored.encode, receiver := () }
  have came : (reading picture.packedData).outcome machine.view = _ :=
    outcome_of_passes passage picture.packedData .finished
  obtain ⟨final, same, -, -⟩ := run_of_silent Sink.discard machine (congrArg Outcome.handed came)
  rw [came] at same
  exact parse_of_run enough (data.symm ▸ same)

theorem parse_ok_iff_stored {payload : List UInt8} {picture : PackedPicture} :
    (parse payload).1 = .ok picture ↔ ∃ stored : StoredPicture picture, payload = stored.encode := by
  constructor
  · intro parsed
    have enough := parse_ok_iff.mp ⟨picture, parsed⟩
    obtain ⟨found, final, run, -, -, -, stored⟩ := run_reading enough
    rw [parse_of_run enough run] at parsed
    cases parsed
    exact stored
  · rintro ⟨stored, rfl⟩
    exact parse_encode stored

theorem parse_of_short {payload : List UInt8} (short : payload.length < pictureHeaderSize) :
    (parse payload).1 = .error (.corruptStream none (.shortPicture payload.length)) := by
  rw [parse, if_pos short]

theorem parse_kept (payload : List UInt8) : (parse (kept payload)).1 = (parse payload).1 := by
  by_cases enough : pictureHeaderSize ≤ payload.length
  · obtain ⟨picture, parsed⟩ := parse_ok_iff.mpr enough
    obtain ⟨stored, rfl⟩ := parse_ok_iff_stored.mp parsed
    rw [parsed, stored.kept_encode, parse_encode]
  · have length : (kept payload).length = payload.length := List.length_mapIdx
    rw [parse_of_short (by omega), parse_of_short (by omega), length]

theorem kept_of_parse {payload : List UInt8} {picture : PackedPicture} (parsed : (parse payload).1 = .ok picture) :
    kept payload = kept picture.encode := by
  obtain ⟨stored, rfl⟩ := parse_ok_iff_stored.mp parsed
  rw [← stored.encode_proper, stored.kept_encode, stored.proper.kept_encode, stored.encode_blank_proper]

/-- A payload is a picture if it has the 114 bytes of the headers. Then exactly these are read, the rest is the packed
data, and the picture laid out is the payload again in everything that is `kept`. Pictures are equal exactly when this
much of their payloads is. A shorter payload is refused without an offset. -/
theorem parse_keeps_payload (payload : List UInt8) :
    ((∃ picture, (parse payload).1 = .ok picture) ↔ 114 ≤ payload.length) ∧
    (payload.length < 114 → (parse payload).1 = .error (.corruptStream none (.shortPicture payload.length))) ∧
    (∀ picture, (parse payload).1 = .ok picture →
      (∃ final : Machine Unit,
        (reading (payload.drop 114)).run Sink.discard { cursor := .ofBytes payload, receiver := () } =
          (.ok picture, final) ∧ final.cursor.position = 114 ∧ final.unread = payload.drop 114) ∧
      picture.packedData = payload.drop 114 ∧ kept picture.encode = kept payload ∧
      ∀ other, (parse other).1 = (parse payload).1 ↔ kept other = kept payload) := by
  refine ⟨parse_ok_iff, parse_of_short, fun picture parsed => ?_⟩
  have enough := parse_ok_iff.mp ⟨picture, parsed⟩
  obtain ⟨found, final, run, position, unread, data, -⟩ := run_reading enough
  have same := parse_of_run enough run
  rw [parsed] at same
  cases same
  refine ⟨⟨final, run, position, unread⟩, data, (kept_of_parse parsed).symm, fun other => ?_⟩
  refine ⟨fun alike => ?_, fun alike => ?_⟩
  · rw [kept_of_parse (alike.trans parsed), kept_of_parse parsed]
  · rw [← parse_kept other, alike, parse_kept payload]

end PackedPicture

end AmosBasic
