import AmosBasic.Proofs.Bytes
import AmosBasic.Reading.Lemmas

namespace AmosBasic

structure Place where
  position : Nat
  progress : Progress

def Place.behind (place : Place) (count : Nat) : Place :=
  { place with position := place.position + count }

@[simp] theorem Place.behind_position (place : Place) (count : Nat) :
    (place.behind count).position = place.position + count := rfl

@[simp] theorem Place.behind_progress (place : Place) (count : Nat) :
    (place.behind count).progress = place.progress := rfl

@[simp] theorem Place.behind_behind (place : Place) (first second : Nat) :
    (place.behind first).behind second = place.behind (first + second) := by
  simp [Place.behind, Nat.add_assoc]

namespace Reading

/-- `Passes reading start bytes handed stop value`: begun at `start`, the reading takes exactly `bytes`,
hands over `handed` in order, and ends at `stop` with `value`. -/
inductive Passes {α : Type} : Reading α → Place → List UInt8 → List Delivery → Place → α → Prop
  | done {value : α} {start : Place} : Passes (.done value) start [] [] start value
  | take {count : Nat} {next : List UInt8 → Reading α} {start stop : Place} {piece rest : List UInt8}
      {handed : List Delivery} {value : α} (filled : piece.length = count)
      (after : Passes (next piece) (start.behind count) rest handed stop value) :
      Passes (.take count next) start (piece ++ rest) handed stop value
  | skip {count : Nat} {next : List UInt8 → Reading α} {start stop : Place} {piece rest : List UInt8}
      {handed : List Delivery} {value : α} (filled : piece.length = count)
      (after : Passes (next piece) (start.behind count) rest handed stop value) :
      Passes (.skip count next) start (piece ++ rest) handed stop value
  | position {next : Nat → Reading α} {start stop : Place} {bytes : List UInt8} {handed : List Delivery}
      {value : α} (after : Passes (next start.position) start bytes handed stop value) :
      Passes (.position next) start bytes handed stop value
  | progress {next : Progress → Reading α} {start stop : Place} {bytes : List UInt8}
      {handed : List Delivery} {value : α}
      (after : Passes (next start.progress) start bytes handed stop value) :
      Passes (.progress next) start bytes handed stop value
  | setProgress {progress : Progress} {next : Reading α} {start stop : Place} {bytes : List UInt8}
      {handed : List Delivery} {value : α}
      (after : Passes next { start with progress } bytes handed stop value) :
      Passes (.setProgress progress next) start bytes handed stop value
  | note {remark : Note} {next : Reading α} {start stop : Place} {bytes : List UInt8}
      {handed : List Delivery} {value : α} (after : Passes next start bytes handed stop value) :
      Passes (.note remark next) start bytes handed stop value
  | deliver {delivery : Delivery} {next : Reading α} {start stop : Place} {bytes : List UInt8}
      {handed : List Delivery} {value : α} (after : Passes next start bytes handed stop value) :
      Passes (.deliver delivery next) start bytes (delivery :: handed) stop value

variable {α β : Type} {start stop : Place} {bytes : List UInt8} {handed : List Delivery}

theorem Passes.stop_position {reading : Reading α} {value : α}
    (passage : Passes reading start bytes handed stop value) :
    stop.position = start.position + bytes.length := by
  induction passage with
  | done => rfl
  | take filled _ ih | skip filled _ ih =>
    rw [ih, List.length_append, filled, Place.behind_position, Nat.add_assoc]
  | position _ ih | progress _ ih | setProgress _ ih | note _ ih | deliver _ ih => exact ih

theorem Passes.bind {first : Reading α} {next : α → Reading β} {middle : Place} {front back : List UInt8}
    {early late : List Delivery} {result : α} {value : β}
    (before : Passes first start front early middle result)
    (after : Passes (next result) middle back late stop value) :
    Passes (first >>= next) start (front ++ back) (early ++ late) stop value := by
  change Passes (first.bind next) start (front ++ back) (early ++ late) stop value
  induction before with
  | done => exact after
  | take filled _ ih =>
    rw [List.append_assoc]
    exact .take filled (ih after)
  | skip filled _ ih =>
    rw [List.append_assoc]
    exact .skip filled (ih after)
  | position _ ih => exact .position (ih after)
  | progress _ ih => exact .progress (ih after)
  | setProgress _ ih => exact .setProgress (ih after)
  | note _ ih => exact .note (ih after)
  | deliver _ ih => exact .deliver (ih after)

theorem passes_bind {first : Reading α} {next : α → Reading β} {value : β} :
    Passes (first >>= next) start bytes handed stop value ↔
      ∃ front back early late middle result, bytes = front ++ back ∧ handed = early ++ late ∧
        Passes first start front early middle result ∧ Passes (next result) middle back late stop value := by
  constructor
  · intro passage
    change Passes (first.bind next) start bytes handed stop value at passage
    induction first generalizing start bytes handed with
    | done result => exact ⟨[], bytes, [], handed, start, result, rfl, rfl, .done, passage⟩
    | fail error => cases passage
    | take count rest ih =>
      cases passage with
      | take filled after =>
        obtain ⟨front, back, early, late, middle, result, rfl, rfl, before, after⟩ := ih _ after
        exact ⟨_, back, early, late, middle, result, (List.append_assoc ..).symm, rfl, .take filled before, after⟩
    | skip count rest ih =>
      cases passage with
      | skip filled after =>
        obtain ⟨front, back, early, late, middle, result, rfl, rfl, before, after⟩ := ih _ after
        exact ⟨_, back, early, late, middle, result, (List.append_assoc ..).symm, rfl, .skip filled before, after⟩
    | position rest ih =>
      cases passage with
      | position after =>
        obtain ⟨front, back, early, late, middle, result, rfl, rfl, before, after⟩ := ih _ after
        exact ⟨front, back, early, late, middle, result, rfl, rfl, .position before, after⟩
    | progress rest ih =>
      cases passage with
      | progress after =>
        obtain ⟨front, back, early, late, middle, result, rfl, rfl, before, after⟩ := ih _ after
        exact ⟨front, back, early, late, middle, result, rfl, rfl, .progress before, after⟩
    | setProgress progress rest ih =>
      cases passage with
      | setProgress after =>
        obtain ⟨front, back, early, late, middle, result, rfl, rfl, before, after⟩ := ih after
        exact ⟨front, back, early, late, middle, result, rfl, rfl, .setProgress before, after⟩
    | note remark rest ih =>
      cases passage with
      | note after =>
        obtain ⟨front, back, early, late, middle, result, rfl, rfl, before, after⟩ := ih after
        exact ⟨front, back, early, late, middle, result, rfl, rfl, .note before, after⟩
    | deliver delivery rest ih =>
      cases passage with
      | deliver after =>
        obtain ⟨front, back, early, late, middle, result, rfl, rfl, before, after⟩ := ih after
        exact ⟨front, back, _, late, middle, result, rfl, (List.cons_append ..).symm, .deliver before, after⟩
  · intro described
    obtain ⟨front, back, early, late, middle, result, rfl, rfl, before, after⟩ := described
    exact before.bind after

variable {value : α}

@[simp] theorem passes_pure {result : α} :
    Passes (pure result) start bytes handed stop value ↔
      bytes = [] ∧ handed = [] ∧ stop = start ∧ value = result := by
  constructor
  · intro passage
    cases passage
    exact ⟨rfl, rfl, rfl, rfl⟩
  · intro described
    obtain ⟨rfl, rfl, rfl, rfl⟩ := described
    exact .done

@[simp] theorem not_passes_fail {error : DecodeError} :
    ¬ Passes (fail error) start bytes handed stop value := by
  intro passage
  cases passage

@[simp] theorem not_passes_corrupt {offset : Nat} {reason : Corruption} :
    ¬ Passes (corrupt offset reason) start bytes handed stop value :=
  not_passes_fail

@[simp] theorem passes_bytes_bind {count : Nat} {next : List UInt8 → Reading α} :
    Passes (Reading.bytes count >>= next) start bytes handed stop value ↔
      ∃ piece rest, bytes = piece ++ rest ∧ piece.length = count ∧
        Passes (next piece) (start.behind count) rest handed stop value := by
  change Passes (.take count next) start bytes handed stop value ↔ _
  constructor
  · intro passage
    cases passage with
    | take filled after => exact ⟨_, _, rfl, filled, after⟩
  · intro described
    obtain ⟨piece, rest, rfl, filled, after⟩ := described
    exact .take filled after

@[simp] theorem passes_skipped_bind {count : Nat} {next : List UInt8 → Reading α} :
    Passes (skipped count >>= next) start bytes handed stop value ↔
      ∃ piece rest, bytes = piece ++ rest ∧ piece.length = count ∧
        Passes (next piece) (start.behind count) rest handed stop value := by
  change Passes (.skip count next) start bytes handed stop value ↔ _
  constructor
  · intro passage
    cases passage with
    | skip filled after => exact ⟨_, _, rfl, filled, after⟩
  · intro described
    obtain ⟨piece, rest, rfl, filled, after⟩ := described
    exact .skip filled after

@[simp] theorem passes_byte_bind {next : UInt8 → Reading α} :
    Passes (byte >>= next) start bytes handed stop value ↔
      ∃ first rest, bytes = first :: rest ∧
        Passes (next first) (start.behind 1) rest handed stop value := by
  change Passes (Reading.bytes 1 >>= fun piece => next (piece.headD 0)) start bytes handed stop value ↔ _
  rw [passes_bytes_bind]
  constructor
  · intro passage
    obtain ⟨piece, rest, rfl, filled, after⟩ := passage
    obtain ⟨first, rfl⟩ := List.length_eq_one_iff.mp filled
    exact ⟨first, rest, rfl, after⟩
  · intro described
    obtain ⟨first, rest, rfl, after⟩ := described
    exact ⟨[first], rest, rfl, rfl, after⟩

@[simp] theorem passes_word_bind {count : Nat} {next : Nat → Reading α} :
    Passes (word count >>= next) start bytes handed stop value ↔
      ∃ number rest, bytes = bigEndianBytes count number ++ rest ∧ number < 256 ^ count ∧
        Passes (next number) (start.behind count) rest handed stop value := by
  change Passes (Reading.bytes count >>= fun piece => next (bigEndian piece)) start bytes handed stop value ↔ _
  rw [passes_bytes_bind]
  constructor
  · intro passage
    obtain ⟨piece, rest, rfl, rfl, after⟩ := passage
    exact ⟨bigEndian piece, rest, by rw [bigEndianBytes_bigEndian], bigEndian_lt piece, after⟩
  · intro described
    obtain ⟨number, rest, rfl, fits, after⟩ := described
    refine ⟨bigEndianBytes count number, rest, rfl, length_bigEndianBytes _ _, ?_⟩
    rwa [bigEndian_bigEndianBytes_of_lt fits]

theorem passes_bytes_pure {count : Nat} {result : List UInt8 → α} :
    Passes (Reading.bytes count >>= fun piece => pure (result piece)) start bytes handed stop value ↔
      handed = [] ∧ stop = start.behind bytes.length ∧ bytes.length = count ∧ value = result bytes := by
  simp only [passes_bytes_bind, passes_pure]
  constructor
  · intro passage
    obtain ⟨piece, _, rfl, rfl, rfl, rfl, rfl, rfl⟩ := passage
    simp
  · intro described
    obtain ⟨rfl, rfl, rfl, rfl⟩ := described
    exact ⟨bytes, [], (List.append_nil _).symm, rfl, rfl, rfl, rfl, rfl⟩

theorem passes_skipped_pure {count : Nat} {result : List UInt8 → α} :
    Passes (skipped count >>= fun piece => pure (result piece)) start bytes handed stop value ↔
      handed = [] ∧ stop = start.behind bytes.length ∧ bytes.length = count ∧ value = result bytes := by
  rw [← passes_bytes_pure, passes_skipped_bind, passes_bytes_bind]

theorem passes_word_pure {count : Nat} {result : Nat → α} :
    Passes (word count >>= fun number => pure (result number)) start bytes handed stop value ↔
      handed = [] ∧ stop = start.behind bytes.length ∧ bytes.length = count ∧ value = result (bigEndian bytes) := by
  change Passes (Reading.bytes count >>= fun piece => pure (result (bigEndian piece))) start bytes handed stop value ↔ _
  exact passes_bytes_pure

@[simp] theorem passes_currentPosition_bind {next : Nat → Reading α} :
    Passes (currentPosition >>= next) start bytes handed stop value ↔
      Passes (next start.position) start bytes handed stop value := by
  change Passes (.position next) start bytes handed stop value ↔ _
  constructor
  · intro passage
    cases passage with
    | position after => exact after
  · exact .position

@[simp] theorem passes_currentProgress_bind {next : Progress → Reading α} :
    Passes (currentProgress >>= next) start bytes handed stop value ↔
      Passes (next start.progress) start bytes handed stop value := by
  change Passes (.progress next) start bytes handed stop value ↔ _
  constructor
  · intro passage
    cases passage with
    | progress after => exact after
  · exact .progress

@[simp] theorem passes_updateProgress_bind {change : Progress → Progress} {next : Unit → Reading α} :
    Passes (updateProgress change >>= next) start bytes handed stop value ↔
      Passes (next ()) { start with progress := change start.progress } bytes handed stop value := by
  change Passes (.progress fun state => .setProgress (change state) (next ())) start bytes handed stop value ↔ _
  constructor
  · intro passage
    cases passage with
    | progress after =>
      cases after with
      | setProgress after => exact after
  · exact fun after => .progress (.setProgress after)

@[simp] theorem passes_remark_bind {note : Note} {next : Unit → Reading α} :
    Passes (remark note >>= next) start bytes handed stop value ↔
      Passes (next ()) start bytes handed stop value := by
  change Passes (.note note (next ())) start bytes handed stop value ↔ _
  constructor
  · intro passage
    cases passage with
    | note after => exact after
  · exact .note

@[simp] theorem passes_remarks_bind {notes : List Note} {next : Unit → Reading α} :
    Passes (notes.forM remark >>= next) start bytes handed stop value ↔
      Passes (next ()) start bytes handed stop value := by
  induction notes with
  | nil => rfl
  | cons note notes ih =>
    change Passes ((remark note >>= fun _ => notes.forM remark) >>= next) start bytes handed stop value ↔ _
    rw [LawfulMonad.bind_assoc, passes_remark_bind]
    exact ih

@[simp] theorem passes_handOver_bind {delivery : Delivery} {next : Unit → Reading α} :
    Passes (handOver delivery >>= next) start bytes handed stop value ↔
      ∃ later, handed = delivery :: later ∧ Passes (next ()) start bytes later stop value := by
  change Passes (.deliver delivery (next ())) start bytes handed stop value ↔ _
  constructor
  · intro passage
    cases passage with
    | deliver after => exact ⟨_, rfl, after⟩
  · intro described
    obtain ⟨later, rfl, after⟩ := described
    exact .deliver after

theorem passes_ite {condition : Prop} [Decidable condition] {first second : Reading α} :
    Passes (if condition then first else second) start bytes handed stop value ↔
      if condition then Passes first start bytes handed stop value
      else Passes second start bytes handed stop value := by
  split <;> rfl

theorem passes_ite_bind {condition : Prop} [Decidable condition] {first second : Reading α} {next : α → Reading β}
    {value : β} :
    Passes ((if condition then first else second) >>= next) start bytes handed stop value ↔
      if condition then Passes (first >>= next) start bytes handed stop value
      else Passes (second >>= next) start bytes handed stop value := by
  split <;> rfl

end Reading

end AmosBasic
