import Mathlib.Data.List.Basic
import AmosBasic.Proofs.Decoding.Opening
import AmosBasic.Proofs.Float.Literal
import AmosBasic.Proofs.Reading.Draining

namespace AmosBasic

def Request.Reads : Request → List UInt8 → Reply → Prop
  | bytes _, read, reply | array _, read, reply => reply = .bytes read
  | skip _, _, reply | fill _, _, reply => reply = .nothing
  | unsigned size, read, reply =>
    ∃ number : Nat, reply = .number number ∧ number < 256 ^ size ∧ bigEndianBytes size number = read
  | signed size, read, reply =>
    ∃ number : Int, reply = .number number ∧ -256 ^ size ≤ 2 * number ∧ 2 * number < 256 ^ size ∧
      bigEndianBytes size (number % 256 ^ size).toNat = read
  | float .amos, read, reply =>
    ∃ (pattern : AmosPattern) (number : Binary32), reply = .float number ∧ pattern.bytes = read ∧
      pattern.Exact number
  | float .ieee, read, reply =>
    ∃ number : Binary32, reply = .float number ∧ bigEndianBytes 4 number.bits.toNat = read

namespace Request

theorem reply_reads (request : Request) (read : List UInt8) (length : read.length = request.size) :
    ∃ reply, request.reply read = .ok reply ∧ request.Reads read reply := by
  cases request with
  | bytes | skip | fill | array => exact ⟨_, rfl, rfl⟩
  | unsigned size =>
    subst length
    exact ⟨_, rfl, _, rfl, bigEndian_lt read, bigEndianBytes_bigEndian read⟩
  | signed size =>
    subst length
    have power : ((2 ^ (8 * read.length) : Nat) : Int) = 256 ^ read.length := by
      rw [Nat.pow_mul]
      push_cast
      rfl
    have positive : 0 < 2 ^ (8 * read.length) := Nat.two_pow_pos _
    have lower := Int.le_bmod (x := bigEndian read) positive
    have upper := Int.bmod_lt (x := bigEndian read) positive
    have small : bigEndian read < 2 ^ (8 * read.length) := by
      rw [Nat.pow_mul]
      exact bigEndian_lt read
    have rest : ((bigEndian read : Int).bmod (2 ^ (8 * read.length)) % (2 ^ (8 * read.length) : Nat)).toNat =
        bigEndian read := by
      rw [Int.bmod_emod, ← Int.natCast_emod, Int.toNat_natCast, Nat.mod_eq_of_lt small]
    refine ⟨_, rfl, _, rfl, ?_, ?_, ?_⟩ <;> rw [← power, twosComplement]
    · omega
    · omega
    · rw [rest, bigEndianBytes_bigEndian]
  | float format =>
    cases format with
    | amos =>
      obtain ⟨first, second, third, last, rfl⟩ := List.length_eq_four.mp length
      have amos := FloatFormat.readAmos_of_lawful FieldReader.ofBytes_lawful ⟨first, second, third, last⟩
      exact ⟨_, congrArg (Except.map Reply.float) amos, _, _, rfl, rfl, AmosPattern.exact_number _⟩
    | ieee =>
      have four : read.length = 4 := length
      have small : bigEndian read < 2 ^ 32 := by
        have := bigEndian_lt read
        rwa [four] at this
      refine ⟨_, rfl, _, rfl, ?_⟩
      rw [UInt32.toNat_ofNat_of_lt' small, ← four, bigEndianBytes_bigEndian]

end Request

variable {σ : Type}

/-- No failure has come up: what is left to read is what is behind the position. -/
structure Machine.Stands (machine : Machine σ) (source : Source) : Prop where
  position : machine.cursor.position ≤ source.bytes.length
  unread : machine.unread = source.bytes.drop machine.cursor.position
  ending : machine.ending = source.ending

structure Machine.Spent (machine : Machine σ) (source : Source) : Prop where
  unread : machine.unread = []
  ending : machine.ending = source.ending
  broken : ∃ text, source.ending = .broken text

theorem Machine.stands_fresh (source : Source) (receiver : σ) : (fresh source receiver).Stands source :=
  ⟨Nat.zero_le _, rfl, rfl⟩

structure Request.Served (request : Request) (source : Source) (machine : Machine σ) : Prop where
  enough : machine.cursor.position + request.size ≤ source.bytes.length →
    (∃ reply, (request.perform machine).1.result = .ok reply ∧
      request.Reads ((source.bytes.drop machine.cursor.position).take request.size) reply) ∧
    (request.perform machine).2.cursor.position = machine.cursor.position + request.size
  short : source.bytes.length < machine.cursor.position + request.size → source.ending = .finished →
    (request.perform machine).1.result = .error (.incompleteRead machine.cursor.position request.size
      (source.bytes.length - machine.cursor.position)) ∧
    (request.perform machine).2.cursor.position = source.bytes.length
  broken : ∀ text, source.bytes.length < machine.cursor.position + request.size → source.ending = .broken text →
    (request.perform machine).1.result = .error (.io text) ∧
    (request.perform machine).2.cursor.position = machine.cursor.position
  buffer : ∀ buffer, request = .fill buffer → (request.perform machine).1.buffer =
    (source.bytes.drop machine.cursor.position).take buffer.length ++
      buffer.drop (source.bytes.length - machine.cursor.position)

structure Request.Refused (request : Request) (source : Source) (machine : Machine σ) : Prop where
  failed : 0 < request.size → ∃ text, source.ending = .broken text ∧
    (request.perform machine).1.result = .error (.io text)
  position : (request.perform machine).2.cursor.position = machine.cursor.position
  buffer : ∀ buffer, request = .fill buffer → (request.perform machine).1.buffer = buffer

structure Request.Idle (request : Request) (machine : Machine σ) : Prop where
  result : ∃ reply, (request.perform machine).1.result = .ok reply ∧ request.Reads [] reply
  buffer : (request.perform machine).1.buffer = []
  machine : (request.perform machine).2 = machine

def Request.Response.Failed (response : Request.Response) : Prop := ∃ text, response.result = .error (.io text)

namespace Request

theorem perform_result (request : Request) (machine : Machine σ) :
    (request.perform machine).1.result = (machine.view.answer request.size).bind request.reply :=
  congrArg Response.result (request.perform_answered machine).1

theorem perform_position (request : Request) (machine : Machine σ) :
    (request.perform machine).2.cursor.position = machine.cursor.position + machine.view.reach request.size :=
  congrArg (fun view : View => view.place.position) (request.perform_answered machine).2.view

theorem perform_fill (buffer : List UInt8) (machine : Machine σ) :
    ((fill buffer).perform machine).1.buffer =
      machine.unread.take buffer.length ++ buffer.drop machine.unread.length := by
  have same : ((fill buffer).perform machine).1.buffer =
      bufferAfter (fill buffer) (machine.unread.take buffer.length) :=
    congrArg Response.buffer ((fill buffer).perform_answered machine).1
  rw [same, bufferAfter, List.length_take]
  rcases Nat.le_total buffer.length machine.unread.length with less | more
  · rw [Nat.min_eq_left less, List.drop_length, List.drop_of_length_le less]
  · rw [Nat.min_eq_right more]

theorem served_of_stands (request : Request) {source : Source} {machine : Machine σ}
    (stands : machine.Stands source) : request.Served source machine := by
  obtain ⟨position, unread, ending⟩ := stands
  have left : machine.unread.length = source.bytes.length - machine.cursor.position := by
    rw [unread, List.length_drop]
  refine ⟨fun enough => ?_, fun short finished => ?_, fun text short broken => ?_, ?_⟩
  · have wanted : request.size ≤ machine.unread.length := by omega
    obtain ⟨answer, reach⟩ : machine.view.answer request.size = .ok (machine.unread.take request.size) ∧
        machine.view.reach request.size = request.size := View.answer_of_enough wanted
    obtain ⟨reply, replied, reads⟩ := request.reply_reads (machine.unread.take request.size)
      (List.length_take_of_le wanted)
    rw [perform_result, perform_position, answer, reach, ← unread]
    exact ⟨⟨reply, replied, reads⟩, rfl⟩
  · have less : machine.unread.length < request.size := by omega
    obtain ⟨answer, reach⟩ : machine.view.answer request.size =
          .error (.incompleteRead machine.cursor.position request.size machine.unread.length) ∧
        machine.view.reach request.size = machine.unread.length :=
      View.answer_of_finished less (ending.trans finished)
    rw [perform_result, perform_position, answer, reach, left]
    exact ⟨rfl, Nat.add_sub_cancel' position⟩
  · have less : machine.unread.length < request.size := by omega
    obtain ⟨answer, reach⟩ : machine.view.answer request.size = .error (.io text) ∧
        machine.view.reach request.size = 0 := View.answer_of_broken less (ending.trans broken)
    rw [perform_result, perform_position, answer, reach]
    exact ⟨rfl, rfl⟩
  · rintro buffer rfl
    rw [perform_fill, left, unread]

theorem refused_of_spent (request : Request) {source : Source} {machine : Machine σ}
    (spent : machine.Spent source) : request.Refused source machine := by
  obtain ⟨unread, ending, text, broken⟩ := spent
  have empty : machine.view.unread.length = 0 := congrArg List.length unread
  have broke : 0 < request.size → machine.view.answer request.size = .error (.io text) ∧
      machine.view.reach request.size = 0 := fun positive =>
    View.answer_of_broken (by rwa [empty]) (ending.trans broken)
  refine ⟨fun positive => ⟨text, broken, ?_⟩, ?_, ?_⟩
  · rw [perform_result, (broke positive).1]
    rfl
  · rw [perform_position]
    rcases Nat.eq_zero_or_pos request.size with none | positive
    · rw [none]
      rfl
    · rw [(broke positive).2, Nat.add_zero]
  · rintro buffer rfl
    rw [perform_fill, unread]
    simp

theorem idle_of_size (request : Request) (none : request.size = 0) (machine : Machine σ) :
    request.Idle machine := by
  have nothing : machine.view.answer 0 = .ok [] := if_pos (Nat.zero_le _)
  have answer := (request.perform_answered machine).1
  rw [none, nothing, List.take_zero] at answer
  refine ⟨?_, ?_, ?_⟩
  · obtain ⟨reply, replied, reads⟩ := request.reply_reads [] none.symm
    rw [answer]
    exact ⟨reply, replied, reads⟩
  · rw [answer]
    cases request with
    | fill buffer => exact List.length_eq_zero_iff.mp none
    | _ => rfl
  · cases request with
    | bytes count | skip count =>
      change count = 0 at none
      subst none
      simp [perform, Machine.collect, Machine.discard, Cursor.collect, Cursor.discard, Cursor.drain,
        Limited.drain_zero, Machine.noteShortage]
    | fill | array | unsigned | signed | float => simp [perform, none, Machine.draw_zero]

theorem failed_iff_of_stands {request : Request} {source : Source} {machine : Machine σ}
    (stands : machine.Stands source) :
    (request.perform machine).1.Failed ↔
      source.bytes.length < machine.cursor.position + request.size ∧ ∃ text, source.ending = .broken text := by
  have served := request.served_of_stands stands
  constructor
  · rintro ⟨text, failed⟩
    by_cases enough : machine.cursor.position + request.size ≤ source.bytes.length
    · obtain ⟨⟨reply, replied, -⟩, -⟩ := served.enough enough
      rw [failed] at replied
      cases replied
    · cases ending : source.ending with
      | finished =>
        obtain ⟨short, -⟩ := served.short (Nat.not_le.mp enough) ending
        rw [failed] at short
        cases short
      | broken other => exact ⟨Nat.not_le.mp enough, other, rfl⟩
  · rintro ⟨short, text, broken⟩
    exact ⟨text, (served.broken text short broken).1⟩

theorem perform_unread (request : Request) (machine : Machine σ) :
    (request.perform machine).2.unread = machine.unread.drop request.size :=
  congrArg View.unread (request.perform_answered machine).2.view

theorem perform_ending (request : Request) (machine : Machine σ) :
    (request.perform machine).2.ending = machine.ending :=
  congrArg View.ending (request.perform_answered machine).2.view

theorem stands_perform {request : Request} {source : Source} {machine : Machine σ}
    (stands : machine.Stands source) (served : ¬ (request.perform machine).1.Failed) :
    (request.perform machine).2.Stands source := by
  have contract := request.served_of_stands stands
  have ending := (request.perform_ending machine).trans stands.ending
  have unread := request.perform_unread machine
  rw [stands.unread, List.drop_drop] at unread
  by_cases enough : machine.cursor.position + request.size ≤ source.bytes.length
  · obtain ⟨-, position⟩ := contract.enough enough
    exact ⟨by omega, by rw [unread, position], ending⟩
  · have finished : source.ending = .finished := by
      cases last : source.ending with
      | finished => rfl
      | broken text => exact absurd ((failed_iff_of_stands stands).mpr ⟨Nat.not_le.mp enough, text, last⟩) served
    obtain ⟨-, position⟩ := contract.short (Nat.not_le.mp enough) finished
    refine ⟨by omega, ?_, ending⟩
    rw [unread, position, List.drop_length, List.drop_of_length_le (by omega)]

theorem spent_perform_of_failed {request : Request} {source : Source} {machine : Machine σ}
    (stands : machine.Stands source) (failed : (request.perform machine).1.Failed) :
    (request.perform machine).2.Spent source := by
  obtain ⟨short, broken⟩ := (failed_iff_of_stands stands).mp failed
  refine ⟨?_, (request.perform_ending machine).trans stands.ending, broken⟩
  rw [perform_unread, stands.unread, List.drop_drop, List.drop_of_length_le (by omega)]

theorem spent_perform (request : Request) {source : Source} {machine : Machine σ} (spent : machine.Spent source) :
    (request.perform machine).2.Spent source := by
  refine ⟨?_, (request.perform_ending machine).trans spent.ending, spent.broken⟩
  rw [perform_unread, spent.unread, List.drop_nil]

theorem spent_performAll (requests : List Request) {source : Source} {machine : Machine σ}
    (spent : machine.Spent source) : (performAll machine requests).2.Spent source := by
  induction requests generalizing machine with
  | nil => exact spent
  | cons request requests ih => exact ih (request.spent_perform spent)

theorem stands_performAll (requests : List Request) {source : Source} {machine : Machine σ}
    (stands : machine.Stands source) :
    ((∀ answer ∈ (performAll machine requests).1, ¬ answer.1.Failed) → (performAll machine requests).2.Stands source) ∧
      ((∃ answer ∈ (performAll machine requests).1, answer.1.Failed) →
        (performAll machine requests).2.Spent source) := by
  induction requests generalizing machine with
  | nil => exact ⟨fun _ => stands, by simp [performAll]⟩
  | cons request requests ih =>
    by_cases failed : (request.perform machine).1.Failed
    · refine ⟨fun none => absurd failed (none _ List.mem_cons_self), fun _ => ?_⟩
      exact spent_performAll requests (spent_perform_of_failed stands failed)
    · obtain ⟨standing, spent⟩ := ih (stands_perform stands failed)
      refine ⟨fun none => standing fun answer member => none answer (List.mem_cons_of_mem _ member), ?_⟩
      rintro ⟨answer, member, broke⟩
      obtain rfl | member := List.mem_cons.mp member
      · exact absurd broke failed
      · exact spent ⟨answer, member, broke⟩

theorem performAll_append (before after : List Request) (request : Request) (machine : Machine σ) :
    (performAll machine (before ++ request :: after)).1 =
      let earlier := performAll machine before
      let here := request.perform earlier.2
      earlier.1 ++ (here.1, here.2.cursor.position) :: (performAll here.2 after).1 := by
  induction before generalizing machine with
  | nil => rfl
  | cons first before ih => exact congrArg (List.cons _) (ih _)

end Request

/-- However requests read their bytes, one after the other they share a stream of bytes that ends or breaks off. Each
that is made before the source has failed brings the bytes at its place and moves behind them; or finds them to be too
few, says how many there were, and moves to the end; or meets the failure and does not move. From then on every request
for a byte fails and none moves. A request for no byte succeeds at any time and changes nothing. A buffer holds
what came before it was full, before the end or before the failure, and its old bytes behind that. -/
theorem requests_share_stream (source : Source) (receiver : σ) (before after : List Request) (request : Request) :
    let earlier := Request.performAll (.fresh source receiver) before
    let here := request.perform earlier.2
    (Request.performAll (.fresh source receiver) (before ++ request :: after)).1 =
        earlier.1 ++ (here.1, here.2.cursor.position) :: (Request.performAll here.2 after).1 ∧
      ((∀ answer ∈ earlier.1, ¬ answer.1.Failed) → request.Served source earlier.2) ∧
      ((∃ answer ∈ earlier.1, answer.1.Failed) → request.Refused source earlier.2) ∧
      (request.size = 0 → request.Idle earlier.2) := by
  intro earlier here
  obtain ⟨standing, spent⟩ := Request.stands_performAll before (Machine.stands_fresh source receiver)
  exact ⟨Request.performAll_append before after request _, fun none => request.served_of_stands (standing none),
    fun some => request.refused_of_spent (spent some), fun none => request.idle_of_size none _⟩

end AmosBasic
