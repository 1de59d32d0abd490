import AmosBasic.Proofs.Reading.Outcome

namespace AmosBasic

def Ending.Reported (ending : Ending) (reached : Nat) (error : DecodeError) : Prop :=
  match ending with
  | .finished => ∃ offset expected actual, error = .incompleteRead offset expected actual ∧
      offset + actual = reached ∧ actual < expected
  | .broken text => error = .io text

theorem View.shortage_reported (view : View) {count : Nat} (short : view.unread.length < count) :
    view.ending.Reported (view.place.position + view.unread.length) (view.shortage count) := by
  unfold shortage Ending.Reported
  cases view.ending with
  | finished => exact ⟨_, _, _, rfl, rfl, short⟩
  | broken text => rfl

namespace Reading

variable {σ α : Type} {start : Place} {left : List UInt8} {handed early : List Delivery}

/-- Begun at `start` where only `left` is there, the reading fails at the end of it, having handed over `early`. -/
def FailsAfter (reading : Reading α) (start : Place) (left : List UInt8) (early : List Delivery) : Prop :=
  ∀ ending, ∃ error last, reading.outcome ⟨left, ending, start⟩ = ⟨.error error, early, ⟨[], ending, last⟩⟩ ∧
    ending.Reported (start.position + left.length) error

theorem failsAfter_short {count : Nat} {next : List UInt8 → Reading α} (short : left.length < count) :
    FailsAfter (Reading.bytes count >>= next) start left [] := by
  intro ending
  have reported := View.shortage_reported ⟨left, ending, start⟩ short
  have none : left.drop count = [] := List.drop_of_length_le (Nat.le_of_lt short)
  rw [outcome_bytes_bind, if_neg (Nat.not_le.mpr short), View.behind, none]
  exact ⟨_, _, rfl, reported⟩

theorem failsAfter_byte (next : UInt8 → Reading α) : FailsAfter (byte >>= next) start [] [] := by
  change FailsAfter (Reading.bytes 1 >>= fun bytes => next (bytes.headD 0)) start [] []
  exact failsAfter_short (by decide)

theorem FailsAfter.bind {β : Type} {first : Reading α} (fails : FailsAfter first start left early)
    (next : α → Reading β) : FailsAfter (first >>= next) start left early := by
  intro ending
  obtain ⟨error, last, came, reported⟩ := fails ending
  exact ⟨error, last, outcome_bind_of_error came, reported⟩

theorem cut_request {piece back : List UInt8} {next : List UInt8 → Reading α} (begins : left <+: piece ++ back)
    (less : left.length < (piece ++ back).length)
    (after : ∀ {rest : List UInt8}, rest <+: back → rest.length < back.length →
      ∃ early, early <+: handed ∧ FailsAfter (next piece) (start.behind piece.length) rest early) :
    ∃ early, early <+: handed ∧ FailsAfter (Reading.bytes piece.length >>= next) start left early := by
  by_cases short : left.length < piece.length
  · exact ⟨[], List.nil_prefix, failsAfter_short short⟩
  · obtain ⟨rest, rfl⟩ := List.prefix_of_prefix_length_le (List.prefix_append ..) begins (Nat.not_lt.mp short)
    rw [List.prefix_append_right_inj] at begins
    rw [List.length_append, List.length_append, Nat.add_lt_add_iff_left] at less
    obtain ⟨early, among, fails⟩ := after begins less
    refine ⟨early, among, fun ending => ?_⟩
    rw [outcome_bytes_bind_of_append rfl, List.length_append, ← Nat.add_assoc]
    exact fails ending

/-- The first request after which the source has ended fails; what was handed over before it is fixed. -/
theorem failsAfter_cut {reading : Reading α} {stop : Place} {bytes : List UInt8} {value : α}
    (passage : Passes reading start bytes handed stop value) (begins : left <+: bytes)
    (less : left.length < bytes.length) : ∃ early, early <+: handed ∧ FailsAfter reading start left early := by
  -- Only a request can find too little. Every other step of the passage is made in full.
  induction passage generalizing left with
  | done => cases less
  | take filled _ ih | skip filled _ ih =>
    subst filled
    exact cut_request begins less ih
  | position _ ih | progress _ ih | setProgress _ ih | note _ ih => exact ih begins less
  | @deliver delivery _ _ _ _ _ _ _ ih =>
    obtain ⟨early, among, fails⟩ := ih begins less
    refine ⟨delivery :: early, List.cons_prefix_cons.mpr ⟨rfl, among⟩, fun ending => ?_⟩
    obtain ⟨error, last, came, reported⟩ := fails ending
    exact ⟨error, last, by rw [outcome, came], reported⟩

theorem FailsAfter.run {reading : Reading α} {sink : Sink σ} {machine : Machine σ} {last : σ}
    (fails : FailsAfter reading machine.place machine.unread early) (among : early <+: handed)
    (accepted : sink.accept? machine.receiver handed = some last) :
    ∃ error final, reading.run sink machine = (.error error, final) ∧
      sink.accept? machine.receiver early = some final.receiver ∧
      machine.ending.Reported (machine.cursor.position + machine.unread.length) error := by
  obtain ⟨error, _, came, reported⟩ := fails machine.ending
  change reading.outcome machine.view = _ at came
  obtain ⟨receiver, taken⟩ := sink.accept?_of_prefix among accepted
  have handed : sink.accept? machine.receiver (reading.outcome machine.view).handed = some receiver := by rwa [came]
  obtain ⟨final, ran, -, kept⟩ := run_outcome reading machine handed
  rw [came] at ran
  exact ⟨error, final, ran, by rw [taken, kept], reported⟩

end Reading

end AmosBasic
