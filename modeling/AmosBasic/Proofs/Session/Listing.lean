import AmosBasic.Decoding
import AmosBasic.Proofs.Line.Acceptance
import AmosBasic.Proofs.Reading.Keeping

namespace AmosBasic

open Reading

theorem consumedAt_add {position : Nat} (opened : Header.size ≤ position) (count : Nat) :
    OpenFile.consumedAt (position + count) = OpenFile.consumedAt position + count := by
  unfold OpenFile.consumedAt
  omega

theorem consumedAt_mono {earlier later : Nat} (further : earlier ≤ later) :
    OpenFile.consumedAt earlier ≤ OpenFile.consumedAt later := by
  unfold OpenFile.consumedAt
  omega

theorem Line.outcome_ok {options : DecodeOptions} {view last : View} {handed : List Delivery} {line : Line}
    (success : (Line.reading options).outcome view = ⟨.ok line, handed, last⟩) :
    line.declaredWords ≠ 0 ∧ last.place = view.place.behind (2 * line.declaredWords) := by
  obtain ⟨bytes, unread, ending, passage⟩ := passes_of_outcome success
  obtain ⟨-, stop, declared, indent, records, shape, rfl, rfl⟩ := passes_line.mp passage
  have positive : declared.toNat ≠ 0 := by
    rw [← shape.fills]
    omega
  rw [shape.length_bytes indent] at stop
  exact ⟨positive, stop⟩

namespace OpenFile

variable (file : OpenFile)

theorem exhaustedAt_iff {position : Nat} :
    file.exhaustedAt position = true ↔ file.header.sourceLength ≤ consumedAt position :=
  decide_eq_true_iff

theorem exhaustedAt_mono {earlier later : Nat} (further : earlier ≤ later)
    (exhausted : file.exhaustedAt earlier = true) : file.exhaustedAt later = true := by
  rw [exhaustedAt_iff] at exhausted ⊢
  exact Nat.le_trans exhausted (consumedAt_mono further)

/-- A line is refused before a byte is read, or it is not one, or it ends behind the source, or it is counted. -/
theorem readLine_cases (view : View) :
    (file.exhaustedAt view.place.position = true ∧
      file.readLine.outcome view = ⟨.error (.corruptStream (some view.place.position) .noSourceLeft), [], view⟩) ∨
    (file.exhaustedAt view.place.position = false ∧ ∃ error last,
      (Line.reading file.options).outcome view = ⟨.error error, [], last⟩ ∧
      file.readLine.outcome view = ⟨.error error, [], last⟩) ∨
    (file.exhaustedAt view.place.position = false ∧ ∃ line last,
      (Line.reading file.options).outcome view = ⟨.ok line, [], last⟩ ∧
      file.header.sourceLength < consumedAt last.place.position ∧
      file.readLine.outcome view = ⟨.error (.corruptStream (some last.place.position)
        (.lineOverrun (consumedAt last.place.position) file.header.sourceLength)), [], last⟩) ∨
    (file.exhaustedAt view.place.position = false ∧ ∃ line last,
      (Line.reading file.options).outcome view = ⟨.ok line, [], last⟩ ∧
      consumedAt last.place.position ≤ file.header.sourceLength ∧
      file.readLine.outcome view =
        ⟨.ok line, [], { last with place.progress.linesRead := last.place.progress.linesRead + 1 }⟩) := by
  have reading : file.readLine.outcome view = (if file.exhaustedAt view.place.position = true then
      (corrupt view.place.position .noSourceLeft : Reading Line)
    else do
      let line ← Line.reading file.options
      let position ← currentPosition
      if file.header.sourceLength < consumedAt position then
        corrupt position (.lineOverrun (consumedAt position) file.header.sourceLength)
      else
        updateProgress fun progress => { progress with linesRead := progress.linesRead + 1 }
        return line).outcome view := rfl
  cases exhausted : file.exhaustedAt view.place.position with
  | true =>
    rw [reading, if_pos exhausted]
    exact .inl ⟨rfl, rfl⟩
  | false =>
    rw [reading, exhausted, if_neg Bool.false_ne_true]
    obtain ⟨silent, -⟩ := Line.keeps_reading file.options view
    rcases Outcome.cases_of_silent silent with ⟨error, last, came⟩ | ⟨line, last, came⟩
    · rw [outcome_bind_of_error came]
      exact .inr (.inl ⟨rfl, error, last, came, rfl⟩)
    · rw [outcome_bind_of_ok came, outcome_currentPosition_bind]
      by_cases past : file.header.sourceLength < consumedAt last.place.position
      · rw [if_pos past]
        exact .inr (.inr (.inl ⟨rfl, line, last, came, past, rfl⟩))
      · rw [if_neg past]
        exact .inr (.inr (.inr ⟨rfl, line, last, came, Nat.le_of_not_lt past, rfl⟩))

theorem readLine_of_ok {view last : View} {handed : List Delivery} {line : Line}
    (success : file.readLine.outcome view = ⟨.ok line, handed, last⟩) :
    file.exhaustedAt view.place.position = false ∧ handed = [] ∧ line.declaredWords ≠ 0 ∧
      last.place.position = view.place.position + 2 * line.declaredWords ∧
      consumedAt last.place.position ≤ file.header.sourceLength ∧
      last.place.progress = { view.place.progress with linesRead := view.place.progress.linesRead + 1 } := by
  rcases file.readLine_cases view with ⟨-, refused⟩ | ⟨-, error, _, -, failed⟩ | ⟨-, _, _, -, -, past⟩ |
    ⟨left, read, behind, decoded, within, same⟩
  · rw [refused] at success
    cases success
  · rw [failed] at success
    cases success
  · rw [past] at success
    cases success
  · rw [same] at success
    cases success
    obtain ⟨positive, place⟩ := Line.outcome_ok decoded
    have position : behind.place.position = view.place.position + 2 * line.declaredWords :=
      congrArg Place.position place
    have progress : behind.place.progress = view.place.progress := by rw [place, Place.behind_progress]
    refine ⟨left, rfl, positive, position, within, ?_⟩
    rw [← progress]

theorem readLine_of_error {view last : View} {handed : List Delivery} {error : DecodeError}
    (failure : file.readLine.outcome view = ⟨.error error, handed, last⟩) :
    last.place.progress = view.place.progress := by
  have kept := (Line.keeps_reading file.options view).2.progress
  rcases file.readLine_cases view with ⟨-, same⟩ | ⟨-, _, _, fails, same⟩ | ⟨-, _, _, read, -, same⟩ |
    ⟨-, _, _, -, -, same⟩ <;> rw [same] at failure <;> cases failure
  · rfl
  · rwa [fails] at kept
  · rwa [read] at kept

structure BehindLines (lines : List Line) (earlier later : Place) : Prop where
  consumed : consumedAt later.position = consumedAt earlier.position + 2 * (lines.map Line.declaredWords).sum
  progress : later.progress = { earlier.progress with linesRead := earlier.progress.linesRead + lines.length }
  words : lines.length ≤ (lines.map Line.declaredWords).sum
  within : consumedAt earlier.position ≤ file.header.sourceLength →
    consumedAt later.position ≤ file.header.sourceLength

theorem behind_lines {view stop : View} {lines : List Line} (listing : Repeats file.readLine view lines stop)
    (opened : Header.size ≤ view.place.position) : file.BehindLines lines view.place stop.place := by
  induction listing with
  | nil => exact ⟨rfl, rfl, Nat.le_refl _, id⟩
  | @cons view middle stop line lines came _ ih =>
    obtain ⟨-, -, positive, position, within, progress⟩ := file.readLine_of_ok came
    have consumed : consumedAt middle.place.position = consumedAt view.place.position + 2 * line.declaredWords := by
      rw [position, consumedAt_add opened]
    obtain ⟨rest, counted, words, inside⟩ := ih (by omega)
    refine ⟨?_, ?_, ?_, fun _ => inside within⟩
    · rw [rest, consumed, List.map_cons, List.sum_cons]
      omega
    · rw [counted, progress, List.length_cons, Nat.add_assoc, Nat.add_comm 1]
    · rw [List.map_cons, List.sum_cons, List.length_cons]
      omega

variable {file} in
theorem BehindLines.fills {lines : List Line} {start stop : Place}
    (behind : file.BehindLines lines start stop) (opened : start.position = Header.size)
    (exhausted : file.exhaustedAt stop.position = true) :
    2 * (lines.map Line.declaredWords).sum = file.header.sourceLength ∧
      consumedAt stop.position = file.header.sourceLength := by
  have nothing : consumedAt start.position = 0 := by rw [opened, consumedAt, Nat.sub_self]
  have within := behind.within (by omega)
  have consumed := behind.consumed
  rw [exhaustedAt_iff] at exhausted
  omega

theorem readLine_silent (view : View) : (file.readLine.outcome view).handed = [] := by
  rcases file.readLine_cases view with
    ⟨-, same⟩ | ⟨-, _, _, -, same⟩ | ⟨-, _, _, -, -, same⟩ | ⟨-, _, _, -, -, same⟩ <;> rw [same]

def ListingEnds (stop : View) : Except DecodeError Unit → View → Prop
  | .ok (), last => file.exhaustedAt stop.place.position = true ∧ last = stop
  | .error error, last => file.exhaustedAt stop.place.position = false ∧
      file.readLine.outcome stop = ⟨.error error, [], last⟩

/-- The fuel of both loops does not run out: a line takes at least two bytes. -/
theorem listing_loops {fuel : Nat} {view : View} (opened : Header.size ≤ view.place.position)
    (enough : file.header.sourceLength ≤ consumedAt view.place.position + fuel) :
    ∃ lines stop result last, Repeats file.readLine view lines stop ∧ file.ListingEnds stop result last ∧
      (∀ read, (file.linesReading fuel read).outcome view =
        ⟨result.map fun _ => read.reverse ++ lines, [], last⟩) ∧
      ∀ summary, (file.deliverLines fuel summary).outcome view =
        ⟨result.map fun _ => { summary with lines := summary.lines + lines.length }, lines.map .line, last⟩ := by
  induction fuel generalizing view with
  | zero =>
    have exhausted : file.exhaustedAt view.place.position = true := file.exhaustedAt_iff.mpr enough
    refine ⟨[], view, .ok (), view, .nil, ⟨exhausted, rfl⟩, fun read => ?_, fun summary => rfl⟩
    rw [List.append_nil]
    rfl
  | succ fuel ih =>
    have collects : ∀ read, (file.linesReading (fuel + 1) read).outcome view =
        (if file.exhaustedAt view.place.position = true then (pure read.reverse : Reading (List Line))
          else file.readLine >>= fun line => file.linesReading fuel (line :: read)).outcome view := fun _ => rfl
    have delivers : ∀ summary, (file.deliverLines (fuel + 1) summary).outcome view =
        (if file.exhaustedAt view.place.position = true then (pure summary : Reading Summary)
          else file.readLine >>= fun line => handOver (.line line) >>= fun _ =>
            file.deliverLines fuel summary.addLine).outcome view := fun _ => rfl
    cases exhausted : file.exhaustedAt view.place.position with
    | true =>
      refine ⟨[], view, .ok (), view, .nil, ⟨exhausted, rfl⟩, fun read => ?_, fun summary => ?_⟩
      · rw [collects, if_pos exhausted, List.append_nil]
        rfl
      · rw [delivers, if_pos exhausted]
        rfl
    | false =>
      simp only [exhausted, Bool.false_eq_true, if_false] at collects delivers
      rcases Outcome.cases_of_silent (file.readLine_silent view) with ⟨error, middle, came⟩ | ⟨line, middle, came⟩
      · refine ⟨[], view, .error error, middle, .nil, ⟨exhausted, came⟩, fun read => ?_, fun summary => ?_⟩
        · rw [collects, outcome_bind_of_error came]
          rfl
        · rw [delivers, outcome_bind_of_error came]
          rfl
      · obtain ⟨-, -, positive, further, -, -⟩ := file.readLine_of_ok came
        have room : Header.size ≤ middle.place.position := by omega
        have fuelled : file.header.sourceLength ≤ consumedAt middle.place.position + fuel := by
          rw [further, consumedAt_add opened]
          omega
        obtain ⟨lines, stop, result, last, repeats, ends, collected, delivered⟩ := ih room fuelled
        refine ⟨line :: lines, stop, result, last, .cons came repeats, ends, fun read => ?_, fun summary => ?_⟩
        · rw [collects, outcome_bind_of_ok came, collected, List.reverse_cons, List.append_assoc]
          rfl
        · rw [delivers, outcome_bind_of_ok came, outcome_handOver_bind, delivered]
          simp only [Summary.addLine, List.map_cons, List.length_cons, Nat.add_assoc, Nat.add_comm 1]

end OpenFile

end AmosBasic
