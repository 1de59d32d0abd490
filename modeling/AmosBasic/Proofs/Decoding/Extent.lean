import AmosBasic.Encoding
import AmosBasic.Proofs.Line.Draft
import AmosBasic.Proofs.Decoding.Refusal
import AmosBasic.Proofs.Reading.Endless
import AmosBasic.Proofs.Session.History

namespace AmosBasic

open Reading

/-- The source has so many bytes at least of a stream that never ends. -/
def Source.Begins (source : Source) (stream : Nat → UInt8) (bound : Nat) : Prop :=
  AmosBasic.Begins stream source.bytes ∧ bound ≤ source.bytes.length

namespace OpenFile

variable {σ : Type} (file : OpenFile)

theorem readLine_inTurn {view last : View} {handed : List Delivery} {error : DecodeError}
    (unfinished : file.exhaustedAt view.place.position = false)
    (failure : file.readLine.outcome view = ⟨.error error, handed, last⟩) : error.InTurn := by
  rcases file.readLine_cases view with ⟨exhausted, -⟩ | ⟨-, _, _, fails, same⟩ | ⟨-, _, _, -, -, same⟩ |
    ⟨-, _, _, -, -, same⟩
  · rw [exhausted] at unfinished
    cases unfinished
  · rw [same] at failure
    cases failure
    have line : (Line.reading file.options).Confined DecodeError.InTurn fun _ => False := Line.confined_reading _
    exact line.allows View.shortage_inTurn fails
  · rw [same] at failure
    cases failure
    exact id
  · rw [same] at failure
    cases failure

theorem readBankCount_inTurn {view last : View} {handed : List Delivery} {error : DecodeError}
    (finished : consumedAt view.place.position = file.header.sourceLength)
    (failure : file.readBankCount.outcome view = ⟨.error error, handed, last⟩) : error.InTurn := by
  rw [readBankCount_eq, outcome_currentPosition_bind, if_neg (not_not_intro finished)] at failure
  have count : (countReading view.place.position).Confined DecodeError.InTurn fun _ => True :=
    confined_countReading (fun _ => True.intro) _
  exact count.allows View.shortage_inTurn failure

theorem bank_inTurn {view last : View} {handed : List Delivery} {error : DecodeError}
    (left : view.place.progress.banksRemaining ≠ 0)
    (failure : Bank.reading.outcome view = ⟨.error error, handed, last⟩) : error.InTurn := by
  rcases Bank.reading_cases view with ⟨none, -⟩ | ⟨-, result, behind, same, content, -⟩
  · exact absurd none left
  · rw [same] at failure
    cases result with
    | ok => cases failure
    | error =>
      cases failure
      have bank : BankContent.reading.Confined DecodeError.InTurn fun _ => True :=
        BankContent.confined_reading fun _ => True.intro
      exact bank.allows View.shortage_inTurn content

theorem Course.inTurn {file : OpenFile} {sourceOnly : Bool} {view : View} {outcome : Outcome Summary}
    (course : file.Course sourceOnly view outcome) (opened : view.place.position = Header.size) {error : DecodeError}
    (failure : outcome.result = .error error) : error.InTurn := by
  have room : Header.size ≤ view.place.position := Nat.le_of_eq opened.symm
  cases course with
  | lineFails _ unfinished fails =>
    cases failure
    exact file.readLine_inTurn unfinished fails
  | listed => cases failure
  | countFails _ listing exhausted fails =>
    cases failure
    obtain ⟨-, finished⟩ := (file.behind_lines listing room).fills opened exhausted
    exact file.readBankCount_inTurn finished fails
  | bankFails _ _ _ _ _ left fails =>
    cases failure
    exact bank_inTurn left fails
  | whole => cases failure

theorem Course.filled {file : OpenFile} {sourceOnly : Bool} {view : View} {outcome : Outcome Summary}
    (course : file.Course sourceOnly view outcome) (opened : view.place.position = Header.size) {summary : Summary}
    (success : outcome.result = .ok summary) :
    ∃ lines : List Line, 2 * (lines.map Line.declaredWords).sum = file.header.sourceLength := by
  have room : Header.size ≤ view.place.position := Nat.le_of_eq opened.symm
  cases course with
  | lineFails | countFails | bankFails => cases success
  | @listed lines _ _ listing exhausted | @whole lines _ _ _ _ _ listing exhausted =>
    exact ⟨lines, ((file.behind_lines listing room).fills opened exhausted).1⟩

section

variable {α β : Type} {sink : Sink σ} {loop : Nat → β → Reading α} {finish : β → Reading α}
  {take : Line → Reading Unit} {next : β → Line → β}

/-- A loop over the lines comes to the same with any fuel that allows a round for every two bytes of the source that
are left. -/
theorem run_loop_of_enough (empty : ∀ state, loop 0 state = finish state)
    (round : ∀ fuel state, loop (fuel + 1) state = file.isExhausted >>= fun exhausted =>
      if exhausted then finish state
      else file.readLine >>= fun line => take line >>= fun _ => loop fuel (next state line))
    (stays : ∀ line machine, ((take line).run sink machine).2.cursor = machine.cursor) {fuel other : Nat}
    {machine : Machine σ} (opened : Header.size ≤ machine.cursor.position)
    (enough : file.header.sourceLength ≤ consumedAt machine.cursor.position + 2 * fuel)
    (otherEnough : file.header.sourceLength ≤ consumedAt machine.cursor.position + 2 * other) (state : β) :
    (loop fuel state).run sink machine = (loop other state).run sink machine := by
  have asks : ∀ fuel state (machine : Machine σ), (loop (fuel + 1) state).run sink machine =
      (if file.exhaustedAt machine.cursor.position = true then finish state
        else file.readLine >>= fun line => take line >>= fun _ => loop fuel (next state line)).run sink machine := by
    intro fuel state machine
    rw [round]
    rfl
  -- Whether there is another round depends on the place alone, and a line brings it at least one word further.
  induction fuel generalizing other machine state with
  | zero =>
    have exhausted : file.exhaustedAt machine.cursor.position = true := file.exhaustedAt_iff.mpr enough
    cases other with
    | zero => rfl
    | succ other => rw [asks, if_pos exhausted, empty]
  | succ fuel ih =>
    cases other with
    | zero =>
      have exhausted : file.exhaustedAt machine.cursor.position = true := file.exhaustedAt_iff.mpr otherEnough
      rw [asks, if_pos exhausted, empty]
    | succ other =>
      obtain ⟨middle, read, view, -⟩ := run_of_silent sink machine (file.readLine_silent machine.view)
      rw [asks, asks]
      by_cases exhausted : file.exhaustedAt machine.cursor.position = true
      · rw [if_pos exhausted, if_pos exhausted]
      · rw [if_neg exhausted, if_neg exhausted, run_bind, run_bind, read]
        rcases came : file.readLine.outcome machine.view with ⟨error | line, handed, last⟩
        · rfl
        · obtain ⟨-, -, positive, position, -, -⟩ := file.readLine_of_ok came
          rw [came] at view
          have reached : middle.cursor.position = machine.cursor.position + 2 * line.declaredWords :=
            (congrArg (·.place.position) view).trans position
          have consumed := consumedAt_add opened (2 * line.declaredWords)
          simp only [andThen, run_bind]
          rcases taking : (take line).run sink middle with ⟨error | taken, behind⟩
          · rfl
          · have stays : behind.cursor = middle.cursor := by rw [← stays line middle, taking]
            rw [← reached, ← stays] at consumed
            apply ih
            · rw [stays]
              omega
            · omega
            · omega

end

section

variable (sink : Sink σ) {machine : Machine σ} (opened : Header.size ≤ machine.cursor.position) {fuel : Nat}
  (enough : file.header.sourceLength ≤ 2 * fuel)

include opened enough

theorem run_linesReading_of_enough (read : List Line) : (file.linesReading fuel read).run sink machine =
    (file.linesReading file.header.sourceLength read).run sink machine := by
  have empty : ∀ read, file.linesReading 0 read = pure read.reverse := fun _ => rfl
  have round : ∀ fuel read, file.linesReading (fuel + 1) read = file.isExhausted >>= fun exhausted =>
      if exhausted then pure read.reverse
      else file.readLine >>= fun line => pure () >>= fun _ => file.linesReading fuel (line :: read) := fun _ _ => rfl
  exact file.run_loop_of_enough empty round (fun _ _ => rfl) opened (by omega) (by omega) read

theorem run_deliverLines_of_enough (summary : Summary) : (file.deliverLines fuel summary).run sink machine =
    (file.deliverLines file.header.sourceLength summary).run sink machine := by
  have empty : ∀ summary, file.deliverLines 0 summary = pure summary := fun _ => rfl
  have round : ∀ fuel summary, file.deliverLines (fuel + 1) summary = file.isExhausted >>= fun exhausted =>
      if exhausted then pure summary
      else file.readLine >>= fun line => handOver (.line line) >>= fun _ => file.deliverLines fuel summary.addLine :=
    fun _ _ => rfl
  have stays : ∀ line (machine : Machine σ), ((handOver (.line line)).run sink machine).2.cursor = machine.cursor := by
    intro line machine
    cases refusal : (sink machine.receiver (.line line)).refusal <;>
      simp only [handOver, run, Machine.deliver, refusal]
  exact file.run_loop_of_enough empty round stays opened (by omega) (by omega) summary

end

structure Fills (lines : List Line) (listed : Machine σ) : Prop where
  words : 2 * (lines.map Line.declaredWords).sum = file.header.sourceLength
  consumed : consumedAt listed.cursor.position = file.header.sourceLength

/-- Neither of the loops that read an opened file runs for more than a round for every two bytes of source, and one
that succeeds has read exactly the source. -/
structure EndsWithSource (sink : Sink σ) (opened : Machine σ) : Prop where
  rounds : ∀ fuel, file.header.sourceLength ≤ 2 * fuel →
    (file.linesReading fuel []).run sink opened = file.readSource.run sink opened ∧
    ∀ summary, (file.deliverLines fuel summary).run sink opened =
      (file.deliverLines file.header.sourceLength summary).run sink opened
  linesRead : (file.readSource.run sink opened).2.progress.linesRead ≤ file.header.sourceLength / 2
  linesHanded : ∀ summary, ((file.deliverLines file.header.sourceLength summary).callsTo sink opened).length ≤
    file.header.sourceLength / 2
  read : ∀ lines listed, file.readSource.run sink opened = (.ok lines, listed) → file.Fills lines listed
  handed : ∀ summary result listed,
    (file.deliverLines file.header.sourceLength summary).run sink opened = (.ok result, listed) →
    ∃ lines, (file.deliverLines file.header.sourceLength summary).callsTo sink opened = lines.map .line ∧
      file.Fills lines listed

theorem loops_from_header {view : View} (start : view.place = ⟨Header.size, {}⟩) :
    ∃ (lines : List Line) (result : Except DecodeError Unit) (last : View),
      file.readSource.outcome view = ⟨result.map fun _ => lines, [], last⟩ ∧
      (∀ summary, (file.deliverLines file.header.sourceLength summary).outcome view =
        ⟨result.map fun _ => { summary with lines := summary.lines + lines.length }, lines.map .line, last⟩) ∧
      lines.length ≤ file.header.sourceLength / 2 ∧ last.place.progress.linesRead = lines.length ∧
      (result = .ok () → 2 * (lines.map Line.declaredWords).sum = file.header.sourceLength ∧
        consumedAt last.place.position = file.header.sourceLength) := by
  have position : view.place.position = Header.size := congrArg Place.position start
  have uncounted : view.place.progress.linesRead = 0 := congrArg (·.progress.linesRead) start
  have room : Header.size ≤ view.place.position := Nat.le_of_eq position.symm
  have nothing : consumedAt view.place.position = 0 := by rw [position, consumedAt, Nat.sub_self]
  obtain ⟨lines, stop, result, last, listing, ends, collected, delivered⟩ :=
    file.listing_loops room (Nat.le_add_left file.header.sourceLength _)
  have behind := file.behind_lines listing room
  -- The lines that are kept lie within the source, each with one word or more.
  have few : lines.length ≤ file.header.sourceLength / 2 := by
    have words := behind.words
    have consumed := behind.consumed
    have within := behind.within (by omega)
    omega
  have counted : stop.place.progress.linesRead = lines.length := by rw [behind.progress, uncounted, Nat.zero_add]
  refine ⟨lines, result, last, collected [], delivered, few, ?_, ?_⟩
  · cases result with
    | ok => rw [ends.2, counted]
    | error error => rw [file.readLine_of_error ends.2, counted]
  · rintro rfl
    rw [ends.2]
    exact behind.fills position ends.1

theorem endsWithSource (sink : Sink σ) {opened : Machine σ} (start : opened.place = ⟨Header.size, {}⟩) :
    file.EndsWithSource sink opened := by
  have room : Header.size ≤ opened.cursor.position := Nat.le_of_eq (congrArg Place.position start).symm
  have start : opened.view.place = ⟨Header.size, {}⟩ := start
  obtain ⟨lines, result, last, source, delivered, few, counted, filled⟩ := file.loops_from_header start
  obtain ⟨listed, read, view, -⟩ := run_of_silent sink opened (file.silent_readSource opened.view).1
  rw [source] at read view
  have fills : result = .ok () → ∀ {behind : Machine σ}, behind.view = last → file.Fills lines behind := by
    rintro success behind rfl
    obtain ⟨words, consumed⟩ := filled success
    exact ⟨words, consumed⟩
  constructor
  case rounds =>
    intro fuel enough
    exact ⟨file.run_linesReading_of_enough sink room enough [], file.run_deliverLines_of_enough sink room enough⟩
  case linesRead =>
    have total : listed.progress.linesRead = lines.length :=
      (congrArg (·.place.progress.linesRead) view).trans counted
    rw [read, total]
    exact few
  case read =>
    intro found behind success
    rw [read] at success
    cases result with
    | ok =>
      cases success
      exact fills rfl view
    | error error => cases success
  case linesHanded =>
    intro summary
    rcases run_cases sink (file.deliverLines file.header.sourceLength summary) opened with
      ⟨_, -, -, calls⟩ | ⟨_, _, -, calls⟩
    · rw [calls, delivered, List.length_map]
      exact few
    · rw [delivered] at calls
      have length := calls.length_le
      rw [List.length_map] at length
      exact Nat.le_trans length few
  case handed =>
    intro summary counted behind success
    rcases run_cases sink (file.deliverLines file.header.sourceLength summary) opened with
      ⟨final, ran, view, calls⟩ | ⟨_, _, failed, -⟩
    · rw [delivered] at ran view calls
      rw [ran] at success
      cases result with
      | ok =>
        cases success
        exact ⟨lines, calls, fills rfl view⟩
      | error error => cases success
    · rw [failed] at success
      cases success

theorem openThen_endless {α : Type} (options : DecodeOptions) (next : OpenFile → Reading α) (stream : Nat → UInt8) :
    ∃ bound result handed last, ∀ source : Source, source.Begins stream bound → ∃ rest,
      (opening options (Machine.fresh source ()).view).andThen next =
        ⟨result, handed, ⟨rest, source.ending, last⟩⟩ := by
  let whole : Reading α := take HeaderVariant.magicLength fun magic =>
    (do return { header := ← headerReading magic, options } : Reading OpenFile) >>= next
  obtain ⟨bound, result, handed, last, same⟩ := outcome_endless whole stream ⟨0, {}⟩
  refine ⟨HeaderVariant.magicLength + bound, result, handed, last, fun source begins => ?_⟩
  have fits : HeaderVariant.magicLength ≤ (Machine.fresh source ()).view.unread.length :=
    Nat.le_trans (Nat.le_add_right _ _) begins.2
  obtain ⟨rest, same⟩ := same source.bytes source.ending begins.1 (Nat.le_trans (Nat.le_add_left _ _) begins.2)
  refine ⟨rest, ?_⟩
  rw [opening, if_pos fits, ← outcome_bind, ← same]
  exact (if_pos fits).symm

end OpenFile

theorem decodeOutcome_inTurn {options : DecodeOptions} {sourceOnly : Bool} {source : Source} {error : DecodeError}
    (failure : (decodeOutcome options sourceOnly (Machine.fresh source ()).view).result = .error error) :
    error.InTurn := by
  rcases decodeOutcome_cases options sourceOnly (Machine.fresh source ()).view with ⟨_, last, same, fails⟩ |
    ⟨file, opened, -, place, -, course⟩
  · rw [same] at failure
    cases failure
    exact OpenFile.opening_inTurn fails
  · exact course.inTurn (congrArg Place.position place) failure

theorem decodeOutcome_filled {σ : Type} {sink : Sink σ} {options : DecodeOptions} {sourceOnly : Bool} {source : Source}
    {receiver : σ} {file : OpenFile} {opened final : Machine σ} {summary : Summary}
    (opens : OpenFile.openOn sink options (.fresh source receiver) = (.ok file, opened))
    (success : decode sink options sourceOnly (.fresh source receiver) = (.ok summary, final)) :
    ∃ lines : List Line, 2 * (lines.map Line.declaredWords).sum = file.header.sourceLength := by
  obtain ⟨opening, place, -⟩ := OpenFile.openOn_of_ok opens
  rcases decode_cases sink options sourceOnly source receiver with ⟨_, -, same, -⟩ | ⟨_, _, _, _, _, -, -, same, -⟩
  · rw [success] at same
    rcases decodeOutcome_cases options sourceOnly (Machine.fresh source ()).view with ⟨_, last, -, fails⟩ |
      ⟨_, _, again, -, -, course⟩
    · rw [opening] at fails
      cases fails
    · rw [opening] at again
      cases again
      exact course.filled (congrArg Place.position place) (Prod.mk.inj same).1.symm
  · rw [success] at same
    cases same

theorem openThen_readSource {σ : Type} (sink : Sink σ) (options : DecodeOptions) (source : Source) (receiver : σ) :
    ∃ final, OpenFile.openThen sink options OpenFile.readSource (.fresh source receiver) =
        (((OpenFile.opening options (Machine.fresh source ()).view).andThen OpenFile.readSource).result, final) ∧
      final.view = ((OpenFile.opening options (Machine.fresh source ()).view).andThen OpenFile.readSource).view := by
  have silent : ((OpenFile.opening options (Machine.fresh source receiver).view).andThen OpenFile.readSource).handed =
      [] := by
    rcases Outcome.cases_of_silent (OpenFile.opening_silent options (Machine.fresh source receiver).view) with
      ⟨error, last, fails⟩ | ⟨file, opened, opens⟩
    · rw [fails]
      rfl
    · rw [opens]
      exact (file.silent_readSource opened).1
  obtain ⟨final, same, view, -⟩ := OpenFile.openThen_outcome sink options OpenFile.readSource (.fresh source receiver)
    (congrArg (sink.accept? receiver) silent)
  exact ⟨final, same, view⟩

/-- On every opened file the loops over the lines end, with the source if they succeed, so a source of odd length
never decodes. No decode run asks for a line, a bank section or a bank that is not due. On a stream that never ends,
all that there is to read is settled by a beginning of it. -/
theorem listing_ends_with_source {σ : Type} (sink : Sink σ) (options : DecodeOptions) (source : Source) (receiver : σ) :
    (∀ file opened, OpenFile.openOn sink options (.fresh source receiver) = (.ok file, opened) →
      file.EndsWithSource sink opened ∧ (file.header.sourceLength % 2 = 1 → ∀ sourceOnly, ∃ error final,
        decode sink options sourceOnly (.fresh source receiver) = (.error error, final))) ∧
    (∀ sourceOnly error final, decode sink options sourceOnly (.fresh source receiver) = (.error error, final) →
      error.OutOfTurn → ∃ front delivery, sink.Refuses receiver front delivery error final.receiver ∧
        sinkCalls sink options sourceOnly (.fresh source receiver) = front ++ [delivery]) ∧
    ∀ stream, (∃ bound, ∀ one other : Source, one.Begins stream bound → other.Begins stream bound →
      let (listed, last) := OpenFile.openThen sink options OpenFile.readSource (.fresh one receiver)
      let (again, otherLast) := OpenFile.openThen sink options OpenFile.readSource (.fresh other receiver)
      listed = again ∧ last.cursor.position = otherLast.cursor.position) ∧
      ∀ sourceOnly, ∃ bound, ∀ one other : Source, one.Begins stream bound → other.Begins stream bound →
        (decode sink options sourceOnly (.fresh one receiver)).1 =
            (decode sink options sourceOnly (.fresh other receiver)).1 ∧
          sinkCalls sink options sourceOnly (.fresh one receiver) =
            sinkCalls sink options sourceOnly (.fresh other receiver) := by
  refine ⟨fun file opened opens => ⟨?_, fun odd sourceOnly => ?_⟩, fun sourceOnly error final failure early => ?_,
    fun stream => ⟨?_, fun sourceOnly => ?_⟩⟩
  · exact file.endsWithSource sink (OpenFile.openOn_of_ok opens).2.1
  · rcases decoded : decode sink options sourceOnly (.fresh source receiver) with ⟨error | summary, final⟩
    · exact ⟨error, final, rfl⟩
    · obtain ⟨lines, filled⟩ := decodeOutcome_filled opens decoded
      omega
  · rcases decode_cases sink options sourceOnly source receiver with ⟨_, -, same, -⟩ |
      ⟨front, delivery, _, _, _, -, refuses, same, calls⟩
    · rw [failure] at same
      exact absurd early (decodeOutcome_inTurn (Prod.mk.inj same).1.symm)
    · rw [failure] at same
      cases same
      exact ⟨front, delivery, refuses, calls⟩
  · obtain ⟨bound, result, handed, last, same⟩ := OpenFile.openThen_endless options OpenFile.readSource stream
    refine ⟨bound, fun one other begins otherBegins => ?_⟩
    obtain ⟨_, came⟩ := same one begins
    obtain ⟨_, otherCame⟩ := same other otherBegins
    obtain ⟨_, listed, view⟩ := openThen_readSource sink options one receiver
    obtain ⟨_, again, otherView⟩ := openThen_readSource sink options other receiver
    rw [came] at listed view
    rw [otherCame] at again otherView
    rw [listed, again]
    exact ⟨rfl, (congrArg (·.place.position) view).trans (congrArg (·.place.position) otherView).symm⟩
  · obtain ⟨bound, result, handed, last, same⟩ :=
      OpenFile.openThen_endless options (fun file => file.decoding sourceOnly) stream
    refine ⟨bound, fun one other begins otherBegins => ?_⟩
    obtain ⟨_, came⟩ := same one begins
    obtain ⟨_, otherCame⟩ := same other otherBegins
    apply decode_congr sink receiver <;> rw [decodeOutcome, decodeOutcome, came, otherCame]

theorem listing_ends_with_source_remark :
    let bytes := encodeFile (Latin1.encode "AMOS Basic V134 ") (LineDraft.encode ⟨1, [.remark .rem [0x48, 0x69]]⟩) []
    ∃ file opened, OpenFile.openOn Sink.discard {} (.fresh { bytes } ()) = (.ok file, opened) ∧
      file.header.sourceLength = 10 ∧ file.EndsWithSource Sink.discard opened := by
  intro bytes
  have accepted : (OpenFile.opening {} (Machine.fresh { bytes } ()).view).result.map (·.header) =
      .ok ⟨HeaderVariant.known[1], 10⟩ := by decide
  obtain ⟨file, opened, opens, header⟩ := OpenFile.openOn_of_header accepted Sink.discard ()
  obtain ⟨ends, -⟩ := (listing_ends_with_source Sink.discard {} { bytes } ()).1 file opened opens
  exact ⟨file, opened, opens, congrArg Header.sourceLength header, ends⟩

end AmosBasic
