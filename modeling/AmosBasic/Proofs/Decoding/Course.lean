import AmosBasic.Proofs.Session.Listing
import AmosBasic.Proofs.Session.Opening
import AmosBasic.Proofs.Session.Section

namespace AmosBasic

open Reading

def deliveries (lines : List Line) (banks : List Bank) : List Delivery :=
  lines.map .line ++ (banks.map Bank.content).map .bank

namespace OpenFile

variable (file : OpenFile) (sourceOnly : Bool)

theorem decoding_outcome (view : View) :
    (file.decoding sourceOnly).outcome view =
      (file.deliverLines file.header.sourceLength { header := file.header } >>= fun lines =>
        if sourceOnly then pure lines
        else file.readBankCount >>= fun count => deliverBanks count lines).outcome view := by
  have remarked : ∀ reading : Reading Summary,
      (reading >>= fun summary => remark (.finished summary) >>= fun _ => pure summary).outcome view =
        reading.outcome view := by
    intro reading
    rw [outcome_bind, Outcome.andThen]
    rcases reading.outcome view with ⟨error | summary, handed, last⟩
    · rfl
    · exact congrArg (fun calls => (⟨.ok summary, calls, last⟩ : Outcome Summary)) (List.append_nil handed)
  refine Eq.trans ?_ (remarked _)
  cases sourceOnly <;>
    simp only [decoding, LawfulMonad.bind_assoc, LawfulMonad.pure_bind, Bool.false_eq_true, if_true, if_false]

def summarize (lines : List Line) (banks : List Bank) : Summary :=
  (banks.map Bank.content).foldl Summary.addBank { header := file.header, lines := lines.length }

inductive Course (view : View) : Outcome Summary → Prop
  | lineFails {lines : List Line} {stop last : View} {error : DecodeError}
      (listing : Repeats file.readLine view lines stop) (unfinished : file.exhaustedAt stop.place.position = false)
      (fails : file.readLine.outcome stop = ⟨.error error, [], last⟩) :
      Course view ⟨.error error, deliveries lines [], last⟩
  | listed {lines : List Line} {stop : View} (wanted : sourceOnly = true)
      (listing : Repeats file.readLine view lines stop) (exhausted : file.exhaustedAt stop.place.position = true) :
      Course view ⟨.ok (file.summarize lines []), deliveries lines [], stop⟩
  | countFails {lines : List Line} {stop last : View} {error : DecodeError} (wanted : sourceOnly = false)
      (listing : Repeats file.readLine view lines stop) (exhausted : file.exhaustedAt stop.place.position = true)
      (fails : file.readBankCount.outcome stop = ⟨.error error, [], last⟩) :
      Course view ⟨.error error, deliveries lines [], last⟩
  | bankFails {lines : List Line} {stop counted behind last : View} {count : Nat} {banks : List Bank}
      {error : DecodeError} (wanted : sourceOnly = false)
      (listing : Repeats file.readLine view lines stop) (exhausted : file.exhaustedAt stop.place.position = true)
      (counts : file.readBankCount.outcome stop = ⟨.ok count, [], counted⟩)
      (reads : Repeats Bank.reading counted banks behind) (left : behind.place.progress.banksRemaining ≠ 0)
      (fails : Bank.reading.outcome behind = ⟨.error error, [], last⟩) :
      Course view ⟨.error error, deliveries lines banks, last⟩
  | whole {lines : List Line} {stop counted behind : View} {banks : List Bank} (wanted : sourceOnly = false)
      (listing : Repeats file.readLine view lines stop) (exhausted : file.exhaustedAt stop.place.position = true)
      (counts : file.readBankCount.outcome stop = ⟨.ok banks.length, [], counted⟩)
      (reads : Repeats Bank.reading counted banks behind) :
      Course view ⟨.ok (file.summarize lines banks), deliveries lines banks, behind⟩

theorem decoding_course {view : View} (opened : Header.size ≤ view.place.position) :
    file.Course sourceOnly view ((file.decoding sourceOnly).outcome view) := by
  obtain ⟨lines, stop, result, last, listing, ends, -, delivered⟩ :=
    file.listing_loops opened (Nat.le_add_left file.header.sourceLength _)
  have onlyLines : lines.map Delivery.line = deliveries lines [] := (List.append_nil _).symm
  rw [decoding_outcome, outcome_bind, delivered, Nat.zero_add, onlyLines]
  cases result with
  | error error => exact .lineFails listing ends.1 ends.2
  | ok =>
    obtain ⟨exhausted, rfl⟩ := ends
    cases wanted : sourceOnly with
    | true =>
      have same : deliveries lines [] ++ [] = deliveries lines [] := List.append_nil _
      simp only [Outcome.andThen, Except.map, if_true, pure, outcome, same]
      exact .listed rfl listing exhausted
    | false =>
      simp only [Outcome.andThen, Except.map, Bool.false_eq_true, if_false]
      rcases file.readBanks_cases last with ⟨error, behind, fails, -⟩ |
        ⟨count, counted, banks, behind, result, after, counts, place, reads, ends, -, delivered⟩
      · have same : deliveries lines [] ++ [] = deliveries lines [] := List.append_nil _
        simp only [outcome_bind_of_error fails, same]
        exact .countFails rfl listing exhausted fails
      · have same : deliveries lines [] ++ (banks.map Bank.content).map Delivery.bank = deliveries lines banks := by
          simp only [deliveries, List.map_nil, List.append_nil]
        simp only [outcome_bind_of_ok counts, delivered, same]
        cases result with
        | ok =>
          obtain ⟨rfl, rfl⟩ := ends
          exact .whole rfl listing exhausted counts reads
        | error error =>
          obtain ⟨due, fails⟩ := ends
          obtain ⟨declared, read⟩ := reads.behind_banks
          have left : behind.place.progress.banksRemaining ≠ 0 := by
            rw [Progress.banksRemaining, declared, read, place]
            change count - (0 + banks.length) ≠ 0
            omega
          exact .bankFails rfl listing exhausted counts reads left fails

end OpenFile

theorem decodeOutcome_cases (options : DecodeOptions) (sourceOnly : Bool) (view : View) :
    (∃ error last, decodeOutcome options sourceOnly view = ⟨.error error, [], last⟩ ∧
      OpenFile.opening options view = ⟨.error error, [], last⟩) ∨
    ∃ file opened, OpenFile.opening options view = ⟨.ok file, [], opened⟩ ∧
      opened.place = view.place.behind Header.size ∧
      decodeOutcome options sourceOnly view = (file.decoding sourceOnly).outcome opened ∧
      file.Course sourceOnly opened (decodeOutcome options sourceOnly view) := by
  rcases Outcome.cases_of_silent (OpenFile.opening_silent options view) with
    ⟨error, last, fails⟩ | ⟨file, opened, opens⟩
  · refine .inl ⟨error, last, ?_, fails⟩
    rw [decodeOutcome, fails]
    rfl
  · have whole : decodeOutcome options sourceOnly view = (file.decoding sourceOnly).outcome opened := by
      rw [decodeOutcome, opens]
      rfl
    obtain ⟨-, place⟩ := OpenFile.opening_of_ok (congrArg Outcome.result opens)
    rw [opens] at place
    have room : Header.size ≤ opened.place.position := by
      rw [place]
      exact Nat.le_add_left _ _
    refine .inr ⟨file, opened, opens, place, whole, ?_⟩
    rw [whole]
    exact file.decoding_course sourceOnly room

theorem decodeOutcome_handed (options : DecodeOptions) (sourceOnly : Bool) (view : View) :
    ∃ lines banks start stop, (decodeOutcome options sourceOnly view).handed = deliveries lines banks ∧
      Repeats Bank.reading start banks stop := by
  rcases decodeOutcome_cases options sourceOnly view with ⟨error, last, same, -⟩ | ⟨file, opened, -, -, -, course⟩
  · rw [same]
    exact ⟨[], [], view, view, rfl, .nil⟩
  · generalize decodeOutcome options sourceOnly view = outcome at course ⊢
    cases course with
    | lineFails | listed | countFails => exact ⟨_, [], view, view, rfl, .nil⟩
    | bankFails _ _ _ _ reads | whole _ _ _ _ reads => exact ⟨_, _, _, _, rfl, reads⟩

end AmosBasic
