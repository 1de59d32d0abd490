import AmosBasic.Proofs.Export.Run

namespace AmosBasic

section

variable {σ : Type} {sink : Sink σ} {receiver middle last : σ}

theorem Sink.accept?_of_give {calls : List Delivery} (accepted : (sink.give receiver calls).refusal = none) :
    sink.accept? receiver calls = some (sink.give receiver calls).receiver := by
  induction calls generalizing receiver with
  | nil => rfl
  | cons delivery calls ih =>
    have first : (sink receiver delivery).refusal = none := Receipt.accepted_of_andThen accepted
    simp only [give, Receipt.each, Receipt.andThen_of_accepted first] at accepted ih ⊢
    simp only [accept?, first]
    exact ih accepted

theorem Sink.Refuses.behind {taken rest front back : List Delivery} {delivery : Delivery} {error : DecodeError}
    (refuses : sink.Refuses receiver front delivery error last) (accepted : sink.accept? receiver taken = some middle)
    (split : taken ++ rest = front ++ delivery :: back) :
    ∃ more, front = taken ++ more ∧ rest = more ++ delivery :: back := by
  rcases List.append_eq_append_iff.mp split with ⟨more, rfl, same⟩ | ⟨more, rfl, same⟩
  · exact ⟨more, rfl, same⟩
  · obtain ⟨before, first, refusal, -⟩ := refuses
    cases more with
    | nil => exact ⟨[], by simp, same.symm⟩
    | cons other more =>
      obtain ⟨rfl, rfl⟩ := List.cons.inj same
      simp [Sink.accept?_append, first, Sink.accept?, refusal] at accepted

end

namespace Exporter

def listed (exporter : Exporter) (text : String) : Exporter :=
  { exporter with listing := { exporter.listing with text := exporter.listing.text ++ text } }

variable {exporter : Exporter}

theorem listed_listed (exporter : Exporter) (text more : String) :
    (exporter.listed text).listed more = exporter.listed (text ++ more) := by
  simp [listed, String.append_assoc]

theorem writeText_unlimited (unlimited : exporter.listing.limit? = none) (text : String) :
    exporter.writeText text = accept (exporter.listed text) := by
  by_cases empty : text.isEmpty
  · obtain rfl := String.isEmpty_iff.mp empty
    simp [writeText, Listing.write, listed]
  · simp [writeText, Listing.write, listed, empty, unlimited]

theorem receive_line_unlimited (unlimited : exporter.listing.limit? = none) (line : Line) :
    receive exporter (.line line) = accept (exporter.listed (line.text ++ "\n")) := by
  have behind : (exporter.listed line.text).listing.limit? = none := unlimited
  rw [receive, writeLine, writeText_unlimited unlimited, accept, Receipt.andThen_accept, writeText_unlimited behind,
    listed_listed]

theorem give_lines_unlimited (unlimited : exporter.listing.limit? = none) (lines : List Line) :
    Sink.give receive exporter (lines.map .line) = accept (exporter.listed (listedText lines)) := by
  induction lines generalizing exporter with
  | nil => simp [Sink.give, Receipt.each, accept, listed, listedText]
  | cons line lines ih =>
    have behind : (exporter.listed (line.text ++ "\n")).listing.limit? = none := unlimited
    have text : listedText (line :: lines) = line.text ++ "\n" ++ listedText lines := by
      simp [listedText, String.join_cons]
    rw [text, ← listed_listed, ← ih behind, List.map_cons, Sink.give, Receipt.each, receive_line_unlimited unlimited,
      accept, Receipt.andThen_accept, Sink.give]

end Exporter

section

variable (options : DecodeOptions) (sourceOnly : Bool) (source : Source) (output : OutputOptions) (tree : FileTree)
  {listing : Listing} (unlimited : listing.limit? = none)

include unlimited

/-- The exporter is handed all the lines that are due. Of the banks behind them some may be missing. -/
theorem sinkCalls_unlimited :
    ∃ (lines : List Line) (contents received : List BankContent),
      sinkCalls Sink.discard options sourceOnly (.fresh source ()) = lines.map .line ++ contents.map .bank ∧
      sinkCalls Exporter.receive options sourceOnly (.fresh source (.fresh listing output tree)) =
        lines.map .line ++ received.map .bank ∧
      received <+: contents := by
  obtain ⟨lines, banks, _, _, handed, -⟩ := decodeOutcome_handed options sourceOnly (Machine.fresh source ()).view
  have willing : ∀ receiver delivery, (Sink.discard receiver delivery).refusal = none := fun _ _ => rfl
  obtain ⟨-, due⟩ := sinkCalls_outcome options sourceOnly willing source ()
  rw [handed, deliveries] at due
  rcases decode_cases Exporter.receive options sourceOnly source (.fresh listing output tree) with
    ⟨_, -, -, -, calls⟩ | ⟨front, delivery, back, _, _, split, refuses, -, calls⟩
  · exact ⟨lines, banks.map Bank.content, _, due, calls.trans handed, List.prefix_refl _⟩
  · rw [handed, deliveries] at split
    have given := Exporter.give_lines_unlimited
      (show (Exporter.fresh listing output tree).listing.limit? = none from unlimited) lines
    -- All lines are taken, so that what is refused is a bank.
    obtain ⟨more, rfl, behind⟩ := refuses.behind (Sink.accept?_of_give (congrArg Receipt.refusal given)) split
    refine ⟨lines, banks.map Bank.content, (banks.map Bank.content).take (more.length + 1), due, ?_,
      List.take_prefix _ _⟩
    rw [calls, List.map_take, behind, List.append_assoc, List.take_length_add_append]
    rfl

theorem decode_lists :
    ∃ (lines : List Line) (contents received : List BankContent),
      sinkCalls Sink.discard options sourceOnly (.fresh source ()) = lines.map .line ++ contents.map .bank ∧
      sinkCalls Exporter.receive options sourceOnly (.fresh source (.fresh listing output tree)) =
        lines.map .line ++ received.map .bank ∧
      received <+: contents ∧
      (decode Exporter.receive options sourceOnly (.fresh source (.fresh listing output tree))).2.receiver.listing =
        { listing with text := listing.text ++ Exporter.listedText lines } := by
  obtain ⟨lines, contents, received, due, calls, first⟩ :=
    sinkCalls_unlimited options sourceOnly source output tree unlimited
  have given := Exporter.give_lines_unlimited
    (show (Exporter.fresh listing output tree).listing.limit? = none from unlimited) lines
  have uncounted : ((Exporter.fresh listing output tree).listed (Exporter.listedText lines)).count =
      BankContent.countImages [] := by
    funext kind
    cases kind <;> rfl
  -- The banks behind the lines leave the listing as it is.
  obtain ⟨_, exports⟩ := Exporter.give_banks_exports (sound_of_sinkCalls calls) uncounted
  obtain ⟨left, -⟩ := decode_given Exporter.receive options sourceOnly source (.fresh listing output tree)
  refine ⟨lines, contents, received, due, calls, first, ?_⟩
  rw [left, calls, Sink.give_append, given, Exporter.accept, Receipt.andThen_accept, exports.listing]
  rfl

end

end AmosBasic
