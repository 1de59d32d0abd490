import AmosBasic.Proofs.Decoding.Deliveries
import AmosBasic.Proofs.Reading.Cut

namespace AmosBasic

open Reading

variable {σ : Type} {options : DecodeOptions} {sourceOnly : Bool}

variable {magic bytes : List UInt8} {handed : List Delivery} {stop : Place} {summary : Summary}

def Ending.ReportsCut (ending : Ending) (left : List UInt8) (error : DecodeError) : Prop :=
  match ending with
  | .finished =>
    if left.length < HeaderVariant.magicLength then error = .unsupportedFormat left
    else ∃ offset expected actual, error = .incompleteRead offset expected actual ∧
      offset + actual = left.length ∧ actual < expected
  | .broken text => error = .io text

theorem Ending.reportsCut_of_short {left : List UInt8} (short : left.length < HeaderVariant.magicLength)
    (ending : Ending) : ending.ReportsCut left (ending.magicError left) := by
  cases ending with
  | finished => exact (if_pos short).mpr rfl
  | broken text => rfl

theorem Ending.reportsCut_of_reported {ending : Ending} {left : List UInt8} {error : DecodeError}
    (enough : ¬ left.length < HeaderVariant.magicLength) (reported : ending.Reported left.length error) :
    ending.ReportsCut left error := by
  cases ending with
  | finished => exact (if_neg enough).mpr reported
  | broken text => exact reported

/-- Wherever the bytes of a passage are cut, what is handed over before the cut is fixed. -/
theorem decode_fails_cut {left : List UInt8} (filled : magic.length = HeaderVariant.magicLength)
    (passage : Passes (fileReading options sourceOnly magic) ⟨HeaderVariant.magicLength, {}⟩ bytes handed stop summary)
    (begins : left <+: magic ++ bytes) (less : left.length < (magic ++ bytes).length) :
    ∃ early, early <+: handed ∧
      ∀ {σ : Type} (sink : Sink σ) (source : Source) (receiver last : σ), source.bytes = left →
        sink.accept? receiver handed = some last →
        ∃ error final, decode sink options sourceOnly (.fresh source receiver) = (.error error, final) ∧
          sink.accept? receiver early = some final.receiver ∧ source.ending.ReportsCut left error := by
  by_cases short : left.length < HeaderVariant.magicLength
  · refine ⟨[], List.nil_prefix, fun sink source receiver last cut _ => ?_⟩
    rw [← cut, ← Machine.unread_fresh source receiver] at short
    obtain ⟨final, failed, kept⟩ := decode_of_short sink options sourceOnly short
    refine ⟨_, final, failed, congrArg some kept.symm, ?_⟩
    rw [← cut]
    exact source.ending.reportsCut_of_short short
  · obtain ⟨behind, rfl⟩ := List.prefix_of_prefix_length_le (List.prefix_append ..) begins (by omega)
    rw [List.prefix_append_right_inj] at begins
    rw [List.length_append, List.length_append, Nat.add_lt_add_iff_left] at less
    obtain ⟨early, among, fails⟩ := failsAfter_cut passage begins less
    refine ⟨early, among, fun sink source receiver last cut accepted => ?_⟩
    rw [← Machine.unread_fresh source receiver] at cut
    obtain ⟨later, same, remains, ending, kept, place⟩ := decode_of_magic sink options sourceOnly cut filled
    rw [Machine.receiver_fresh] at kept
    rw [← kept] at accepted
    have place : later.place = ⟨HeaderVariant.magicLength, {}⟩ := place
    rw [← place, ← remains] at fails
    obtain ⟨error, final, failed, taken, reported⟩ := fails.run among accepted
    rw [kept] at taken
    have position : later.cursor.position = HeaderVariant.magicLength := congrArg Place.position place
    rw [ending, Machine.ending_fresh, position, remains] at reported
    refine ⟨error, final, same.trans failed, taken, Ending.reportsCut_of_reported short ?_⟩
    rw [List.length_append, filled]
    exact reported

/-- A successful run consumes `final.cursor.position` bytes. With these bytes and anything behind them it is
repeated. Without all of them the cut is reported, and the calls made before are a part of the calls of the
whole run that the place of the cut alone determines. -/
theorem decode_cut {sink : Sink σ} {source : Source} {receiver : σ} {final : Machine σ}
    (success : decode sink options sourceOnly (.fresh source receiver) = (.ok summary, final)) (count : Nat) :
    (final.cursor.position ≤ count → ∀ other : Source, source.bytes.take count <+: other.bytes →
      ∃ last, decode sink options sourceOnly (.fresh other receiver) = (.ok summary, last) ∧
        last.cursor.position = final.cursor.position ∧ last.receiver = final.receiver ∧
        sinkCalls sink options sourceOnly (.fresh other receiver) =
          sinkCalls sink options sourceOnly (.fresh source receiver)) ∧
    (count < final.cursor.position →
      ∃ calls, calls <+: sinkCalls sink options sourceOnly (.fresh source receiver) ∧
        ∀ other : Source, other.bytes = source.bytes.take count →
          sinkCalls sink options sourceOnly (.fresh other receiver) = calls ∧
          ∃ error last, decode sink options sourceOnly (.fresh other receiver) = (.error error, last) ∧
            other.ending.ReportsCut (source.bytes.take count) error) := by
  obtain ⟨magic, bytes, handed, whole, filled, passage, accepted⟩ := passes_of_decode success
  have calls := sinkCalls_of_passes filled passage whole accepted
  have position : final.cursor.position = (magic ++ bytes).length := by
    rw [List.length_append, filled]
    exact passage.stop_position
  rw [← List.append_assoc] at whole
  rw [calls, position]
  constructor
  · intro enough other begins
    have front : magic ++ bytes <+: source.bytes.take count := by
      rw [List.prefix_take_iff]
      exact ⟨⟨_, whole.symm⟩, enough⟩
    obtain ⟨rest, same⟩ := front.trans begins
    rw [List.append_assoc] at same
    obtain ⟨last, repeated, taken, stopped, -⟩ := decode_of_passes filled passage same.symm accepted
    refine ⟨last, repeated, ?_, taken, sinkCalls_of_passes filled passage same.symm accepted⟩
    rw [← position]
    exact congrArg Place.position stopped
  · intro less
    have size : (source.bytes.take count).length = count := by
      apply List.length_take_of_le
      rw [whole, List.length_append]
      omega
    have begins : source.bytes.take count <+: magic ++ bytes := by
      rw [whole, List.take_append_of_le_length (by omega)]
      exact List.take_prefix _ _
    obtain ⟨early, among, fails⟩ := decode_fails_cut filled passage begins (by omega)
    refine ⟨early, among, fun other cut => ⟨?_, ?_⟩⟩
    · -- The list of the calls is part of a receiver, so a run that keeps it fails with the same prefix.
      have recorded := Sink.accept?_recorded_of_accept? accepted
      obtain ⟨error, last, failed, taken, -⟩ := fails sink.recorded other _ _ cut recorded
      rw [sinkCalls_fresh, failed, Sink.calls_of_accept?_recorded taken]
    · obtain ⟨error, last, failed, -, reported⟩ := fails sink other _ _ cut accepted
      exact ⟨error, last, failed, reported⟩

theorem decode_cut_remark :
    let variant : HeaderVariant := HeaderVariant.known[1]
    let bytes := encodeFile variant.magic (LineDraft.encode ⟨1, [.remark .rem [0x48, 0x69]]⟩) []
    (∃ summary last, decode Sink.discard {} true (.fresh { bytes := bytes ++ [7] } ()) = (.ok summary, last) ∧
      last.cursor.position = 30) ∧
    ∃ error last, decode Sink.discard {} true (.fresh { bytes := bytes.take 27 } ()) = (.error error, last) ∧
      Ending.finished.ReportsCut (bytes.take 27) error := by
  intro variant bytes
  let source : Source := { bytes }
  let drafts : List LineDraft := [⟨1, [.remark .rem [0x48, 0x69]]⟩]
  have known : variant ∈ HeaderVariant.known := by decide
  have valid : ∀ draft ∈ drafts, draft.Valid := by decide
  have passage : Passes (fileReading {} true variant.magic) _ _ _ _ _ := passes_sourceOnly known valid (by decide)
  have whole : source.bytes = variant.magic ++
      (bigEndianBytes 4 10 ++ (drafts.flatMap LineDraft.encode ++ []) ++ []) := by decide
  obtain ⟨last, accepted⟩ := Sink.discard.accept?_of_willing (fun _ _ => rfl) ()
    ((LineDraft.placed {} Header.size drafts).map .line ++ [])
  obtain ⟨final, success, -, stopped, -⟩ := decode_of_passes (HeaderVariant.length_magic known) passage whole accepted
  have position : final.cursor.position = 30 := congrArg Place.position stopped
  obtain ⟨longer, -⟩ := decode_cut success 30
  obtain ⟨-, shorter⟩ := decode_cut success 27
  have begins : bytes.take 30 <+: bytes ++ [7] := (List.take_prefix _ _).trans (List.prefix_append _ _)
  obtain ⟨last, repeated, further, -⟩ := longer (Nat.le_of_eq position) { bytes := bytes ++ [7] } begins
  obtain ⟨calls, -, fails⟩ := shorter (by rw [position]; decide)
  obtain ⟨-, error, failed⟩ := fails { bytes := bytes.take 27 } rfl
  exact ⟨⟨_, last, repeated, further.trans position⟩, error, failed⟩

end AmosBasic
