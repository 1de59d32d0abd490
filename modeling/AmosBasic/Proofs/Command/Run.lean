import AmosBasic.Proofs.Command.Grammar
import AmosBasic.Proofs.Command.Input
import AmosBasic.Proofs.Export.Listing

namespace AmosBasic.Command

structure Overrides (given : List Argument) (configured used : Settings) : Prop where
  floatFormat : used.decoder.floatFormat =
    if switchGiven given .ieeeFloat then .ieee else configured.decoder.floatFormat
  unknownOpcode : used.decoder.unknownOpcode =
    if switchGiven given .permissive then .permissive else configured.decoder.unknownOpcode
  sourceOnly : used.output.sourceOnly = (switchGiven given .sourceOnly || configured.output.sourceOnly)
  imageFolder : used.output.imageFolder = (pathGiven? given .imageFolder).getD configured.output.imageFolder
  dataFolder : used.output.dataFolder = (pathGiven? given .dataFolder).getD configured.output.dataFolder

namespace Invocation

def exporter (invocation : Invocation) (used : Settings) : Exporter :=
  .fresh { flushFailure? := invocation.flushFailure? } used.output invocation.tree

def exported (invocation : Invocation) (used : Settings) (source : Source) :
    Except DecodeError Summary × Machine Exporter :=
  decode Exporter.receive used.decoder used.output.sourceOnly (.fresh source (invocation.exporter used))

end Invocation

structure WritesNoFile (invocation : Invocation) (status : Nat) (output : String) (outcome : Outcome) : Prop where
  status : outcome.status = status
  output : outcome.output = output
  tree : outcome.tree = invocation.tree
  written : outcome.written = []

/-- The run is the export of the source. It lists all lines that decoding comes to, whatever becomes of the banks. -/
structure ExportsSource (invocation : Invocation) (used : Settings) (source : Source) (outcome : Outcome) : Prop where
  lists : ∃ (lines : List Line) (contents received : List BankContent),
    sinkCalls Sink.discard used.decoder used.output.sourceOnly (.fresh source ()) =
      lines.map .line ++ contents.map .bank ∧
    sinkCalls Exporter.receive used.decoder used.output.sourceOnly (.fresh source (invocation.exporter used)) =
      lines.map .line ++ received.map .bank ∧
    received <+: contents ∧ outcome.output = Exporter.listedText lines
  output : outcome.output = (invocation.exported used source).2.receiver.listing.text
  tree : outcome.tree = (invocation.exported used source).2.receiver.tree
  written : outcome.written = (invocation.exported used source).2.receiver.files.toList
  success : outcome.status = 0 ↔ (∃ summary, (invocation.exported used source).1 = .ok summary) ∧
    (invocation.exported used source).2.receiver.finish = .ok outcome.output
  exit : outcome.status = 0 ∨ outcome.status = 1

theorem ExportsSource.withMessages {invocation : Invocation} {used : Settings} {source : Source} {outcome : Outcome}
    (exports : ExportsSource invocation used source outcome) (messages : String) :
    ExportsSource invocation used source { outcome with messages } :=
  ⟨exports.lists, exports.output, exports.tree, exports.written, exports.success, exports.exit⟩

theorem text_of_finish {exporter : Exporter} {text : String} (finished : exporter.finish = .ok text) :
    text = exporter.listing.text := by
  unfold Exporter.finish Listing.flush at finished
  split at finished
  · cases finished
  · exact (Except.ok.inj finished).symm

section

variable (invocation : Invocation) (logger : Logger) (verbose : Bool) (used : Settings) (path : String)
  (source : Source)

theorem exportSource_left :
    let outcome := exportSource invocation logger verbose used path source
    let exporter := (invocation.exported used source).2.receiver
    outcome.output = exporter.listing.text ∧ outcome.tree = exporter.tree ∧
      outcome.written = exporter.files.toList := by
  dsimp only
  rcases ran : invocation.exported used source with ⟨result, machine⟩
  unfold Invocation.exported Invocation.exporter Machine.fresh Exporter.fresh at ran
  simp only [exportSource, ran]
  cases result with
  | error error => exact ⟨rfl, rfl, rfl⟩
  | ok summary => cases machine.receiver.finish <;> exact ⟨rfl, rfl, rfl⟩

theorem exportSource_status :
    (exportSource invocation logger verbose used path source).status =
      match (invocation.exported used source).1, (invocation.exported used source).2.receiver.finish with
      | .ok _, .ok _ => 0
      | _, _ => 1 := by
  rcases ran : invocation.exported used source with ⟨result, machine⟩
  unfold Invocation.exported Invocation.exporter Machine.fresh Exporter.fresh at ran
  simp only [exportSource, ran]
  cases result with
  | error error => rfl
  | ok summary => cases machine.receiver.finish <;> rfl

theorem exportsSource :
    ExportsSource invocation used source (exportSource invocation logger verbose used path source) := by
  have unlimited : ({ flushFailure? := invocation.flushFailure? } : Listing).limit? = none := rfl
  obtain ⟨lines, contents, received, due, calls, first, listing⟩ :=
    decode_lists used.decoder used.output.sourceOnly source used.output invocation.tree unlimited
  have text : (invocation.exported used source).2.receiver.listing.text = "" ++ Exporter.listedText lines :=
    congrArg Listing.text listing
  obtain ⟨output, tree, written⟩ := exportSource_left invocation logger verbose used path source
  have status := exportSource_status invocation logger verbose used path source
  refine ⟨⟨lines, contents, received, due, calls, first, ?_⟩, output, tree, written, ?_, ?_⟩
  · rw [output, text, String.empty_append]
  · rw [status, output]
    cases (invocation.exported used source).1 with
    | error error => simp
    | ok summary =>
      cases finished : (invocation.exported used source).2.receiver.finish with
      | error error => simp
      | ok closed => simp [text_of_finish finished]
  · rw [status]
    split
    · exact .inl rfl
    · exact .inr rfl

end

theorem overrides_apply (given : List Argument) (configured : Settings) :
    Overrides given configured ((argumentsOf given).apply configured) where
  floatFormat := by rw [← isOn_argumentsOf]; rfl
  unknownOpcode := by rw [← isOn_argumentsOf]; rfl
  sourceOnly := by rw [← isOn_argumentsOf]; rfl
  imageFolder := by rw [← value?_argumentsOf]; rfl
  dataFolder := by rw [← value?_argumentsOf]; rfl

namespace Libraries

variable (libraries : Libraries)

theorem settingsOf_ok_iff {tree : FileTree} {given : List Argument} {used : Settings} :
    libraries.settingsOf tree (argumentsOf given) = .ok used ↔
      ∃ configured, libraries.Configured tree given configured ∧ used = (argumentsOf given).apply configured := by
  have config : (argumentsOf given).config? = pathGiven? given .config := value?_argumentsOf given .config
  simp only [configured_iff, settingsOf, config]
  cases (pathGiven? given .config).elim (.ok {}) (libraries.loadSettings tree) with
  | error error => simp [Except.map]
  | ok configured => simp [Except.map, eq_comm]

section

variable (invocation : Invocation) {arguments : Arguments}

theorem runArguments_idle (idle : arguments.file? = none ∨ arguments.help = true) :
    ∃ messages, ∀ tree, libraries.runArguments { invocation with tree } arguments =
      { status := 0, output := usage invocation.program, messages, tree } := by
  rcases idle with absent | helps
  · simp only [runArguments, absent]
    exact ⟨_, fun _ => rfl⟩
  · cases named : arguments.file? <;> simp only [runArguments, helps, named] <;> exact ⟨_, fun _ => rfl⟩

variable {path : String} (named : arguments.file? = some path) (unhelped : arguments.help = false)

include named unhelped

theorem runArguments_unsettled (failed : ∀ used, libraries.settingsOf invocation.tree arguments ≠ .ok used) :
    WritesNoFile invocation 1 "" (libraries.runArguments invocation arguments) := by
  cases settled : libraries.settingsOf invocation.tree arguments with
  | error error =>
    simp only [runArguments, named, unhelped, settled]
    exact ⟨rfl, rfl, rfl, rfl⟩
  | ok used => exact absurd settled (failed used)

variable {used : Settings} (settled : libraries.settingsOf invocation.tree arguments = .ok used)

include settled

theorem runArguments_unopened (failed : ∀ source, libraries.openInput invocation.tree path ≠ .ok source) :
    WritesNoFile invocation 1 "" (libraries.runArguments invocation arguments) := by
  cases opened : libraries.openInput invocation.tree path with
  | error message =>
    simp only [runArguments, named, unhelped, settled, opened]
    exact ⟨rfl, rfl, rfl, rfl⟩
  | ok source => exact absurd opened (failed source)

theorem runArguments_exports {source : Source} (opened : libraries.openInput invocation.tree path = .ok source) :
    ExportsSource invocation used source (libraries.runArguments invocation arguments) := by
  simp only [runArguments, named, unhelped, settled, opened]
  exact (exportsSource invocation _ _ used path source).withMessages _

end

end Libraries

/-- Words that are not a command line, a call for help, a configuration and an input that cannot be read, in this order,
keep a run from being an export. This holds whatever the libraries make of texts, remarks and images. -/
theorem run_is_export (libraries : Libraries) (invocation : Invocation) :
    ((∃ error, Arguments.parse invocation.words = .error error) ↔ ¬ ∃ given, Grammar invocation.words given) ∧
    (∀ error, Arguments.parse invocation.words = .error error →
      WritesNoFile invocation 1 (usage invocation.program) (libraries.run invocation)) ∧
    ∀ given, Grammar invocation.words given →
      (fileGiven? given = none ∨ switchGiven given .help = true →
        WritesNoFile invocation 0 (usage invocation.program) (libraries.run invocation) ∧
          ∀ tree, libraries.run { invocation with tree } = { libraries.run invocation with tree }) ∧
      ∀ path, fileGiven? given = some path → switchGiven given .help = false →
        ((¬ ∃ configured, libraries.Configured invocation.tree given configured) →
          WritesNoFile invocation 1 "" (libraries.run invocation)) ∧
        ∀ configured, libraries.Configured invocation.tree given configured →
          ((¬ ∃ source, libraries.Opens invocation.tree path source) →
            WritesNoFile invocation 1 "" (libraries.run invocation)) ∧
          ∀ source, libraries.Opens invocation.tree path source →
            ∃ used, Overrides given configured used ∧
              ExportsSource invocation used source (libraries.run invocation) := by
  have read (arguments : Arguments) : Arguments.parse invocation.words = .ok arguments ↔
      ∃ given, Grammar invocation.words given ∧ arguments = argumentsOf given := parse_eq_ok_iff
  refine ⟨?_, ?_, ?_⟩
  · cases parsed : Arguments.parse invocation.words with
    | error error =>
      have unread : ¬ ∃ given, Grammar invocation.words given := by
        intro spelled
        obtain ⟨given, grammar⟩ := spelled
        rw [(read _).mpr ⟨given, grammar, rfl⟩] at parsed
        cases parsed
      simpa using unread
    | ok arguments =>
      obtain ⟨given, grammar, -⟩ := (read arguments).mp parsed
      simpa using ⟨given, grammar⟩
  · intro error failed
    rw [Libraries.run, failed]
    exact ⟨rfl, rfl, rfl, rfl⟩
  · intro given grammar
    have parsed := (read _).mpr ⟨given, grammar, rfl⟩
    have same (tree : FileTree) : libraries.run { invocation with tree } =
        libraries.runArguments { invocation with tree } (argumentsOf given) := by rw [Libraries.run, parsed]
    have here : libraries.run invocation = _ := same invocation.tree
    rw [← file?_argumentsOf, ← isOn_argumentsOf, here]
    refine ⟨fun idle => ?_, fun path named wanted => ?_⟩
    · obtain ⟨messages, ran⟩ := libraries.runArguments_idle invocation idle
      rw [ran]
      refine ⟨⟨rfl, rfl, rfl, rfl⟩, fun tree => ?_⟩
      rw [same, ran]
    · have unhelped : (argumentsOf given).help = false := wanted
      refine ⟨fun failed => ?_, fun configured loaded => ?_⟩
      · refine libraries.runArguments_unsettled invocation named unhelped fun used settled => failed ?_
        obtain ⟨configured, loaded, -⟩ := libraries.settingsOf_ok_iff.mp settled
        exact ⟨configured, loaded⟩
      · have settled := libraries.settingsOf_ok_iff.mpr ⟨configured, loaded, rfl⟩
        refine ⟨fun failed => ?_, fun source opened => ⟨_, overrides_apply given configured, ?_⟩⟩
        · refine libraries.runArguments_unopened invocation named unhelped settled fun source opened => failed ?_
          exact ⟨source, Libraries.opens_iff.mpr opened⟩
        · exact libraries.runArguments_exports invocation named unhelped settled (Libraries.opens_iff.mp opened)

/-- A file with a float literal, and settings for it that the arguments add to. -/
theorem run_is_export_configured :
    let settings := "[decoder]\nfloat_mode = \"ieee\"\n"
    let libraries : Libraries :=
      { readSettings := fun text =>
          if text = settings then .ok ⟨⟨.ieee, .bracketed⟩, ⟨false, "", ""⟩⟩ else .error "not read",
        logger := fun _ => ⟨"", fun _ => ""⟩, encodeImage := fun _ => [] }
    let input : List UInt8 := encodeFile HeaderVariant.known[1].magic (Line.encode 1 [.float 0x40490FDB]) [0, 0]
    let given : List Argument :=
      [.path "--config" .config "list.toml", .switch "--permissive" .permissive, .file "game.AMOS"]
    let invocation : Invocation :=
      { program := "amosdecode", words := ["--config", "list.toml", "--permissive", "game.AMOS"],
        tree := { entries := [("list.toml", .file (.bytes settings.toUTF8.data.toList)),
          ("game.AMOS", .file (.bytes input))] } }
    ∃ used, Overrides given ⟨⟨.ieee, .bracketed⟩, ⟨false, "", ""⟩⟩ used ∧
      ExportsSource invocation used { bytes := input } (libraries.run invocation) := by
  intro settings libraries input given invocation
  have grammar : Grammar invocation.words given := ⟨rfl, by decide, by decide⟩
  have configured : libraries.Configured invocation.tree given ⟨⟨.ieee, .bracketed⟩, ⟨false, "", ""⟩⟩ := by
    refine .file rfl (.bytes (FileTree.stands_file_iff.mpr rfl)) ?_ (if_pos rfl)
    exact ByteArray.ext (by rw [List.data_toByteArray, Array.toArray_toList])
  have opens : libraries.Opens invocation.tree "game.AMOS" { bytes := input } :=
    .file (.bytes (FileTree.stands_file_iff.mpr rfl))
  exact (((run_is_export libraries invocation).2.2 given grammar).2 "game.AMOS" rfl rfl).2 _ configured |>.2 _ opens

end AmosBasic.Command
