import Mathlib.Data.List.Basic
import AmosBasic.Proofs.Command.Arguments

namespace AmosBasic.Command

def Switch.spellings : Switch → List String
  | verbose => ["-v", "--verbose"]
  | sourceOnly => ["--sourceonly"]
  | ieeeFloat => ["--ieee-float"]
  | permissive => ["--permissive"]
  | help => ["-h", "--help"]

def PathOption.spelling : PathOption → String
  | imageFolder => "--imagefolder"
  | dataFolder => "--datafolder"
  | config => "--config"

def Dashed (word : String) : Prop := ['-'] <+: word.toList

instance (word : String) : Decidable (Dashed word) := inferInstanceAs (Decidable (_ <+: _))

def Argument.Written : Argument → Prop
  | switch word chosen => word ∈ chosen.spellings
  | path word chosen _ => word = chosen.spelling
  | file name => ¬ Dashed name

instance : (argument : Argument) → Decidable argument.Written
  | .switch word chosen => inferInstanceAs (Decidable (word ∈ chosen.spellings))
  | .path word chosen _ => inferInstanceAs (Decidable (word = chosen.spelling))
  | .file name => inferInstanceAs (Decidable (¬ Dashed name))

def files (groups : List Argument) : List String :=
  groups.filterMap Argument.file?

structure Grammar (words : List String) (groups : List Argument) : Prop where
  words : words = groups.flatMap Argument.words
  written : ∀ group ∈ groups, group.Written
  single : (files groups).length ≤ 1

/-- Behind groups among which there are the files `before`, the first group of the words breaks the grammar, and the
message is about it. -/
inductive Breaks (before : List String) : List String → String → Prop
  | unknown {word : String} {rest : List String} (dashed : Dashed word)
      (noSwitch : ∀ switch : Switch, word ∉ switch.spellings)
      (noOption : ∀ option : PathOption, word ≠ option.spelling) :
      Breaks before (word :: rest) ("Unknown option: " ++ word)
  | missing (option : PathOption) : Breaks before [option.spelling] (option.spelling ++ " needs a path")
  | second {name : String} {rest : List String} (plain : ¬ Dashed name) (taken : before ≠ []) :
      Breaks before (name :: rest) ("Only one input file is supported, got " ++ name)

theorem Switch.ofWord?_eq_some_iff {word : String} {chosen : Switch} :
    Switch.ofWord? word = some chosen ↔ word ∈ chosen.spellings := by
  have read : ∀ spelling ∈ chosen.spellings, Switch.ofWord? spelling = some chosen := by
    cases chosen <;> decide
  constructor
  · intro found
    unfold Switch.ofWord? at found
    split at found <;> cases found <;> decide
  · exact read word

theorem PathOption.ofWord?_eq_some_iff {word : String} {chosen : PathOption} :
    PathOption.ofWord? word = some chosen ↔ word = chosen.spelling := by
  constructor
  · intro found
    unfold PathOption.ofWord? at found
    split at found <;> cases found <;> rfl
  · rintro rfl
    cases chosen <;> rfl

theorem Switch.ofWord?_eq_none_iff {word : String} :
    Switch.ofWord? word = none ↔ ∀ switch : Switch, word ∉ switch.spellings := by
  simp only [Option.eq_none_iff_forall_ne_some, ne_eq, Switch.ofWord?_eq_some_iff]

theorem PathOption.ofWord?_eq_none_iff {word : String} :
    PathOption.ofWord? word = none ↔ ∀ option : PathOption, word ≠ option.spelling := by
  simp only [Option.eq_none_iff_forall_ne_some, ne_eq, PathOption.ofWord?_eq_some_iff]

theorem looksLikeOption_iff {word : String} : Arguments.looksLikeOption word = true ↔ Dashed word := by
  unfold Arguments.looksLikeOption Dashed
  cases word.toList <;> simp [eq_comm]

theorem ofWord?_of_plain {word : String} (plain : ¬ Dashed word) :
    Switch.ofWord? word = none ∧ PathOption.ofWord? word = none ∧ Arguments.looksLikeOption word = false := by
  have dashed (switch : Switch) : ∀ spelling ∈ switch.spellings, Dashed spelling := by
    cases switch <;> decide
  refine ⟨Switch.ofWord?_eq_none_iff.mpr fun switch spelled => plain (dashed switch word spelled),
    PathOption.ofWord?_eq_none_iff.mpr fun option same => plain ?_, ?_⟩
  · rw [same]
    cases option <;> decide
  · rwa [Bool.eq_false_iff, ne_eq, looksLikeOption_iff]

theorem Argument.written_iff_spelled {argument : Argument} : argument.Written ↔ argument.Spelled := by
  cases argument with
  | switch word chosen => exact Switch.ofWord?_eq_some_iff.symm
  | path word chosen value => exact PathOption.ofWord?_eq_some_iff.symm
  | file name =>
    constructor
    · exact ofWord?_of_plain
    · rintro ⟨-, -, plain⟩ dashed
      rw [looksLikeOption_iff.mpr dashed] at plain
      cases plain

theorem grammar_iff_commandLine {words : List String} {groups : List Argument} :
    Grammar words groups ↔ CommandLine {} words groups := by
  have written : (∀ group ∈ groups, group.Written) ↔ ∀ group ∈ groups, group.Spelled :=
    forall₂_congr fun group _ => group.written_iff_spelled
  constructor
  · rintro ⟨words, each, single⟩
    exact ⟨written.mp each, words, single⟩
  · rintro ⟨each, words, single⟩
    exact ⟨words, written.mpr each, single⟩

theorem parse_eq_ok_iff {words : List String} {result : Arguments} :
    Arguments.parse words = .ok result ↔ ∃ groups, Grammar words groups ∧ result = argumentsOf groups := by
  simp only [grammar_iff_commandLine]
  exact parse_ok_iff

/-- Behind words that are understood, the others break the grammar with their first group. -/
def Broken (before : Arguments) (words : List String) (message : String) : Prop :=
  ∃ front rest groups, words = front ++ rest ∧ CommandLine before front groups ∧
    Breaks (before.file?.toList ++ files groups) rest message

section

variable {before : Arguments} {words front : List String} {groups : List Argument} {message : String}

theorem Breaks.broken (breaks : Breaks before.file?.toList words message) : Broken before words message :=
  ⟨[], words, [], rfl, commandLine_nil.mpr rfl, by rwa [files, List.filterMap_nil, List.append_nil]⟩

theorem Broken.behind {argument : Argument} (spelled : argument.Spelled)
    (free : ∀ name, argument.file? = some name → before.file? = none)
    (broken : Broken (argument.addTo before) words message) : Broken before (argument.words ++ words) message := by
  obtain ⟨front, rest, groups, rfl, line, breaks⟩ := broken
  refine ⟨argument.words ++ front, rest, argument :: groups, (List.append_assoc _ _ _).symm,
    commandLine_cons.mpr ⟨spelled, free, front, rfl, line⟩, ?_⟩
  rw [argument.file?_addTo] at breaks
  rw [files, List.filterMap_cons]
  cases own : argument.file? with
  | none => rwa [own, Option.none_or] at breaks
  | some name =>
    rw [own, Option.some_or] at breaks
    rwa [free name own]

theorem broken_of_error {error : UsageError} (failed : before.addWords words = .error error) :
    Broken before words error.message := by
  -- a group that is understood goes to the front of what the words behind it come to
  fun_induction Arguments.addWords before words with
  | case1 => cases failed
  | case2 before word chosen rest spelled ih =>
    have spelled : (Argument.switch word chosen).Spelled := spelled
    exact (ih failed).behind spelled (by rintro _ ⟨⟩)
  | case3 before word chosen value rest spelled _ ih =>
    have spelled : (Argument.path word chosen value).Spelled := spelled
    exact (ih failed).behind spelled (by rintro _ ⟨⟩)
  | case4 before word chosen spelled noSwitch =>
    cases failed
    obtain rfl := PathOption.ofWord?_eq_some_iff.mp spelled
    exact Breaks.broken (.missing chosen)
  | case5 before word rest noOption noSwitch dashed =>
    cases failed
    exact Breaks.broken (.unknown (looksLikeOption_iff.mp dashed) (Switch.ofWord?_eq_none_iff.mp noSwitch)
      (PathOption.ofWord?_eq_none_iff.mp noOption))
  | case6 before word rest noOption noSwitch plain taken =>
    cases failed
    have plain : ¬ Dashed word := fun dashed => plain (looksLikeOption_iff.mpr dashed)
    refine Breaks.broken (.second plain ?_)
    rwa [ne_eq, Option.toList_eq_nil_iff, ← ne_eq, Option.ne_none_iff_isSome]
  | case7 before word rest noOption noSwitch plain free ih =>
    have spelled : (Argument.file word).Spelled := ⟨noSwitch, noOption, Bool.eq_false_iff.mpr plain⟩
    exact (ih failed).behind spelled fun _ _ => Option.not_isSome_iff_eq_none.mp free

theorem file?_of_commandLine (line : CommandLine before front groups) :
    (groups.foldl Argument.addTo before).file?.toList = before.file?.toList ++ files groups := by
  have single : (before.file?.toList ++ files groups).length ≤ 1 := line.single
  rw [Arguments.file?_foldl, ← files]
  generalize before.file? = held at single ⊢
  generalize files groups = names at single ⊢
  rcases names with _ | ⟨name, names⟩
  · rw [List.append_nil]
    rfl
  · simp only [List.length_append, List.length_cons] at single
    obtain rfl : names = [] := List.length_eq_zero_iff.mp (by omega)
    cases held with
    | none => rfl
    | some other =>
      simp at single

theorem error_of_breaks (breaks : Breaks before.file?.toList words message) :
    ∃ error, before.addWords words = .error error ∧ error.message = message := by
  cases breaks with
  | @unknown word rest dashed noSwitch noOption =>
    refine ⟨.unknownOption word, ?_, rfl⟩
    simp [Arguments.addWords, Switch.ofWord?_eq_none_iff.mpr noSwitch, PathOption.ofWord?_eq_none_iff.mpr noOption,
      looksLikeOption_iff.mpr dashed]
  | missing option =>
    have spelled := PathOption.ofWord?_eq_some_iff.mpr (rfl : option.spelling = option.spelling)
    refine ⟨.missingPath option.spelling, ?_, rfl⟩
    simp [Arguments.addWords, Switch.ofWord?_eq_none spelled, spelled]
  | @second name rest plain taken =>
    obtain ⟨noSwitch, noOption, undashed⟩ := ofWord?_of_plain plain
    have taken : before.file?.isSome = true := by
      cases held : before.file? with
      | none => rw [held] at taken; exact absurd rfl taken
      | some other => rfl
    refine ⟨.secondFile name, ?_, rfl⟩
    simp [Arguments.addWords, noSwitch, noOption, undashed, taken]

theorem broken_iff :
    Broken before words message ↔ ∃ error, before.addWords words = .error error ∧ error.message = message := by
  constructor
  · rintro ⟨front, rest, groups, rfl, line, breaks⟩
    rw [← file?_of_commandLine line] at breaks
    rw [addWords_append line]
    exact error_of_breaks breaks
  · rintro ⟨error, failed, rfl⟩
    exact broken_of_error failed

end

theorem Arguments.eq_of_views {one other : Arguments} (switches : ∀ switch, one.isOn switch = other.isOn switch)
    (paths : ∀ option, one.value? option = other.value? option) (file : one.file? = other.file?) : one = other := by
  rw [Arguments.mk.injEq]
  exact ⟨switches .verbose, switches .sourceOnly, switches .ieeeFloat, switches .permissive, switches .help,
    paths .imageFolder, paths .dataFolder, paths .config, file⟩

namespace Grammar

variable {words : List String} {groups others : List Argument}

theorem isOn_iff (grammar : Grammar words groups) (switch : Switch) :
    (argumentsOf groups).isOn switch = true ↔ ∃ word ∈ switch.spellings, Argument.switch word switch ∈ groups := by
  rw [isOn_argumentsOf, switchGiven, List.any_eq_true]
  constructor
  · rintro ⟨group, member, chooses⟩
    cases group with
    | switch word chosen =>
      obtain rfl : chosen = switch := of_decide_eq_true chooses
      exact ⟨word, grammar.written _ member, member⟩
    | path | file => cases chooses
  · rintro ⟨word, -, member⟩
    exact ⟨_, member, decide_eq_true rfl⟩

theorem file?_eq_some_iff (grammar : Grammar words groups) (name : String) :
    (argumentsOf groups).file? = some name ↔ Argument.file name ∈ groups := by
  have among : Argument.file name ∈ groups ↔ name ∈ files groups := by
    rw [files, List.mem_filterMap]
    constructor
    · exact fun member => ⟨_, member, rfl⟩
    · rintro ⟨group, member, named⟩
      cases group with
      | switch | path => cases named
      | file other =>
        cases named
        exact member
  have single := grammar.single
  rw [file?_argumentsOf, fileGiven?, ← files, among]
  generalize files groups = names at single ⊢
  rcases names with _ | ⟨first, names⟩
  · simp
  · obtain rfl : names = [] := List.length_eq_zero_iff.mp (Nat.le_zero.mp (Nat.le_of_succ_le_succ single))
    simp [eq_comm]

theorem of_perm (grammar : Grammar words groups) (reordered : others.Perm groups) :
    Grammar (others.flatMap Argument.words) others where
  words := rfl
  written group member := grammar.written group (reordered.mem_iff.mp member)
  single := by
    rw [files, (reordered.filterMap Argument.file?).length_eq]
    exact grammar.single

theorem argumentsOf_perm (grammar : Grammar words groups) (reordered : others.Perm groups)
    (kept : ∀ option, others.filterMap (Argument.value? option) = groups.filterMap (Argument.value? option)) :
    argumentsOf others = argumentsOf groups := by
  have also := grammar.of_perm reordered
  refine Arguments.eq_of_views (fun switch => ?_) (fun option => ?_) (Option.ext fun name => ?_)
  · rw [Bool.eq_iff_iff, also.isOn_iff, grammar.isOn_iff]
    simp only [reordered.mem_iff]
  · rw [value?_argumentsOf, value?_argumentsOf, pathGiven?, pathGiven?, kept]
  · rw [also.file?_eq_some_iff, grammar.file?_eq_some_iff, reordered.mem_iff]

end Grammar

/-- Words are understood exactly if they split into groups, and then the switches, the paths and the file are those of
the groups, in whatever order the groups are, if the values of each option keep theirs. Words are not understood exactly
if a group that breaks the grammar comes behind some that do not, and the message is about it. -/
theorem arguments_follow_grammar (words : List String) :
    ((∃ result, Arguments.parse words = .ok result) ↔ ∃ groups, Grammar words groups) ∧
    (∀ groups, Grammar words groups → ∃ result, Arguments.parse words = .ok result ∧
      (∀ switch, result.isOn switch = true ↔ ∃ word ∈ switch.spellings, Argument.switch word switch ∈ groups) ∧
      (∀ option, result.value? option = (groups.filterMap (Argument.value? option)).getLast?) ∧
      (∀ name, result.file? = some name ↔ Argument.file name ∈ groups) ∧
      ∀ others : List Argument, others.Perm groups →
        (∀ option, others.filterMap (Argument.value? option) = groups.filterMap (Argument.value? option)) →
        Arguments.parse (others.flatMap Argument.words) = .ok result) ∧
    ∀ message, (∃ error, Arguments.parse words = .error error ∧ error.message = message) ↔
      ∃ front rest groups, words = front ++ rest ∧ Grammar front groups ∧ Breaks (files groups) rest message := by
  refine ⟨?_, fun groups grammar => ?_, fun message => ?_⟩
  · simp only [parse_eq_ok_iff]
    constructor
    · rintro ⟨_, groups, grammar, -⟩
      exact ⟨groups, grammar⟩
    · rintro ⟨groups, grammar⟩
      exact ⟨_, groups, grammar, rfl⟩
  · refine ⟨argumentsOf groups, parse_eq_ok_iff.mpr ⟨groups, grammar, rfl⟩, grammar.isOn_iff,
      value?_argumentsOf groups, grammar.file?_eq_some_iff, fun others reordered kept => ?_⟩
    exact parse_eq_ok_iff.mpr ⟨others, grammar.of_perm reordered, (grammar.argumentsOf_perm reordered kept).symm⟩
  · simp only [grammar_iff_commandLine]
    exact broken_iff.symm

theorem arguments_of_repeated_option :
    ∃ result, Arguments.parse ["--config", "--help", "game.AMOS", "-v", "--config", "new.toml"] = .ok result ∧
      result.help = false ∧ result.verbose = true ∧ result.config? = some "new.toml" ∧
      result.file? = some "game.AMOS" := by
  let groups : List Argument :=
    [.path "--config" .config "--help", .file "game.AMOS", .switch "-v" .verbose, .path "--config" .config "new.toml"]
  obtain ⟨-, described, -⟩ := arguments_follow_grammar (groups.flatMap Argument.words)
  obtain ⟨result, parsed, switches, paths, file, -⟩ := described groups ⟨rfl, by decide, by decide⟩
  have helpless : ¬ result.isOn .help = true := by
    rw [switches]
    simp [groups]
  have verbose : result.isOn .verbose = true := by
    rw [switches]
    exact ⟨"-v", by decide, by simp [groups]⟩
  exact ⟨result, parsed, Bool.eq_false_iff.mpr helpless, verbose, paths .config, (file _).mpr (by simp [groups])⟩

end AmosBasic.Command
