import AmosBasic.Command.Arguments

namespace AmosBasic.Command

inductive Argument where
  | switch (word : String) (chosen : Switch)
  | path (word : String) (chosen : PathOption) (value : String)
  | file (name : String)

namespace Argument

def words : Argument → List String
  | switch word _ => [word]
  | path word _ value => [word, value]
  | file name => [name]

def Spelled : Argument → Prop
  | switch word chosen => Switch.ofWord? word = some chosen
  | path word chosen _ => PathOption.ofWord? word = some chosen
  | file name => Switch.ofWord? name = none ∧ PathOption.ofWord? name = none ∧ Arguments.looksLikeOption name = false

def chooses (wanted : Switch) : Argument → Bool
  | switch _ chosen => chosen = wanted
  | _ => false

def value? (wanted : PathOption) : Argument → Option String
  | path _ chosen value => if chosen = wanted then some value else none
  | _ => none

def file? : Argument → Option String
  | file name => some name
  | _ => none

def addTo (arguments : Arguments) : Argument → Arguments
  | switch _ chosen => arguments.turnOn chosen
  | path _ chosen value => arguments.setPath value chosen
  | file name => { arguments with file? := some name }

end Argument

/-- Behind the arguments that were read before, the words are those of the given ones. At most one file is among all of
them. -/
structure CommandLine (before : Arguments) (words : List String) (given : List Argument) : Prop where
  spelled : ∀ argument ∈ given, argument.Spelled
  words : words = given.flatMap Argument.words
  single : (before.file?.toList ++ given.filterMap Argument.file?).length ≤ 1

theorem Switch.ofWord?_eq_none {word : String} {chosen : PathOption} (spelled : PathOption.ofWord? word = some chosen) :
    Switch.ofWord? word = none := by
  unfold PathOption.ofWord? at spelled
  split at spelled
  · rfl
  · rfl
  · rfl
  · cases spelled

section

variable {before : Arguments} {argument : Argument} {given : List Argument} {words : List String}

theorem Argument.file?_addTo (argument : Argument) (before : Arguments) :
    (argument.addTo before).file? = argument.file?.or before.file? := by
  cases argument with
  | switch word chosen => cases chosen <;> rfl
  | path word chosen value => cases chosen <;> rfl
  | file name => rfl

theorem commandLine_nil : CommandLine before words [] ↔ words = [] := by
  constructor
  · intro line
    exact line.words
  · rintro rfl
    exact ⟨nofun, rfl, by cases before.file? <;> simp⟩

theorem commandLine_cons :
    CommandLine before words (argument :: given) ↔ argument.Spelled ∧
      (∀ name, argument.file? = some name → before.file? = none) ∧
      ∃ rest, words = argument.words ++ rest ∧ CommandLine (argument.addTo before) rest given := by
  have single : (before.file?.toList ++ (argument :: given).filterMap Argument.file?).length ≤ 1 ↔
      (∀ name, argument.file? = some name → before.file? = none) ∧
        ((argument.addTo before).file?.toList ++ given.filterMap Argument.file?).length ≤ 1 := by
    rw [argument.file?_addTo]
    cases own : argument.file? <;> cases before.file? <;> simp [own]
  constructor
  · rintro ⟨spelled, rfl, room⟩
    obtain ⟨first, others⟩ := List.forall_mem_cons.mp spelled
    obtain ⟨free, room⟩ := single.mp room
    exact ⟨first, free, _, List.flatMap_cons, others, rfl, room⟩
  · rintro ⟨first, free, _, rfl, others, rfl, room⟩
    exact ⟨List.forall_mem_cons.mpr ⟨first, others⟩, List.flatMap_cons.symm, single.mpr ⟨free, room⟩⟩

theorem addWords_argument (spelled : argument.Spelled)
    (free : ∀ name, argument.file? = some name → before.file? = none) (rest : List String) :
    before.addWords (argument.words ++ rest) = (argument.addTo before).addWords rest := by
  cases argument with
  | switch word chosen =>
    have spelled : Switch.ofWord? word = some chosen := spelled
    simp [Argument.words, Argument.addTo, Arguments.addWords, spelled]
  | path word chosen value =>
    have spelled : PathOption.ofWord? word = some chosen := spelled
    simp [Argument.words, Argument.addTo, Arguments.addWords, spelled, Switch.ofWord?_eq_none spelled]
  | file name =>
    obtain ⟨noSwitch, noOption, plain⟩ := spelled
    simp [Argument.words, Argument.addTo, Arguments.addWords, noSwitch, noOption, plain, free name rfl]

theorem addWords_append (line : CommandLine before words given) (rest : List String) :
    before.addWords (words ++ rest) = (given.foldl Argument.addTo before).addWords rest := by
  induction given generalizing before words with
  | nil =>
    obtain rfl := commandLine_nil.mp line
    rfl
  | cons argument given ih =>
    obtain ⟨spelled, free, behind, rfl, others⟩ := commandLine_cons.mp line
    rw [List.append_assoc, addWords_argument spelled free]
    exact ih others

theorem addWords_ok_iff {result : Arguments} :
    before.addWords words = .ok result ↔
      ∃ given, CommandLine before words given ∧ result = given.foldl Argument.addTo before := by
  constructor
  · intro read
    fun_induction Arguments.addWords before words with
    | case1 before =>
      cases read
      exact ⟨[], commandLine_nil.mpr rfl, rfl⟩
    | case2 before word chosen rest spelled ih =>
      obtain ⟨given, line, rfl⟩ := ih read
      exact ⟨.switch word chosen :: given, commandLine_cons.mpr ⟨spelled, nofun, rest, rfl, line⟩, rfl⟩
    | case3 before word chosen value rest spelled _ ih =>
      obtain ⟨given, line, rfl⟩ := ih read
      exact ⟨.path word chosen value :: given, commandLine_cons.mpr ⟨spelled, nofun, rest, rfl, line⟩, rfl⟩
    | case4 | case5 | case6 => cases read
    | case7 before word rest noOption noSwitch plain free ih =>
      obtain ⟨given, line, rfl⟩ := ih read
      have spelled : (Argument.file word).Spelled := ⟨noSwitch, noOption, Bool.eq_false_iff.mpr plain⟩
      have free : before.file? = none := Option.not_isSome_iff_eq_none.mp free
      exact ⟨.file word :: given, commandLine_cons.mpr ⟨spelled, fun _ _ => free, rest, rfl, line⟩, rfl⟩
  · intro described
    obtain ⟨given, line, rfl⟩ := described
    have read := addWords_append line []
    rwa [List.append_nil] at read

theorem parse_ok_iff {result : Arguments} :
    Arguments.parse words = .ok result ↔ ∃ given, CommandLine {} words given ∧ result = given.foldl Argument.addTo {} :=
  addWords_ok_iff

theorem held_foldl (held : Arguments → Option String) {give? : Argument → Option String}
    (step : ∀ (argument : Argument) before, held (argument.addTo before) = (give? argument).or (held before)) :
    held (given.foldl Argument.addTo before) = (given.filterMap give?).getLast?.or (held before) := by
  induction given generalizing before with
  | nil => rfl
  | cons argument given ih =>
    rw [List.foldl_cons, ih, step]
    cases own : give? argument with
    | none => simp [own]
    | some value => cases last : (given.filterMap give?).getLast? <;> simp [own, last, List.getLast?_cons]

end

namespace Arguments

def isOn (arguments : Arguments) : Switch → Bool
  | .verbose => arguments.verbose
  | .sourceOnly => arguments.sourceOnly
  | .ieeeFloat => arguments.ieeeFloat
  | .permissive => arguments.permissive
  | .help => arguments.help

def value? (arguments : Arguments) : PathOption → Option String
  | .imageFolder => arguments.imageFolder?
  | .dataFolder => arguments.dataFolder?
  | .config => arguments.config?

variable (before : Arguments) (given : List Argument)

theorem isOn_foldl (wanted : Switch) :
    (given.foldl Argument.addTo before).isOn wanted = (before.isOn wanted || given.any (Argument.chooses wanted)) := by
  have step (argument : Argument) (before : Arguments) :
      (argument.addTo before).isOn wanted = (before.isOn wanted || argument.chooses wanted) := by
    cases argument with
    | switch word chosen => cases chosen <;> cases wanted <;> simp [Argument.addTo, turnOn, isOn, Argument.chooses]
    | path word chosen value => cases chosen <;> cases wanted <;> simp [Argument.addTo, setPath, isOn, Argument.chooses]
    | file name => cases wanted <;> simp [Argument.addTo, isOn, Argument.chooses]
  induction given generalizing before with
  | nil => simp
  | cons argument given ih => rw [List.foldl_cons, ih, step, List.any_cons, Bool.or_assoc]

theorem value?_foldl (wanted : PathOption) :
    (given.foldl Argument.addTo before).value? wanted =
      (given.filterMap (Argument.value? wanted)).getLast?.or (before.value? wanted) := by
  refine held_foldl (fun arguments => arguments.value? wanted) fun argument before => ?_
  cases argument with
  | switch word chosen => cases chosen <;> cases wanted <;> rfl
  | path word chosen value => cases chosen <;> cases wanted <;> rfl
  | file name => cases wanted <;> rfl

theorem file?_foldl :
    (given.foldl Argument.addTo before).file? = (given.filterMap Argument.file?).getLast?.or before.file? :=
  held_foldl Arguments.file? Argument.file?_addTo

end Arguments

def switchGiven (given : List Argument) (wanted : Switch) : Bool :=
  given.any (Argument.chooses wanted)

def pathGiven? (given : List Argument) (wanted : PathOption) : Option String :=
  (given.filterMap (Argument.value? wanted)).getLast?

def fileGiven? (given : List Argument) : Option String :=
  (given.filterMap Argument.file?).getLast?

def argumentsOf (given : List Argument) : Arguments :=
  given.foldl Argument.addTo {}

section

variable (given : List Argument)

theorem isOn_argumentsOf (wanted : Switch) : (argumentsOf given).isOn wanted = switchGiven given wanted := by
  have standard : ({} : Arguments).isOn wanted = false := by cases wanted <;> rfl
  rw [argumentsOf, Arguments.isOn_foldl, standard, Bool.false_or, switchGiven]

theorem value?_argumentsOf (wanted : PathOption) : (argumentsOf given).value? wanted = pathGiven? given wanted := by
  have standard : ({} : Arguments).value? wanted = none := by cases wanted <;> rfl
  rw [argumentsOf, Arguments.value?_foldl, standard, Option.or_none, pathGiven?]

theorem file?_argumentsOf : (argumentsOf given).file? = fileGiven? given := by
  rw [argumentsOf, Arguments.file?_foldl, Option.or_none, fileGiven?]

end

end AmosBasic.Command
