import AmosBasic.Proofs.FileTree.Standing

namespace AmosBasic

structure PlainName (name : String) : Prop where
  nonempty : name ≠ ""
  notHere : name ≠ "."
  notAround : name ≠ ".."
  single : '/' ∉ name.toList

theorem splitPath_ne_nil (characters : List Char) : splitPath characters ≠ [] := by
  cases characters with
  | nil => simp [splitPath]
  | cons character rest =>
    rw [splitPath]
    split
    · simp
    · split <;> simp

theorem splitPath_append (front back : List Char) :
    splitPath (front ++ '/' :: back) = splitPath front ++ splitPath back := by
  induction front with
  | nil => simp [splitPath]
  | cons character front ih =>
    by_cases slash : character = '/'
    · simp [splitPath, slash, ih]
    · cases parts : splitPath front with
      | nil => exact absurd parts (splitPath_ne_nil front)
      | cons part parts => simp [splitPath, slash, ih, parts]

theorem splitPath_of_single {characters : List Char} (single : '/' ∉ characters) :
    splitPath characters = [characters] := by
  induction characters with
  | nil => rfl
  | cons character rest ih =>
    simp only [List.mem_cons, not_or] at single
    simp [splitPath, Ne.symm single.1, ih single.2]

theorem joinPath_eq (folder : String) :
    ∃ front : List Char, (∀ name, (joinPath folder name).toList = front ++ name.toList) ∧
      (front = [] ∨ ∃ inner, front = inner ++ ['/']) ∧ front.head? = folder.toList.head? := by
  by_cases empty : folder = ""
  · exact ⟨[], fun name => by simp [joinPath, empty], .inl rfl, by simp [empty]⟩
  · by_cases slash : folder.toList.getLast? = some '/'
    · obtain ⟨inner, whole⟩ := List.getLast?_eq_some_iff.mp slash
      exact ⟨folder.toList, fun name => by simp [joinPath, slash], .inr ⟨inner, whole⟩, rfl⟩
    · refine ⟨folder.toList ++ ['/'], fun name => by simp [joinPath, empty, slash], .inr ⟨_, rfl⟩, ?_⟩
      cases characters : folder.toList with
      | nil => exact absurd (String.toList_eq_nil_iff.mp characters) empty
      | cons => rfl

theorem exists_pathParts_joinPath (folder : String) :
    ∃ parts, ∀ name : String, '/' ∉ name.toList → pathParts (joinPath folder name) = parts ++ [name] := by
  obtain ⟨front, joined, rfl | ⟨inner, rfl⟩, -⟩ := joinPath_eq folder
  · refine ⟨[], fun name single => ?_⟩
    simp [pathParts, joined, splitPath_of_single single]
  · refine ⟨(splitPath inner).map String.ofList, fun name single => ?_⟩
    simp [pathParts, joined, splitPath_append, splitPath_of_single single]

theorem isAbsolute_joinPath (folder : String) {name : String} (single : '/' ∉ name.toList) :
    isAbsolute (joinPath folder name) = isAbsolute folder := by
  obtain ⟨front, joined, bounds, first⟩ := joinPath_eq folder
  unfold isAbsolute
  rw [joined, ← first]
  rcases bounds with rfl | ⟨inner, rfl⟩
  · have other : name.toList.head? ≠ some '/' := fun slash => single (List.mem_of_head? slash)
    simp [other]
  · cases inner <;> simp

namespace FileTree

variable {tree : FileTree}

/-- Names lead from one place to another, where this stands or nothing does. The names of the first place are given
innermost first. Only the last name may be missing. -/
inductive Follows (tree : FileTree) : List String → List String → List String → Option Standing → Prop
  | stop (inward : List String) : Follows tree inward [] inward.reverse (tree.standing? inward.reverse)
  | stay {inward rest place : List String} {name : String} {standing : Option Standing}
      (within : tree.standing? inward.reverse = some .folder) (idle : name = "" ∨ name = ".")
      (later : Follows tree inward rest place standing) : Follows tree inward (name :: rest) place standing
  | back {inward rest place : List String} {standing : Option Standing}
      (within : tree.standing? inward.reverse = some .folder)
      (later : Follows tree inward.tail rest place standing) : Follows tree inward (".." :: rest) place standing
  | enter {inward rest place : List String} {name : String} {inner : Standing} {standing : Option Standing}
      (within : tree.standing? inward.reverse = some .folder) (proper : ¬ (name = "" ∨ name = ".") ∧ name ≠ "..")
      (short : name.utf8ByteSize ≤ maxName) (found : tree.standing? (inward.reverse ++ [name]) = some inner)
      (later : Follows tree (name :: inward) rest place standing) : Follows tree inward (name :: rest) place standing
  | miss {inward rest : List String} {name : String}
      (within : tree.standing? inward.reverse = some .folder) (proper : ¬ (name = "" ∨ name = ".") ∧ name ≠ "..")
      (short : name.utf8ByteSize ≤ maxName) (missing : tree.standing? (inward.reverse ++ [name]) = none)
      (last : ∀ other ∈ rest, other = "") : Follows tree inward (name :: rest) (inward.reverse ++ [name]) none

theorem follows_here {inward : List String} {standing : Option Standing}
    (here : tree.standing? inward.reverse = standing) : tree.Follows inward [] inward.reverse standing := by
  subst here
  exact .stop inward

inductive Along (root : Entry) : List (String × Entry) → Entry → Prop
  | root : Along root [] root
  | step {trail : List (String × Entry)} {entries : Folder} {name : String} {inner : Entry}
      (before : Along root trail (.folder entries)) (found : entries.lookup name = some inner) :
      Along root ((name, .folder entries) :: trail) inner

section

variable {trail : List (String × Entry)} {here : Entry}

theorem Along.at? {root : Entry} (along : Along root trail here) :
    root.at? (trail.map Prod.fst).reverse = some here := by
  induction along with
  | root => simp
  | step before found ih => simp [Entry.at?_append, ih, found]

theorem Along.standing? (along : Along (.folder tree.entries) trail here) :
    tree.standing? (trail.map Prod.fst).reverse = some here.standing := by
  rw [FileTree.standing?, along.at?]
  rfl

theorem Along.standing?_next {entries : Folder} (along : Along (.folder tree.entries) trail (.folder entries))
    (name : String) :
    tree.standing? ((trail.map Prod.fst).reverse ++ [name]) = (entries.lookup name).map Entry.standing := by
  rw [FileTree.standing?, Entry.at?_append, along.at?]
  cases found : entries.lookup name <;> simp [found]

theorem follows_of_walk {names place : List String} {held? : Option Entry}
    (along : Along (.folder tree.entries) trail here) (walked : walk trail here names = .ok (place, held?)) :
    tree.Follows (trail.map Prod.fst) names place (held?.map Entry.standing) := by
  -- A branch of the walk for each constructor; the others fail.
  induction names generalizing trail here with
  | nil =>
    obtain ⟨rfl, rfl⟩ := Prod.mk.inj (Except.ok.inj walked)
    exact follows_here along.standing?
  | cons name rest ih =>
    cases here with
    | file content => simp [walk] at walked
    | folder entries =>
      have within := along.standing?
      have next := along.standing?_next name
      simp only [walk] at walked
      by_cases idle : name = "" ∨ name = "."
      · rw [if_pos idle] at walked
        exact .stay within idle (ih along walked)
      · rw [if_neg idle] at walked
        by_cases around : name = ".."
        · subst around
          rw [if_pos rfl] at walked
          cases along with
          | root => exact .back within (ih .root walked)
          | step before found => exact .back within (ih before walked)
        · rw [if_neg around] at walked
          by_cases long : maxName < name.utf8ByteSize
          · rw [if_pos long] at walked
            cases walked
          · rw [if_neg long] at walked
            have short : name.utf8ByteSize ≤ maxName := Nat.le_of_not_lt long
            cases found : entries.lookup name with
            | some inner =>
              rw [found] at next walked
              exact .enter within ⟨idle, around⟩ short next (ih (along.step found) walked)
            | none =>
              rw [found] at next
              simp only [found] at walked
              split at walked
              · obtain ⟨rfl, rfl⟩ := Prod.mk.inj (Except.ok.inj walked)
                rename_i last
                rw [List.reverse_cons]
                exact .miss within ⟨idle, around⟩ short next (by simpa using last)
              · cases walked

theorem walk_of_follows {inward names place : List String} {standing : Option Standing}
    (follows : tree.Follows inward names place standing) (along : Along (.folder tree.entries) trail here)
    (same : trail.map Prod.fst = inward) :
    ∃ held?, walk trail here names = .ok (place, held?) ∧ held?.map Entry.standing = standing := by
  have opened : ∀ {trail : List (String × Entry)} {here : Entry}, Along (.folder tree.entries) trail here →
      tree.standing? (trail.map Prod.fst).reverse = some .folder → ∃ entries, here = .folder entries := by
    intro trail here along within
    rw [along.standing?] at within
    cases here with
    | file content => cases within
    | folder entries => exact ⟨entries, rfl⟩
  induction follows generalizing trail here with
  | stop inward =>
    subst same
    exact ⟨some here, rfl, along.standing?.symm⟩
  | stay within idle _ ih =>
    subst same
    obtain ⟨entries, rfl⟩ := opened along within
    simp only [walk, if_pos idle]
    exact ih along rfl
  | back within _ ih =>
    subst same
    obtain ⟨entries, rfl⟩ := opened along within
    have proper : ¬ ((".." : String) = "" ∨ (".." : String) = ".") := by decide
    simp only [walk, if_neg proper, if_true]
    cases along with
    | root => exact ih .root rfl
    | step before found => exact ih before rfl
  | @enter inward rest place name inner standing within proper short found _ ih =>
    subst same
    obtain ⟨entries, rfl⟩ := opened along within
    rw [along.standing?_next] at found
    obtain ⟨entry, found, -⟩ := Option.map_eq_some_iff.mp found
    simp only [walk, if_neg proper.1, if_neg proper.2, if_neg (Nat.not_lt.mpr short), found]
    exact ih (along.step found) rfl
  | @miss inward rest name within proper short missing last =>
    subst same
    obtain ⟨entries, rfl⟩ := opened along within
    rw [along.standing?_next] at missing
    have blank : rest.all (· = "") = true := by simpa using last
    simp only [walk, if_neg proper.1, if_neg proper.2, if_neg (Nat.not_lt.mpr short),
      Option.map_eq_none_iff.mp missing, if_pos blank, List.reverse_cons]
    exact ⟨none, rfl, rfl⟩

end

namespace Follows

variable {inward names place : List String} {standing : Option Standing}

theorem standing_eq (follows : tree.Follows inward names place standing) : standing = tree.standing? place := by
  induction follows with
  | stop inward => rfl
  | stay _ _ _ ih | back _ _ ih | enter _ _ _ _ _ ih => exact ih
  | miss _ _ _ missing _ => exact missing.symm

theorem around (follows : tree.Follows inward names place standing) (there : tree.standing? inward.reverse ≠ none)
    (other : standing ≠ some .folder) :
    ∃ front name, place = front ++ [name] ∧ tree.standing? front = some .folder := by
  induction follows with
  | stop inward =>
    cases inward with
    | nil => exact absurd tree.standing?_nil other
    | cons name inward =>
      obtain ⟨inner, found⟩ := Option.ne_none_iff_exists'.mp there
      rw [List.reverse_cons] at found ⊢
      exact ⟨_, _, rfl, standing?_around found⟩
  | stay _ _ _ ih => exact ih there other
  | @back inward rest place standing within _ ih =>
    refine ih ?_ other
    cases inward with
    | nil => exact there
    | cons name inward =>
      rw [List.reverse_cons] at within
      rw [List.tail_cons, standing?_around within]
      exact Option.some_ne_none _
  | enter _ _ _ found _ ih =>
    refine ih ?_ other
    rw [List.reverse_cons, found]
    exact Option.some_ne_none _
  | miss within _ _ _ _ => exact ⟨_, _, rfl, within⟩

theorem append {first second middle : List String} (front : tree.Follows inward first middle (some .folder))
    (back : tree.Follows middle.reverse second place standing) :
    tree.Follows inward (first ++ second) place standing := by
  generalize found : some Standing.folder = folder at front
  induction front with
  | stop inward =>
    rw [List.reverse_reverse] at back
    exact back
  | stay within idle _ ih => exact .stay within idle (ih back found)
  | back within _ ih => exact .back within (ih back found)
  | enter within proper short there _ ih => exact .enter within proper short there (ih back found)
  | miss => cases found

theorem concat_iff {parts : List String} {name : String} (plain : PlainName name) :
    tree.Follows inward (parts ++ [name]) place standing ↔ ∃ inner, tree.Follows inward parts inner (some .folder) ∧
      place = inner ++ [name] ∧ name.utf8ByteSize ≤ maxName ∧ standing = tree.standing? place := by
  have proper : ¬ (name = "" ∨ name = ".") := not_or.mpr ⟨plain.nonempty, plain.notHere⟩
  constructor
  · intro follows
    refine (?_ : ∃ inner, _ ∧ _ ∧ _) |>.imp fun _ found => ⟨found.1, found.2.1, found.2.2, follows.standing_eq⟩
    induction parts generalizing inward with
    | nil =>
      cases follows with
      | stay _ idle _ => exact absurd idle proper
      | back => exact absurd rfl plain.notAround
      | enter within _ short found later =>
        cases later
        exact ⟨_, follows_here within, List.reverse_cons, short⟩
      | miss within _ short missing _ => exact ⟨_, follows_here within, rfl, short⟩
    | cons part parts ih =>
      cases follows with
      | stay within idle later => exact (ih later).imp fun _ found => ⟨.stay within idle found.1, found.2⟩
      | back within later => exact (ih later).imp fun _ found => ⟨.back within found.1, found.2⟩
      | enter within proper short found later =>
        exact (ih later).imp fun _ more => ⟨.enter within proper short found more.1, more.2⟩
      | miss _ _ _ _ last => exact absurd (last name (by simp)) plain.nonempty
  · rintro ⟨inner, front, rfl, short, rfl⟩
    have within : tree.standing? inner.reverse.reverse = some .folder := by
      rw [List.reverse_reverse, ← front.standing_eq]
    refine front.append ?_
    cases found : tree.standing? (inner ++ [name]) with
    | none =>
      have missing : tree.Follows inner.reverse [name] (inner.reverse.reverse ++ [name]) none :=
        .miss within ⟨proper, plain.notAround⟩ short (by rw [List.reverse_reverse, found]) (by simp)
      rw [List.reverse_reverse] at missing
      exact missing
    | some standing =>
      have inside : (name :: inner.reverse).reverse = inner ++ [name] := by rw [List.reverse_cons, List.reverse_reverse]
      have here : tree.Follows (name :: inner.reverse) [] (name :: inner.reverse).reverse (some standing) :=
        follows_here (by rw [inside, found])
      rw [inside] at here
      exact .enter within ⟨proper, plain.notAround⟩ short (by rw [List.reverse_reverse, found]) here

end Follows

/-- Only such paths are looked up at all. -/
def Openable (path : String) : Prop :=
  '\x00' ∉ path.toList ∧ path ≠ "" ∧ path.utf8ByteSize ≤ maxPath

def names (tree : FileTree) (path : String) (parts : List String) : List String :=
  if isAbsolute path then parts else tree.workingFolder ++ parts

theorem names_append (tree : FileTree) (path : String) (parts further : List String) :
    tree.names path (parts ++ further) = tree.names path parts ++ further := by
  unfold names
  split
  · rfl
  · rw [List.append_assoc]

theorem locateParts_ok_iff {path : String} {parts place : List String} {standing : Option Standing} :
    (∃ held?, tree.locateParts path parts = .ok (place, held?) ∧ held?.map Entry.standing = standing) ↔
      Openable path ∧ tree.Follows [] (tree.names path parts) place standing := by
  have outset : Along (.folder tree.entries) [] (.folder tree.entries) := .root
  constructor
  · rintro ⟨held?, located, rfl⟩
    unfold locateParts at located
    split at located
    · cases located
    · split at located
      · cases located
      · split at located
        · cases located
        · rename_i nul empty long
          exact ⟨⟨nul, empty, Nat.le_of_not_lt long⟩, follows_of_walk outset located⟩
  · rintro ⟨⟨nul, empty, short⟩, follows⟩
    unfold locateParts
    rw [if_neg nul, if_neg empty, if_neg (Nat.not_lt.mpr short)]
    exact walk_of_follows follows outset rfl

def Leads (tree : FileTree) (path : String) (place : List String) (standing : Option Standing) : Prop :=
  ∃ held?, tree.locate path = .ok (place, held?) ∧ held?.map Entry.standing = standing

variable {path folder name : String} {place : List String} {standing : Option Standing}

theorem leads_iff : tree.Leads path place standing ↔
    Openable path ∧ tree.Follows [] (tree.names path (pathParts path)) place standing :=
  locateParts_ok_iff

theorem Leads.standing_eq (leads : tree.Leads path place standing) : standing = tree.standing? place :=
  (leads_iff.mp leads).2.standing_eq

theorem Leads.around (leads : tree.Leads path place standing) (other : standing ≠ some .folder) :
    ∃ front name, place = front ++ [name] ∧ tree.standing? front = some .folder :=
  (leads_iff.mp leads).2.around (by simp) other

theorem find_eq_ok_iff {entry : Entry} :
    tree.find path = .ok entry ↔ ∃ place, tree.locate path = .ok (place, some entry) := by
  unfold find
  rcases tree.locate path with error | ⟨found, _ | other⟩ <;> simp

theorem find_eq_file_iff {content : FileContent} :
    tree.find path = .ok (.file content) ↔ ∃ place, tree.Leads path place (some (.file content)) := by
  rw [find_eq_ok_iff]
  refine exists_congr fun place => ⟨fun located => ⟨_, located, rfl⟩, ?_⟩
  rintro ⟨held?, located, stands⟩
  obtain ⟨entry, rfl, stands⟩ := Option.map_eq_some_iff.mp stands
  cases entry <;> cases stands
  exact located

def Stands (tree : FileTree) (path : String) (standing : Standing) : Prop :=
  Openable path ∧ ∃ place, tree.Follows [] (tree.names path (pathParts path)) place (some standing)

theorem stands_iff {standing : Standing} :
    tree.Stands path standing ↔ ∃ entry, tree.find path = .ok entry ∧ entry.standing = standing := by
  rw [Stands, ← exists_and_left]
  constructor
  · intro stands
    obtain ⟨place, leads⟩ := stands
    obtain ⟨held?, located, stands⟩ := leads_iff.mpr leads
    obtain ⟨entry, rfl, same⟩ := Option.map_eq_some_iff.mp stands
    exact ⟨entry, find_eq_ok_iff.mpr ⟨place, located⟩, same⟩
  · intro found
    obtain ⟨entry, found, stands⟩ := found
    obtain ⟨place, located⟩ := find_eq_ok_iff.mp found
    exact ⟨place, leads_iff.mp ⟨_, located, congrArg some stands⟩⟩

theorem stands_file_iff {content : FileContent} :
    tree.Stands path (.file content) ↔ tree.find path = .ok (.file content) := by
  rw [stands_iff]
  constructor
  · intro found
    obtain ⟨entry, found, stands⟩ := found
    cases entry <;> cases stands
    exact found
  · intro found
    exact ⟨_, found, rfl⟩

theorem stands_folder_iff : tree.Stands path .folder ↔ ∃ entries, tree.find path = .ok (.folder entries) := by
  rw [stands_iff]
  constructor
  · intro found
    obtain ⟨entry, found, stands⟩ := found
    cases entry <;> cases stands
    exact ⟨_, found⟩
  · intro found
    obtain ⟨entries, found⟩ := found
    exact ⟨_, found, rfl⟩

/-- The path of a plain name in a folder leads to that name, in the place that the names before it lead to. -/
theorem exists_leads_joinPath_iff (tree : FileTree) (folder : String) :
    ∃ names, ∀ {other : FileTree}, other.workingFolder = tree.workingFolder → ∀ {name : String}, PlainName name →
      ∀ {place : List String} {standing : Option Standing}, other.Leads (joinPath folder name) place standing ↔
        Openable (joinPath folder name) ∧ ∃ inner, other.Follows [] names inner (some .folder) ∧
          place = inner ++ [name] ∧ name.utf8ByteSize ≤ maxName ∧ standing = other.standing? place := by
  obtain ⟨parts, joined⟩ := exists_pathParts_joinPath folder
  refine ⟨tree.names folder parts, fun {other} home {name} plain place standing => ?_⟩
  have whole : other.names (joinPath folder name) (pathParts (joinPath folder name)) =
      tree.names folder parts ++ [name] := by
    rw [joined name plain.single, names_append, names, names, isAbsolute_joinPath folder plain.single, home]
  rw [leads_iff, whole, Follows.concat_iff plain]

theorem Leads.place_joinPath (plain : PlainName name) (leads : tree.Leads (joinPath folder name) place standing) :
    ∃ inner, place = inner ++ [name] := by
  obtain ⟨names, joined⟩ := tree.exists_leads_joinPath_iff folder
  obtain ⟨-, inner, -, same, -⟩ := (joined rfl plain).mp leads
  exact ⟨inner, same⟩

end FileTree

end AmosBasic
