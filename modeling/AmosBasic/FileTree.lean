import AmosBasic.Png

namespace AmosBasic

inductive FileContent where
  | bytes (bytes : List UInt8)
  | image (image : Png.Image)
  deriving DecidableEq

inductive Entry where
  | folder (entries : List (String × Entry))
  | file (content : FileContent)

abbrev Folder := List (String × Entry)

namespace Folder

def put (name : String) (entry : Entry) : Folder → Folder
  | [] => [(name, entry)]
  | (old, kept) :: rest =>
    if old = name then (name, entry) :: rest else (old, kept) :: put name entry rest

def putAt (entry : Entry) : List String → Folder → Folder
  | [], entries => entries
  | [name], entries => entries.put name entry
  | name :: place, entries =>
    match entries.lookup name with
    | some (.folder inner) => entries.put name (.folder (putAt entry place inner))
    | _ => entries

end Folder

inductive FileError where
  | notFound
  | taken
  | notFolder
  | isFolder
  | nameTooLong
  | nulInPath
  deriving DecidableEq

def FileError.message : FileError → String
  | notFound => "No such file or directory (os error 2)"
  | taken => "File exists (os error 17)"
  | notFolder => "Not a directory (os error 20)"
  | isFolder => "Is a directory (os error 21)"
  | nameTooLong => "File name too long (os error 36)"
  | nulInPath => "file name contained an unexpected NUL byte"

def splitPath : List Char → List (List Char)
  | [] => [[]]
  | character :: rest =>
    if character = '/' then [] :: splitPath rest
    else match splitPath rest with
      | part :: parts => (character :: part) :: parts
      | [] => [[character]]

def pathParts (path : String) : List String :=
  (splitPath path.toList).map String.ofList

def isAbsolute (path : String) : Bool :=
  path.toList.head? = some '/'

/-- The path of the folder that a path is in, then the one of the folder around that, and so on
outwards. Parts that lead nowhere do not count, except for a dot in front. -/
def parentPaths (path : String) : List String :=
  let names := match pathParts path with
    | [] => []
    | first :: rest => (if first = "" then [] else [first]) ++ rest.filter fun name => name ≠ "" ∧ name ≠ "."
  let root := if isAbsolute path then "/" else ""
  (List.range names.length).map fun count =>
    root ++ "/".intercalate (names.take (names.length - 1 - count))

def joinPath (folder name : String) : String :=
  if folder = "" ∨ folder.toList.getLast? = some '/' then folder ++ name else folder ++ "/" ++ name

/-- The entries of the root. Paths that do not begin at the root begin at the working folder, which
is given by its names from the root. -/
structure FileTree where
  entries : Folder := []
  workingFolder : List String := []

namespace FileTree

def maxName : Nat := 255

def maxPath : Nat := 4095

/-- Walks from an entry along names. The trail holds the names that led there and the folders that
they were found in, innermost first. Only the last name may be missing. -/
def walk (trail : List (String × Entry)) (here : Entry) :
    List String → Except FileError (List String × Option Entry)
  | [] => .ok ((trail.map Prod.fst).reverse, some here)
  | name :: rest =>
    match here with
    | .file _ => .error .notFolder
    | .folder entries =>
      if name = "" ∨ name = "." then walk trail here rest
      else if name = ".." then
        match trail with
        | [] => walk [] here rest
        | (_, outer) :: trail => walk trail outer rest
      else if maxName < name.utf8ByteSize then .error .nameTooLong
      else match entries.lookup name with
        | some next => walk ((name, here) :: trail) next rest
        | none =>
          if rest.all (· = "") then .ok ((name :: trail.map Prod.fst).reverse, none)
          else .error .notFound

def locateParts (tree : FileTree) (path : String) (parts : List String) :
    Except FileError (List String × Option Entry) :=
  if '\x00' ∈ path.toList then .error .nulInPath
  else if path = "" then .error .notFound
  else if maxPath < path.utf8ByteSize then .error .nameTooLong
  else walk [] (.folder tree.entries) (if isAbsolute path then parts else tree.workingFolder ++ parts)

def locate (tree : FileTree) (path : String) : Except FileError (List String × Option Entry) :=
  tree.locateParts path (pathParts path)

def put (tree : FileTree) (place : List String) (entry : Entry) : FileTree :=
  { tree with entries := tree.entries.putAt entry place }

def find (tree : FileTree) (path : String) : Except FileError Entry :=
  match tree.locate path with
  | .error error => .error error
  | .ok (_, none) => .error .notFound
  | .ok (_, some entry) => .ok entry

def isFolder (tree : FileTree) (path : String) : Bool :=
  match tree.find path with
  | .ok (.folder _) => true
  | _ => false

def makeFolder (tree : FileTree) (path : String) : Except FileError FileTree :=
  let parts := ((pathParts path).reverse.dropWhile (· = "")).reverse
  match tree.locateParts path parts with
  | .error error => .error error
  | .ok (_, some _) => .error .taken
  | .ok (place, none) => .ok (tree.put place (.folder []))

def ensureFolder (tree : FileTree) (path : String) : Except FileError FileTree :=
  match tree.makeFolder path with
  | .ok made => .ok made
  | .error error => if tree.isFolder path then .ok tree else .error error

/-- Makes the first folder of the list; the others are the folders around it, innermost first. Folders that were made
before a failure stay. -/
def makeFoldersIn (tree : FileTree) : List String → Except FileError Unit × FileTree
  | [] => (.error .notFound, tree)
  | path :: parents =>
    if path = "" then (.ok (), tree)
    else match tree.ensureFolder path with
      | .ok made => (.ok (), made)
      | .error .notFound =>
        match tree.makeFoldersIn parents with
        | (.ok (), around) =>
          match around.ensureFolder path with
          | .ok made => (.ok (), made)
          | .error error => (.error error, around)
        | failed => failed
      | .error error => (.error error, tree)

def makeFolders (tree : FileTree) (path : String) : Except FileError Unit × FileTree :=
  tree.makeFoldersIn (path :: parentPaths path)

def writeFile (tree : FileTree) (path : String) (content : FileContent) : Except FileError FileTree :=
  match tree.locate path with
  | .error error => .error error
  | .ok (_, some (.folder _)) => .error .isFolder
  | .ok (place, _) => .ok (tree.put place (.file content))

def plantFile (tree : FileTree) (path : String) (content : FileContent) : FileTree :=
  match tree.makeFoldersIn (parentPaths path) with
  | (.ok (), around) => (around.writeFile path content).toOption.getD tree
  | _ => tree

def plantFolder (tree : FileTree) (path : String) : FileTree :=
  match tree.makeFolders path with
  | (.ok (), made) => made
  | _ => tree

def inside (tree : FileTree) : Folder :=
  match walk [] (.folder tree.entries) tree.workingFolder with
  | .ok (_, some (.folder entries)) => entries
  | _ => []

end FileTree

end AmosBasic
