import AmosBasic.Command.Run

open AmosBasic

/-- Adds what stands at a path of the disk. What is there but cannot be read counts as a folder. -/
def plantFromDisk (tree : FileTree) (path : String) : IO FileTree := do
  try
    let bytes ← IO.FS.readBinFile path
    return tree.plantFile path (.bytes bytes.toList)
  catch error =>
    match error with
    | .noFileOrDirectory .. => return tree
    | _ => return tree.plantFolder path

def treeFromDisk (arguments : Command.Arguments) : IO FileTree := do
  let inputs ← (arguments.file?.toList ++ arguments.config?.toList).foldlM plantFromDisk {}
  match Command.Libraries.standIn.settingsOf inputs arguments with
  | .error _ => return inputs
  | .ok settings =>
    let folders := [settings.output.imageFolder, settings.output.dataFolder]
    (folders.flatMap fun folder => (folder :: parentPaths folder).reverse).foldlM plantFromDisk inputs

def writeToDisk (tree : FileTree) (path : String) : IO Unit := do
  match tree.find path with
  | .ok (.file content) =>
    if let parent :: _ := parentPaths path then
      if parent ≠ "" then IO.FS.createDirAll parent
    IO.FS.writeBinFile path (Command.Libraries.standIn.contentBytes content).toByteArray
  | _ => return ()

def main (words : List String) : IO UInt32 := do
  let tree ← match Command.Arguments.parse words with
    | .ok arguments => treeFromDisk arguments
    | .error _ => pure {}
  let logSpecification? ← IO.getEnv "RUST_LOG"
  let outcome := Command.run
    { program := programName, words, logSpecification?, tree }
  IO.print outcome.output
  IO.eprint outcome.messages
  outcome.written.forM (writeToDisk outcome.tree)
  return UInt32.ofNat outcome.status
