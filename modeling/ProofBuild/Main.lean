import ProofBuild.Execution

/-!
The program. It reads the files that the request may look at, runs the request over them, writes
back what has changed, and ends with the status. No other program is started from here: the
machine answers for none, so requests that need the compiler or a verifier end with the error
for that.
-/

namespace ProofBuild

namespace Disk

/-- What lies at a place; nothing when it cannot be read. -/
def node? (place : Path) : IO (Option Node) := do
  try
    let content ← IO.FS.readBinFile place.text
    return some (.file content.toList true)
  catch
    | .inappropriateType .. => return some .directory
    | _ => return none

/-- The tree with one more node, as far as there is room for it. -/
def plant (tree : FileTree) (place : Path) : Node → FileTree
  | .directory => (tree.makeDirectories place).1
  | .file content executable =>
      let planted := do (← tree.write place content).setExecutable place executable
      planted.toOption.getD tree

/-- Read a path and the directories around it, the outermost first. -/
def read (home : Path) (tree : FileTree) (path : Path) : IO FileTree :=
  (home.join path).ancestors.reverse.foldlM (fun tree place => do
    match ← node? place with
    | some node => return plant tree place node
    | none => return tree) tree

def pathOf (location : Location) : Path := ⟨"/" ++ "/".intercalate location.reverse⟩

/-- Every place that a tree has or had an entry for, each once. -/
def places (tree : FileTree) : List Location := (tree.entries.reverse.map (·.1)).eraseDups

/-- Make the disk agree with the tree where it was changed. -/
def write (before after : FileTree) : IO PUnit := do
  for place in places before do
    if (before.node? place).isSome ∧ after.node? place = none then
      IO.FS.removeFile (pathOf place).text
  for place in places after do
    if after.node? place ≠ before.node? place then
      match after.node? place with
      | none => pure ⟨⟩
      | some .directory => IO.FS.createDirAll (pathOf place).text
      | some (.file content _) => IO.FS.writeBinFile (pathOf place).text ⟨content.toArray⟩

end Disk

def Machine.inheritedVariables : List String :=
  ["PATH", "HOME", "LD_LIBRARY_PATH", "DYLD_LIBRARY_PATH"]

/-- This machine, without any program. -/
def Machine.here : IO Machine := do
  let found ← Machine.inheritedVariables.filterMapM fun name => do
    return (← IO.getEnv name).map (name, ·)
  let inherited := Table.ofList found
  return {
    inherited
    home := (inherited.get? "HOME").map Path.mk
    platform := .linuxX86
    process := ← IO.monoNanosNow
    programs := fun _ _ => none }

/-- The files that a request may look at. -/
def Request.readFiles (request : Request) (machine : Machine) : IO FileTree := do
  let home : Path := ⟨(← IO.currentDir).toString⟩
  let start := FileTree.bare (home.pieces.filter (· ≠ "")).reverse
  let tree ← [home, request.manifest].foldlM (Disk.read home) start
  match Workspace.load tree request.manifest request.out with
  | .error _ => return tree
  | .ok workspace => (workspace.files machine.platform).foldlM (Disk.read home) tree

def Complaint.print : Complaint → IO PUnit
  | .text shown => IO.eprint shown
  | .report manifest diagnostic => do
      IO.eprintln diagnostic.headline
      match diagnostic.place with
      | none => pure ⟨⟩
      | some place => IO.eprintln s!"  at {manifest.text}:{place.line}:{place.column}"
  | .usage =>
      IO.eprintln
        "Usage: verdag [--manifest FILE] [--out DIR] [-v] <build|test|args|env|clean> [UNIT]..."

end ProofBuild

def main (arguments : List String) : IO UInt32 := do
  let machine ← ProofBuild.Machine.here
  let before ← match ProofBuild.CommandLine.parse arguments with
    | .error _ => pure (ProofBuild.FileTree.bare [])
    | .ok request => request.readFiles machine
  let finish := machine.execute arguments before
  ProofBuild.Disk.write before finish.tree
  IO.print finish.output
  finish.complaint.print
  return finish.status.toNat.toUInt32
