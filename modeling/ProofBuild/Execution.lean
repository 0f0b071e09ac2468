import ProofBuild.Workspace

/-!
One run of the program from its arguments to its exit status. An error decides the status and is
shown: as a line, or as a report on the manifest's text when the manifest is at fault.
-/

namespace ProofBuild

/-- What a run shows besides its output. -/
inductive Complaint where
  | text (shown : String)
  /-- a report on the text of the manifest file -/
  | report (manifest : Path) (diagnostic : Diagnostic)
  /-- the usage, or the help that was asked for -/
  | usage
  deriving DecidableEq, Repr

structure Finish where
  tree : FileTree
  status : Int
  output : String
  complaint : Complaint
  /-- the error that ended the run, if one did -/
  error : Option Error

namespace Finish

def versionLine : String := "verdag 0.1.0\n"

def ofRefusal (tree : FileTree) : Refusal → Finish
  | .help => ⟨tree, 0, "", .usage, none⟩
  | .version => ⟨tree, 0, versionLine, .text "", none⟩
  | .misuse => ⟨tree, 2, "", .usage, none⟩

def ofEffect (manifest : Path) (effect : Effect Int) : Finish :=
  let tree := effect.world.tree
  match effect.outcome with
  | .ok status => ⟨tree, status, effect.output, .text effect.world.shown, none⟩
  | .error error =>
      let complaint := match error with
        | .manifest .. =>
            let source := (tree.readText manifest).toOption.getD ""
            Complaint.report manifest (Diagnostic.ofError error source)
        | _ => .text (effect.world.shown ++ s!"Error: {error.message}\n")
      ⟨tree, error.exitCode, effect.output, complaint, some error⟩

end Finish

def Request.run (request : Request) (machine : Machine) (tree : FileTree) : Effect Int :=
  let world := World.start tree
  match Workspace.load tree request.manifest request.out with
  | .error error => ⟨world, "", .error error⟩
  | .ok workspace => workspace.perform machine world request.command

def Machine.execute (machine : Machine) (arguments : List String) (tree : FileTree) : Finish :=
  match CommandLine.parse arguments with
  | .error refusal => Finish.ofRefusal tree refusal
  | .ok request => Finish.ofEffect request.manifest (request.run machine tree)

end ProofBuild
