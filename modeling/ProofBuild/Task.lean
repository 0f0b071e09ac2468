import ProofBuild.Invocation

/-!
Verifying one crate. The marker of the crate is removed before the verifier starts, and an empty
marker is put in its place, by way of a temporary file beside it, when the verifier ends with
status zero. So a marker is there only after a run that succeeded. A task cannot be prepared
while a direct dependency has no marker.
-/

namespace ProofBuild

structure Verdict where
  /-- the exit status; none when it was killed -/
  code : Option Int
  output : String
  complaint : String
  deriving DecidableEq, Repr

def Verdict.Passed (verdict : Verdict) : Prop := verdict.code = some 0

instance (verdict : Verdict) : Decidable verdict.Passed :=
  inferInstanceAs (Decidable (verdict.code = some 0))

/-- What tasks act on: the files, the invocations so far, first to last, and the text shown of
verifiers that failed. -/
structure World where
  tree : FileTree
  calls : List Invocation
  shown : String

/-- What tasks share. The verifier sees the world and changes no files. -/
structure Context where
  bundle : Bundle
  synthesize : FileTree → Bundle → Outcome Environment
  verify : World → Invocation → Outcome Verdict
  edition : String
  /-- the number of this process, which no other running process has -/
  process : Nat

structure Prepared where
  invocation : Invocation
  environment : Environment
  deriving DecidableEq

namespace Marker

def remove (tree : FileTree) (marker : Path) : FileTree × Outcome Unit :=
  match tree.removeFile marker with
  | .ok smaller => (smaller, .ok ())
  | .error .notFound => (tree, .ok ())
  | .error error => (tree, .error (.io (.removingMarker marker) (.file error)))

/-- The file that becomes the marker. -/
def temporary (marker : Path) (process : Nat) : Path := marker.extendedBy s!".tmp{process}"

def makeRoom (tree : FileTree) (marker : Path) : FileTree × Except FileError Unit :=
  match marker.parent? with
  | none => (tree, .ok ())
  | some parent => if parent.text = "" then (tree, .ok ()) else tree.makeDirectories parent

def write (tree : FileTree) (marker : Path) (process : Nat) : FileTree × Outcome Unit :=
  let failed (tree : FileTree) (error : FileError) : FileTree × Outcome Unit :=
    (tree, .error (.io (.writing marker) (.file error)))
  match makeRoom tree marker with
  | (grown, .error error) => failed grown error
  | (grown, .ok _) =>
      match grown.write (temporary marker process) [] with
      | .error error => failed grown error
      | .ok written =>
          match written.renameFile (temporary marker process) marker with
          | .error error => failed written error
          | .ok renamed => (renamed, .ok ())

end Marker

namespace World

def start (tree : FileTree) : World := ⟨tree, [], ""⟩

def removeMarker (world : World) (marker : Path) : World × Outcome Unit :=
  let (tree, outcome) := Marker.remove world.tree marker
  ({ world with tree }, outcome)

def writeMarker (world : World) (marker : Path) (process : Nat) : World × Outcome Unit :=
  let (tree, outcome) := Marker.write world.tree marker process
  ({ world with tree }, outcome)

def called (world : World) (invocation : Invocation) : World :=
  { world with calls := world.calls ++ [invocation] }

def display (world : World) (text : String) : World :=
  { world with shown := world.shown ++ text }

end World

namespace Context

/-- The invocation for a crate, when all its direct dependencies have their markers. -/
def prepare (context : Context) (graph : Graph) (tree : FileTree) (crate : Crate) :
    Outcome Prepared :=
  let dependencies := graph.dependencies crate
  match dependencies.find? fun dependency => !tree.present dependency.marker with
  | some dependency => .error (.graph (.missingMarker crate.name dependency.name))
  | none =>
      match context.synthesize tree context.bundle with
      | .error error => .error error
      | .ok environment =>
          .ok ⟨Invocation.ofCrate crate context.bundle (Linkage.ofCrates dependencies) environment
            context.edition, environment⟩

/-- Start the verifier and put the marker in place if it ends with status zero. What a failed
verifier wrote is shown. -/
def start (context : Context) (crate : Crate) (invocation : Invocation) (world : World) :
    World × Outcome Path :=
  let after := world.called invocation
  match context.verify world invocation with
  | .error error => (after, .error error)
  | .ok verdict =>
      if verdict.Passed then
        match after.writeMarker crate.marker context.process with
        | (marked, .error error) => (marked, .error error)
        | (marked, .ok _) => (marked, .ok crate.marker)
      else
        (after.display (verdict.output ++ verdict.complaint),
          .error (.verification crate.identity verdict.code))

/-- Run a prepared invocation in place of the crate's marker. -/
def execute (context : Context) (crate : Crate) (invocation : Invocation) (world : World) :
    World × Outcome Path :=
  match world.removeMarker crate.marker with
  | (world, .error error) => (world, .error error)
  | (world, .ok _) => context.start crate invocation world

/-- Verify a crate anew. Its marker goes first, even when the task cannot be prepared. -/
def run (context : Context) (graph : Graph) (crate : Crate) (world : World) :
    World × Outcome Path :=
  match world.removeMarker crate.marker with
  | (world, .error error) => (world, .error error)
  | (world, .ok _) =>
      match context.prepare graph world.tree crate with
      | .error error => (world, .error error)
      | .ok prepared => context.start crate prepared.invocation world

end Context

end ProofBuild
