import ProofBuild.Build
import ProofBuild.CommandLine
import ProofBuild.DryRun
import ProofBuild.Manifest
import ProofBuild.Program
import ProofBuild.Trial

/-!
Workspaces and the commands in them. A workspace is a manifest with the graph of its units; the
toolchain is looked for only by commands that need it. A command writes to the output, and it
ends with a status or with an error.
-/

namespace ProofBuild

structure Workspace where
  manifest : Manifest
  graph : Graph
  /-- where markers and recorded fingerprints lie -/
  out : Path

/-- What a command leaves: the world, what it wrote to the output, and its answer. -/
structure Effect (Answer : Type) where
  world : World
  output : String
  outcome : Outcome Answer

namespace Workspace

/-- The directory beside the manifest that is used when none is named. -/
def defaultOut : String := "verdag-out"

def load (tree : FileTree) (manifest : Path) (out : Option Path) : Outcome Workspace := do
  let (read, _) ← Manifest.load tree manifest
  let out := out.getD (manifest.directory.child defaultOut)
  let graph ← Graph.ofSpecs read.units out
  return ⟨read, graph, out⟩

def bundle (workspace : Workspace) (machine : Machine) (tree : FileTree) : Outcome Bundle := do
  let platform ← workspace.manifest.platform machine.platform
  Bundle.acquire tree workspace.manifest.toolchain.path workspace.manifest.toolchain.version platform

def context (workspace : Workspace) (machine : Machine) (bundle : Bundle) : Context :=
  machine.context bundle workspace.manifest.toolchain.edition

/-- Build a selection over the recorded fingerprints, and record them again. -/
def update (workspace : Workspace) (machine : Machine) (bundle : Bundle) (selected : List Crate)
    (world : World) : World × Outcome Report :=
  match Cache.load world.tree workspace.out with
  | .error error => (world, .error error)
  | .ok cache =>
      let (state, report) :=
        (workspace.context machine bundle).build workspace.graph selected ⟨world, cache⟩
      match state.cache.save state.world.tree workspace.out with
      | (tree, .error error) => ({ state.world with tree }, .error error)
      | (tree, .ok _) => ({ state.world with tree }, .ok report)

/-- A name filled up with blanks to the width of the name column. -/
def padded (name : String) : String :=
  name ++ String.ofList (List.replicate (24 - name.length) ' ')

def summary (report : Report) : String :=
  let lines := report.fates.map fun entry => s!"  {padded entry.1} {entry.2.description}\n"
  let tally := report.tally
  String.join lines
    ++ s!"{tally.verified} verified, {tally.cached} cached, {tally.failed} failed, "
    ++ s!"{tally.blocked} blocked ({report.lookups.hits} cache hits, {report.lookups.misses} misses)\n"

def build (workspace : Workspace) (machine : Machine) (units : List String) (world : World) :
    Effect Int :=
  match workspace.graph.closure units with
  | .error error => ⟨world, "", .error error⟩
  | .ok selected =>
      match workspace.bundle machine world.tree with
      | .error error => ⟨world, "", .error error⟩
      | .ok bundle =>
          match workspace.update machine bundle selected world with
          | (after, .error error) => ⟨after, "", .error error⟩
          | (after, .ok report) =>
              ⟨after, summary report, .ok (if report.Success then 0 else 1)⟩

def tryOut (workspace : Workspace) (machine : Machine) (bundle : Bundle) (crate : Crate)
    (world : World) : Effect Int :=
  let (after, report, outcome) :=
    (workspace.context machine bundle).trial workspace.graph crate world
  ⟨after, report, outcome.map Trial.exitCode⟩

/-- Build what lies below a unit, and try the unit out if that succeeds. -/
def test (workspace : Workspace) (machine : Machine) (unit : String) (world : World) :
    Effect Int :=
  match workspace.graph.require unit, workspace.graph.closure [unit] with
  | .error error, _ | _, .error error => ⟨world, "", .error error⟩
  | .ok crate, .ok closure =>
      let below := closure.filter fun other => other.name ≠ unit
      match workspace.bundle machine world.tree with
      | .error error => ⟨world, "", .error error⟩
      | .ok bundle =>
          if below = [] then workspace.tryOut machine bundle crate world
          else match workspace.update machine bundle below world with
            | (after, .error error) => ⟨after, "", .error error⟩
            | (after, .ok report) =>
                if report.Success then workspace.tryOut machine bundle crate after
                else ⟨after, summary report, .ok 1⟩

/-- The task of a unit as it would be run. -/
def dryRun (workspace : Workspace) (machine : Machine) (unit : String) (tree : FileTree) :
    Outcome DryRun := do
  let crate ← workspace.graph.require unit
  let bundle ← workspace.bundle machine tree
  let environment ← ((machine.probe tree).synthesize bundle).2
  let linkage := Linkage.ofCrates (workspace.graph.dependencies crate)
  return {
    crate
    invocation := Invocation.ofCrate crate bundle linkage environment
      workspace.manifest.toolchain.edition
    declaration := Declaration.ofCrate crate bundle linkage
    bundle }

def showArguments (workspace : Workspace) (machine : Machine) (unit : String) (asJson : Bool)
    (world : World) : Effect Int :=
  match workspace.dryRun machine unit world.tree with
  | .error error => ⟨world, "", .error error⟩
  | .ok dryRun =>
      ⟨world, if asJson then dryRun.toJson.pretty ++ "\n" else dryRun.commandLines, .ok 0⟩

def showEnvironment (workspace : Workspace) (machine : Machine) (world : World) : Effect Int :=
  match workspace.bundle machine world.tree with
  | .error error => ⟨world, "", .error error⟩
  | .ok bundle =>
      match ((machine.probe world.tree).synthesize bundle).2 with
      | .error error => ⟨world, "", .error error⟩
      | .ok environment =>
          let lines := environment.settings.entries.map fun setting =>
            s!"{setting.1}={setting.2}\n"
          ⟨world, s!"# sysroot: {environment.sysroot.text}\n" ++ String.join lines, .ok 0⟩

/-- Remove the markers of crates, up to the first that cannot be removed. -/
def removeMarkers : List Crate → World → World × Outcome Unit
  | [], world => (world, .ok ())
  | crate :: rest, world =>
      match world.removeMarker crate.marker with
      | (after, .error error) => (after, .error error)
      | (after, .ok _) => removeMarkers rest after

def clean (workspace : Workspace) (world : World) : Effect Int :=
  match removeMarkers workspace.graph.crates world with
  | (after, .error error) => ⟨after, "", .error error⟩
  | (after, .ok _) =>
      let recorded := Cache.pathIn workspace.out
      let done := s!"Removed markers for {workspace.graph.crates.length} units\n"
      match after.tree.removeFile recorded with
      | .ok tree => ⟨{ after with tree }, done, .ok 0⟩
      | .error .notFound => ⟨after, done, .ok 0⟩
      | .error error => ⟨after, "", .error (.io (.removing recorded) (.file error))⟩

def perform (workspace : Workspace) (machine : Machine) (world : World) : Command → Effect Int
  | .build units => workspace.build machine units world
  | .test unit => workspace.test machine unit world
  | .arguments unit asJson => workspace.showArguments machine unit asJson world
  | .environment => workspace.showEnvironment machine world
  | .clean => workspace.clean world

end Workspace

/-- The files of a release, in the directory itself or in the one named for the platform. -/
def Bundle.releaseFiles (root : Path) (platform : Platform) : List Path :=
  let names := ["rust_verify", "z3"] ++ (candidates platform).map (·.2.1)
  [root, root.child platform.artifactName].flatMap fun directory =>
    directory :: names.map directory.child

/-- The sources and the marker of a crate. -/
def Crate.files (crate : Crate) : List Path := crate.marker :: crate.sources

/-- The files that the commands of a workspace look at or change. -/
def Workspace.files (workspace : Workspace) (platform : Platform) : List Path :=
  Bundle.releaseFiles workspace.manifest.toolchain.path platform
    ++ workspace.graph.crates.flatMap Crate.files
    ++ [workspace.out, Cache.pathIn workspace.out]

end ProofBuild
