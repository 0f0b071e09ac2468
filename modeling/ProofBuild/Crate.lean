import ProofBuild.Spec

/-!
Crates to be verified: declared units with their entry, identity and success marker settled. A
crate knows the markers of everything below it, its own first. What it depends on is known by
name.
-/

namespace ProofBuild

structure Crate where
  name : String
  /-- the name that the verifier knows the crate by -/
  identity : String
  entry : Path
  sources : List Path
  extraArguments : List String
  /-- direct dependencies, as declared -/
  dependencies : List String
  /-- the file whose existence says that the crate is verified -/
  marker : Path
  /-- the markers of the crate and of everything below it, each once -/
  markers : List Path
  deriving DecidableEq, Repr

namespace Crate

def find? (crates : List Crate) (name : String) : Option Crate :=
  crates.find? fun crate => crate.name = name

/-- The crates of these names, in the order of the names. -/
def select (crates : List Crate) (names : List String) : List Crate :=
  names.filterMap (find? crates)

def markerIn (directory : Path) (name : String) : Path :=
  directory.child (name ++ ".success")

def markersWith (marker : Path) (dependencies : List Crate) : List Path :=
  dependencies.foldl (fun markers crate => Path.addAll markers crate.markers) [marker]

/-- A declared unit on top of crates that are settled already. -/
def ofSpec (directory : Path) (settled : List Crate) (spec : Spec) : Outcome Crate :=
  match spec.resolve with
  | .error error => .error error
  | .ok (entry, identity) =>
      let dependencies := select settled spec.dependencies
      let marker := markerIn directory spec.name
      .ok {
        name := spec.name
        identity
        entry
        sources := spec.sources
        extraArguments := spec.extraArguments
        dependencies := dependencies.map (·.name)
        marker
        markers := markersWith marker dependencies }

end Crate

end ProofBuild
