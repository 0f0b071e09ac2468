import ProofBuild.Environment
import ProofBuild.Graph

/-!
What a verifier is started with for one crate: the program, its arguments in a fixed order, and
the variables set for it; and what the task reads and writes. The crates below are bound to their
success markers, the one file that each of them is sure to have.
-/

namespace ProofBuild

/-- A verifier process: everything that decides what it does. -/
structure Invocation where
  program : Path
  arguments : List String
  /-- variables set on top of the inherited ones -/
  settings : Table
  deriving DecidableEq

/-- What a task reads and writes, as a scheduler sees it. -/
structure Declaration where
  mnemonic : String
  inputs : List Path
  outputs : List Path
  requirements : Requirements
  deriving DecidableEq, Repr

/-- What a crate gets from its direct dependencies. -/
structure Linkage where
  /-- identities with the markers that stand for them, each identity once -/
  bindings : List (String × Path)
  /-- the markers of everything below, each once -/
  markers : List Path
  deriving DecidableEq, Repr

namespace Linkage

/-- The crates without those whose identity came before. -/
def distinct (crates : List Crate) : List Crate := go [] crates
where
  go : List String → List Crate → List Crate
    | _, [] => []
    | seen, crate :: rest =>
        if crate.identity ∈ seen then go seen rest
        else crate :: go (crate.identity :: seen) rest

def ofCrates (dependencies : List Crate) : Linkage where
  bindings := (distinct dependencies).map fun crate => (crate.identity, crate.marker)
  markers := (distinct dependencies).foldl (fun all crate => Path.addAll all crate.markers) []

def arguments (linkage : Linkage) : List String :=
  linkage.bindings.flatMap fun bound => binding LibraryKind.compiled.flag bound.1 bound.2

end Linkage

namespace Invocation

def ofCrate (crate : Crate) (bundle : Bundle) (linkage : Linkage) (environment : Environment)
    (edition : String) : Invocation where
  program := bundle.verifier
  arguments :=
    ["--crate-type=lib", "--edition=" ++ edition, "--sysroot", environment.sysroot.text]
      ++ bundle.libraryArguments ++ linkage.arguments ++ crate.extraArguments
      ++ ["--crate-name", crate.identity, crate.entry.text]
  settings := environment.settings

/-- The argument after the last `--crate-name`. -/
def crateName? (arguments : List String) : Option String :=
  go none arguments
where
  go : Option String → List String → Option String
    | found, [] => found
    | found, first :: rest =>
        if first = "--crate-name" then go (rest.head?.or found) rest else go found rest

end Invocation

namespace Declaration

def actionName : String := "VerusVerify"

def ofCrate (crate : Crate) (bundle : Bundle) (linkage : Linkage) : Declaration where
  mnemonic := actionName
  inputs := crate.sources ++ bundle.artifacts ++ linkage.markers
  outputs := [crate.marker]
  requirements := bundle.platform.requirements

end Declaration

end ProofBuild
