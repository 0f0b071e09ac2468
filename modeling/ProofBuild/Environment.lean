import ProofBuild.Bundle
import ProofBuild.Table

/-!
The environment that a verifier runs in: the variables to set on top of the inherited ones, and
the root of the compiler's own libraries. It is put together from what the machine shows, or
from a fixed root without a look at the machine.
-/

namespace ProofBuild

structure Environment where
  settings : Table
  /-- the root of the compiler's libraries -/
  sysroot : Path
  deriving DecidableEq

/-- A question to the compiler for its root: the version asked for, or none for the default
compiler, and the variables set for it. -/
structure Query where
  version : Option String
  settings : Table
  deriving DecidableEq

structure Probe where
  /-- the home directory that the user database gives -/
  home : Option Path
  inherited : String → Option String
  isDirectory : Path → Bool
  isFile : Path → Bool
  /-- the answer of the compiler -/
  sysroot : Query → Option Path

namespace Environment

def managerState : String := ".rustup"

def managerPrograms : List String := [".cargo/bin"]

def libraryDirectories (bundle : Bundle) (sysroot : Path) : List Path :=
  sysroot.child "lib" :: bundle.verifierDirectory?.toList

/-- The library variable in front of what is inherited, and the solver's directory in front of the
search path. -/
def complete (bundle : Bundle) (settings : Table) (sysroot : Path)
    (inheritedLibraries searchPath : Option String) : Environment where
  settings :=
    let separator := bundle.platform.separator
    (settings.insert bundle.platform.libraryVariable
        (SearchPath.join (libraryDirectories bundle sysroot) inheritedLibraries separator)).insert
      "PATH" (SearchPath.join bundle.solverDirectory?.toList searchPath separator)
  sysroot

def fixed (sysroot : Path) (searchPath : Option String) (bundle : Bundle) : Environment :=
  complete bundle .empty sysroot none searchPath

end Environment

namespace Probe

-- A toolchain manager is known by its directories under the home directory.
def managerHome? (probe : Probe) : Option Path :=
  probe.home.filter fun home => probe.isDirectory (home.child Environment.managerState)

def managerDirectories (probe : Probe) : List Path :=
  match probe.managerHome? with
  | none => []
  | some home => (Environment.managerPrograms.map home.child).filter probe.isDirectory

def managerSearchPath? (probe : Probe) (separator : Char) : Option String :=
  match probe.managerDirectories with
  | [] => none
  | directories => some (SearchPath.join directories (probe.inherited "PATH") separator)

/-- The variables for the compiler: the real home and the search path of a toolchain manager. -/
def querySettings (probe : Probe) (separator : Char) : Table :=
  let homeOnly := match probe.managerHome? with
    | none => Table.empty
    | some home => Table.empty.insert "HOME" home.text
  match probe.managerSearchPath? separator with
  | none => homeOnly
  | some searchPath => homeOnly.insert "PATH" searchPath

/-- Ask for the pinned version and, if that fails, for the default compiler. Gives the questions
asked, too. -/
def findSysroot (probe : Probe) (pinned : String) (settings : Table) :
    List Query × Option Path :=
  let first : Query := ⟨some pinned, settings⟩
  match probe.sysroot first with
  | some sysroot => ([first], some sysroot)
  | none =>
      let second : Query := ⟨none, settings⟩
      ([first, second], probe.sysroot second)

def noCompiler (pinned : String) : Error :=
  .toolchain "compiler sysroot"
    ("no Rust compiler found; a compiler must be installed, " ++
      s!"e.g. `rustup toolchain install {pinned}`")
    pinned

/-- The environment for a bundle on this machine. Gives the questions to the compiler, too. -/
def synthesize (probe : Probe) (bundle : Bundle) : List Query × Outcome Environment :=
  let settings := probe.querySettings bundle.platform.separator
  match probe.findSysroot bundle.version settings with
  | (queries, none) => (queries, .error (noCompiler bundle.version))
  | (queries, some sysroot) =>
      if probe.isFile bundle.solver then
        (queries, .ok (Environment.complete bundle settings sysroot
          (probe.inherited bundle.platform.libraryVariable)
          ((settings.get? "PATH").or (probe.inherited "PATH"))))
      else
        (queries, .error (.toolchain "solver" s!"{bundle.solver.text} not found" bundle.version))

end Probe

end ProofBuild
