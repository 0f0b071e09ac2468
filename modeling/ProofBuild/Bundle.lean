import ProofBuild.FileTree.Access
import ProofBuild.Platform

/-!
Toolchain bundles: the verifier, the solver, the libraries that come precompiled, and the version
of the compiler that the verifier was built with. A bundle is found in an unpacked release, in
the directory itself or in the one inside it that is named for the platform.
-/

namespace ProofBuild

/-- How a library is bound to its name. -/
inductive LibraryKind where
  /-- a compiled crate -/
  | compiled
  /-- a summary written by the verifier -/
  | summary
  deriving DecidableEq, Repr

def LibraryKind.flag : LibraryKind → String
  | .compiled => "--extern"
  | .summary => "--import"

structure Library where
  name : String
  path : Path
  kind : LibraryKind
  deriving DecidableEq, Repr

def binding (flag name : String) (target : Path) : List String :=
  [flag, name ++ "=" ++ target.text]

def Library.arguments (library : Library) : List String :=
  binding library.kind.flag library.name library.path

structure Bundle where
  verifier : Path
  solver : Path
  libraries : List Library
  /-- the version of the compiler that the verifier was built with -/
  version : String
  platform : Platform
  deriving DecidableEq, Repr

namespace Bundle

def artifacts (bundle : Bundle) : List Path :=
  bundle.verifier :: bundle.solver :: bundle.libraries.map (·.path)

def libraryArguments (bundle : Bundle) : List String :=
  bundle.libraries.flatMap Library.arguments

def verifierDirectory? (bundle : Bundle) : Option Path := bundle.verifier.parent?

def solverDirectory? (bundle : Bundle) : Option Path := bundle.solver.parent?

/-- The libraries that a release may have, with their file names. -/
def candidates (platform : Platform) : List (String × String × LibraryKind) := [
  ("builtin", "libbuiltin.rlib", .compiled),
  ("builtin_macros", "libbuiltin_macros." ++ platform.libraryExtension, .compiled),
  ("vstd", "libvstd.rlib", .compiled),
  ("vstd", "vstd.vir", .summary)]

def librariesIn (tree : FileTree) (directory : Path) (platform : Platform) : List Library :=
  (candidates platform).filterMap fun candidate =>
    let path := directory.child candidate.2.1
    if tree.isFile path then some ⟨candidate.1, path, candidate.2.2⟩ else none

/-- The directory inside `root` that is named for the platform, if there is one, else `root`. -/
def releaseDirectory (tree : FileTree) (root : Path) (platform : Platform) : Path :=
  let nested := root.child platform.artifactName
  if tree.isDirectory nested then nested else root

/-- The bundle of an unpacked release. Only the verifier has to be there. -/
def acquire (tree : FileTree) (root : Path) (version : String) (platform : Platform) :
    Outcome Bundle :=
  let directory := releaseDirectory tree root platform
  let verifier := directory.child "rust_verify"
  if tree.isExecutable verifier then
    .ok {
      verifier
      solver := directory.child "z3"
      libraries := librariesIn tree directory platform
      version
      platform }
  else
    .error (.toolchain "verifier" s!"{verifier.text} is missing or not executable" version)

end Bundle

end ProofBuild
