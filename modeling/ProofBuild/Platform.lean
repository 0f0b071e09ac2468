import ProofBuild.Error
import ProofBuild.Text.Pieces

/-!
The platforms that verifier releases exist for, their names, and what depends on them: the name
of the release archive, the variable that the dynamic loader reads, the extension of shared
libraries, and what running a verifier requires.
-/

namespace ProofBuild

inductive Platform where
  | linuxX86
  | linuxArm
  | macosX86
  | macosArm
  deriving DecidableEq, Repr, Inhabited

/-- What a scheduler must grant to a task. -/
structure Requirements where
  /-- the task reads the real home directory and the installed compilers -/
  unsandboxed : Bool
  /-- the task stays on this machine -/
  onMachine : Bool
  deriving DecidableEq, Repr

namespace Platform

def all : List Platform := [.linuxX86, .linuxArm, .macosX86, .macosArm]

def name : Platform → String
  | .linuxX86 => "x86_64-linux"
  | .linuxArm => "aarch64-linux"
  | .macosX86 => "x86_64-macos"
  | .macosArm => "aarch64-macos"

def aliases : Platform → List String
  | .linuxX86 => ["x86_64-unknown-linux-gnu", "linux-x86_64"]
  | .linuxArm => ["arm64-linux", "aarch64-unknown-linux-gnu", "linux-aarch64"]
  | .macosX86 => ["x86_64-apple-darwin", "macos-x86_64"]
  | .macosArm => ["arm64-macos", "aarch64-apple-darwin", "macos-arm64"]

/-- The platform of a name, without regard to the blanks around it and to the case of ASCII
letters. -/
def ofName (given : String) : Outcome Platform :=
  let sought := Text.toLowerAscii (Text.trim given)
  match all.find? fun platform => sought ∈ platform.name :: platform.aliases with
  | some platform => .ok platform
  | none => .error (.config (.unsupportedPlatform sought (all.map name)))

def artifactName : Platform → String
  | .linuxX86 => "verus-x86-linux"
  | .linuxArm => "verus-arm64-linux"
  | .macosX86 => "verus-x86-macos"
  | .macosArm => "verus-arm64-macos"

def libraryVariable : Platform → String
  | .linuxX86 | .linuxArm => "LD_LIBRARY_PATH"
  | .macosX86 | .macosArm => "DYLD_LIBRARY_PATH"

def libraryExtension : Platform → String
  | .linuxX86 | .linuxArm => "so"
  | .macosX86 | .macosArm => "dylib"

/-- The character between the directories of a search path. -/
def separator : Platform → Char
  | .linuxX86 | .linuxArm | .macosX86 | .macosArm => ':'

/-- Tasks read the state of their machine on every platform. -/
def requirements : Platform → Requirements
  | .linuxX86 | .linuxArm | .macosX86 | .macosArm => ⟨true, true⟩

/-- Every platform is found by its name. -/
theorem ofName_name (platform : Platform) : ofName platform.name = .ok platform := by
  cases platform <;> rfl

end Platform

end ProofBuild
