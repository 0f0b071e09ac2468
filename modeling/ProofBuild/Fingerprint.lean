import ProofBuild.Invocation
import ProofBuild.Sha256

/-!
Fingerprints of actions. A fingerprint is the digest of one byte sequence that holds the program,
its arguments and variables, every input with its content's digest or the mark of its absence,
and the fingerprints of the direct dependencies. Markers are empty, so the last part is what
ties a crate to the inputs that its dependencies were verified with.
-/

namespace ProofBuild

namespace Fingerprint

/-- An input and the digest of its content; none when the file is absent. -/
abbrev Input := Path × Option Bytes

def byte (c : Char) : UInt8 := c.toUInt8

def closed (text : String) : Bytes := Utf8.encode text ++ [0]

def settingBytes (setting : String × String) : Bytes :=
  Utf8.encode setting.1 ++ [byte '='] ++ closed setting.2

def invocationBytes (invocation : Invocation) : Bytes :=
  closed invocation.program.text ++ invocation.arguments.flatMap closed
    ++ invocation.settings.entries.flatMap settingBytes

def inputBytes (input : Input) : Bytes :=
  Utf8.encode input.1.text ++ match input.2 with
    | some digest => byte '+' :: digest
    | none => [byte '-']

def recordedBytes (recorded : Option String) : Bytes :=
  byte '^' :: closed (recorded.getD "-")

/-- The byte sequence that is digested. -/
def encode (invocation : Invocation) (inputs : List Input) (recorded : List (Option String)) :
    Bytes :=
  invocationBytes invocation ++ inputs.flatMap inputBytes ++ recorded.flatMap recordedBytes

/-- The content's digest of a file, or that there is none. Any other failure to read it is an
error. -/
def readInput (tree : FileTree) (path : Path) : Outcome Input :=
  match tree.read path with
  | .ok content => .ok (path, some (Sha256.digest content))
  | .error .notFound => .ok (path, none)
  | .error error => .error (.io (.readingInput path) (.file error))

end Fingerprint

def fingerprint (tree : FileTree) (invocation : Invocation) (inputs : List Path)
    (recorded : List (Option String)) : Outcome String := do
  let read ← inputs.mapM (Fingerprint.readInput tree)
  return Sha256.hex (Sha256.digest (Fingerprint.encode invocation read recorded))

end ProofBuild
