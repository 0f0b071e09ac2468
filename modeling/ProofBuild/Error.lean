import ProofBuild.FileTree
import ProofBuild.Path
import ProofBuild.Text.Place

/-!
What can go wrong, by cause. Mistakes in the configuration, the manifest or the graph stop a run
before anything is executed; the others concern one unit, the toolchain or a file. Each error
has one text, and it decides the exit status of the program. An error in the manifest is reported with
the place of the text at fault.
-/

namespace ProofBuild

inductive ConfigProblem where
  | noSources
  /-- an entry file that is no source of its unit -/
  | foreignEntry (entry : Path)
  | inUnit (unit : String) (problem : ConfigProblem)
  | unknownUnit (name : String)
  | unsupportedPlatform (name : String) (supported : List String)
  | stated (text : String)
  deriving DecidableEq, Repr

/-- How a document fails to be a manifest. -/
inductive ManifestProblem where
  | malformed
  | unknownField (name : String) (known : List String)
  | missingField (name : String)
  | wrongType (found wanted : String)
  | wrongLength (count : Nat) (wanted : String) (elements : Nat)
  | stated (text : String)
  deriving DecidableEq, Repr

inductive GraphProblem where
  | repeatedUnit (name : String)
  | unknownDependency (unit dependency : String)
  /-- units that depend on one another; the last one is the first again -/
  | cycle (names : List String)
  | sharedIdentity (earlier later identity : String)
  | missingMarker (unit dependency : String)
  | stated (text : String)
  deriving DecidableEq, Repr

/-- What was being done when a file or a process failed. -/
inductive Activity where
  | readingManifest (path : Path)
  | readingInput (path : Path)
  | reading (path : Path)
  | writing (path : Path)
  | removingMarker (path : Path)
  | removing (path : Path)
  | running (program : Path)
  | stated (text : String)
  deriving DecidableEq, Repr

inductive Cause where
  | file (error : FileError)
  /-- a file that is no program -/
  | noProgram
  /-- a program that may not be started -/
  | notPermitted
  /-- an argument or variable that holds the character that ends them -/
  | zeroCharacter
  | stated (text : String)
  deriving DecidableEq, Repr

inductive Error where
  | config (problem : ConfigProblem)
  | manifest (problem : ManifestProblem) (span : Option Span)
  | graph (problem : GraphProblem)
  /-- a component that the verifier needs for the pinned version is not there -/
  | toolchain (component problem pinned : String)
  /-- the verifier refused the crate, or was killed when there is no code -/
  | verification (identity : String) (code : Option Int)
  | io (activity : Activity) (cause : Cause)
  /-- the file of recorded fingerprints cannot be understood -/
  | corruptCache (path : Path)
  deriving DecidableEq, Repr

def ConfigProblem.message : ConfigProblem → String
  | .noSources => "verification unit declares no source files"
  | .foreignEntry entry => s!"entry file {entry.text} is not among the declared sources"
  | .inUnit unit problem => s!"unit '{unit}': {problem.message}"
  | .unknownUnit name => s!"no unit named '{name}'"
  | .unsupportedPlatform name supported =>
      s!"unsupported platform '{name}' (expected one of: " ++ ", ".intercalate supported ++ ")"
  | .stated text => text

/-- A list of names as a choice: two are joined by a word, more are counted off. -/
def choice (names : List String) : String :=
  match names.map fun name => s!"`{name}`" with
  | [first, second] => s!"expected {first} or {second}"
  | quoted => "expected one of " ++ ", ".intercalate quoted

def ManifestProblem.message : ManifestProblem → String
  | .malformed => "the text is not a TOML document"
  | .unknownField name known => s!"unknown field `{name}`, {choice known}"
  | .missingField name => s!"missing field `{name}`"
  | .wrongType found wanted => s!"invalid type: {found}, expected {wanted}"
  | .wrongLength count wanted elements =>
      s!"invalid length {count}, expected {wanted} with {elements} elements"
  | .stated text => text

def GraphProblem.message : GraphProblem → String
  | .repeatedUnit name => s!"unit '{name}' is declared more than once"
  | .unknownDependency unit dependency =>
      s!"unit '{unit}' depends on unknown unit '{dependency}'"
  | .cycle names => "dependency cycle: " ++ " -> ".intercalate names
  | .sharedIdentity earlier later identity =>
      s!"units '{earlier}' and '{later}' both resolve to crate identity '{identity}'"
  | .missingMarker unit dependency =>
      s!"unit '{unit}' cannot start: upstream '{dependency}' has no success marker"
  | .stated text => text

def Activity.message : Activity → String
  | .readingManifest path => s!"failed to read manifest {path.text}"
  | .readingInput path => s!"failed to read input {path.text}"
  | .reading path => s!"failed to read {path.text}"
  | .writing path => s!"failed to write {path.text}"
  | .removingMarker path => s!"failed to remove stale marker {path.text}"
  | .removing path => s!"failed to remove {path.text}"
  | .running program => s!"failed to run {program.text}"
  | .stated text => text

def Cause.message : Cause → String
  | .file error => error.message
  | .noProgram => "Exec format error (os error 8)"
  | .notPermitted => "Permission denied (os error 13)"
  | .zeroCharacter => "nul byte found in provided data"
  | .stated text => text

def exitMessage : Option Int → String
  | some code => s!"verifier exited with code {code}"
  | none => "verifier terminated by signal"

namespace Error

def message : Error → String
  | .config problem => s!"Configuration error: {problem.message}"
  | .manifest problem _ => s!"Manifest error: {problem.message}"
  | .graph problem => s!"Graph error: {problem.message}"
  | .toolchain component problem pinned =>
      s!"Toolchain error: {component}: {problem} (pinned toolchain {pinned})"
  | .verification identity code =>
      s!"Verification failed for crate '{identity}': {exitMessage code}"
  | .io activity cause => s!"IO error: {activity.message}: {cause.message}"
  | .corruptCache path => s!"IO error: corrupt action cache {path.text}"

/-- Errors that stop a run before anything is executed. -/
def isFatal : Error → Bool
  | .config _ | .manifest .. | .graph _ => true
  | _ => false

/-- The exit status of a program that ends with this error. A verifier's own code is passed on. -/
def exitCode : Error → Int
  | .config _ | .manifest .. | .graph _ => 2
  | .verification _ (some code) => if code = 0 then 1 else code
  | _ => 1

def span? : Error → Option Span
  | .manifest _ span => span
  | _ => none

end Error

/-- An answer, or the error in its place. -/
abbrev Outcome (Answer : Type) := Except Error Answer

section Steps
variable {Failure First Last : Type} {first : Except Failure First}
  {next : First → Except Failure Last}

/-- Two steps in a row succeed when both do. -/
theorem bind_eq_ok {last : Last} (ended : (first >>= next) = .ok last) :
    ∃ value, first = .ok value ∧ next value = .ok last := by
  cases first with
  | error failure => cases ended
  | ok value => exact ⟨value, rfl, ended⟩

/-- Two steps in a row fail at the first or after it. -/
theorem bind_eq_error {failure : Failure} (failed : (first >>= next) = .error failure) :
    first = .error failure ∨ ∃ value, first = .ok value ∧ next value = .error failure := by
  cases first with
  | error other =>
      cases failed
      exact .inl rfl
  | ok value => exact .inr ⟨value, rfl, failed⟩

end Steps

/-- The head of an error report on a manifest: one line that names the error, and the place of the text
that is shown with it. -/
structure Diagnostic where
  headline : String
  place : Option Text.Position
  deriving DecidableEq, Repr

namespace Diagnostic

def firstLine (text : String) : String :=
  String.ofList (text.toList.takeWhile (· ≠ '\n'))

/-- Whether the first and the last character of a span lie in a text of this many characters or just past
its end. The numbers of the span are taken as character offsets here. -/
def Shown (span : Span) (characters : Nat) : Prop :=
  span.start ≤ characters ∧ span.stop - 1 ≤ characters

instance (span : Span) (characters : Nat) : Decidable (Shown span characters) :=
  inferInstanceAs (Decidable (_ ∧ _))

def ofError (error : Error) (source : String) : Diagnostic :=
  match error.span? with
  | none => ⟨firstLine s!"Error: {error.message}", none⟩
  | some span =>
      ⟨"Error: Manifest error",
        if Shown span source.length then some (Text.positionAt source span.start) else none⟩

end Diagnostic

end ProofBuild
