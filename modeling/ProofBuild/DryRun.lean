import ProofBuild.Invocation
import ProofBuild.Json

/-!
Everything about the task of a crate without running it, and its JSON form: the invocation, what
the task reads and writes, and the bundle.
-/

namespace ProofBuild

def Path.listJson (paths : List Path) : Json String := Json.ofTexts (paths.map (·.text))

def LibraryKind.name : LibraryKind → String
  | .compiled => "Extern"
  | .summary => "Import"

def Library.toJson (library : Library) : Json String :=
  .object [
    ("name", .string library.name),
    ("path", .string library.path.text),
    ("kind", .string library.kind.name)]

def Bundle.toJson (bundle : Bundle) : Json String :=
  .object [
    ("verifier", .string bundle.verifier.text),
    ("solver", .string bundle.solver.text),
    ("libraries", .array (bundle.libraries.map Library.toJson)),
    ("toolchain_version", .string bundle.version),
    ("platform", .string bundle.platform.name)]

def Invocation.toJson (invocation : Invocation) : Json String :=
  .object [
    ("program", .string invocation.program.text),
    ("args", Json.ofTexts invocation.arguments),
    ("env", Json.ofTable invocation.settings.entries)]

def Requirements.toJson (requirements : Requirements) : Json String :=
  .object [
    ("no_sandbox", .bool requirements.unsandboxed),
    ("local", .bool requirements.onMachine)]

def Declaration.toJson (declaration : Declaration) : Json String :=
  .object [
    ("mnemonic", .string declaration.mnemonic),
    ("inputs", Path.listJson declaration.inputs),
    ("outputs", Path.listJson declaration.outputs),
    ("requirements", declaration.requirements.toJson)]

/-- The task of a crate as it would be run. -/
structure DryRun where
  crate : Crate
  invocation : Invocation
  declaration : Declaration
  bundle : Bundle

namespace DryRun

def toJson (dryRun : DryRun) : Json String :=
  .object [
    ("unit", .string dryRun.crate.name),
    ("identity", .string dryRun.crate.identity),
    ("invocation", dryRun.invocation.toJson),
    ("declaration", dryRun.declaration.toJson),
    ("bundle", dryRun.bundle.toJson)]

/-- The program and its arguments, one a line. -/
def commandLines (dryRun : DryRun) : String :=
  String.join ((dryRun.invocation.program.text :: dryRun.invocation.arguments).map (· ++ "\n"))

end DryRun

end ProofBuild
