import ProofBuild.FileTree.Access
import ProofBuild.Platform
import ProofBuild.Spec
import ProofBuild.Toml.Reader
import ProofBuild.Toml.Schema

/-!
The manifest of a workspace: which toolchain verifies it, and which units it has. It is a TOML
document with a `toolchain` table and an array of `unit` tables; nothing else may stand in it.
Paths in a manifest file are read from the directory of the file.
-/

namespace ProofBuild

structure ToolchainChoice where
  /-- the directory of the unpacked release -/
  path : Path
  version : String
  /-- a platform by name; this machine's when absent -/
  platform : Option String
  edition : String
  deriving DecidableEq, Repr

structure Manifest where
  toolchain : ToolchainChoice
  units : List Spec
  deriving DecidableEq, Repr

namespace Manifest

def fileName : String := "verdag.toml"

def defaultEdition : String := "2021"

def toolchainSchema : Toml.Schema ToolchainChoice where
  title := "struct ToolchainConfig"
  blank := ⟨⟨""⟩, "", none, defaultEdition⟩
  fields := [
    ⟨"path", .always, fun value choice => do return { choice with path := ← value.readPath }⟩,
    ⟨"version", .always, fun value choice => do
      return { choice with version := ← value.readString }⟩,
    ⟨"platform", .byPlace, fun value choice => do
      return { choice with platform := some (← value.readString) }⟩,
    ⟨"edition", .never, fun value choice => do
      return { choice with edition := ← value.readString }⟩]

def unitSchema : Toml.Schema Spec where
  title := "struct UnitConfig"
  blank := ⟨"", [], none, none, [], []⟩
  fields := [
    ⟨"name", .always, fun value spec => do return { spec with name := ← value.readString }⟩,
    ⟨"srcs", .never, fun value spec => do
      return { spec with sources := ← value.readList Toml.Value.readPath }⟩,
    ⟨"crate_root", .byPlace, fun value spec => do
      return { spec with entry := some (← value.readPath) }⟩,
    ⟨"crate_name", .byPlace, fun value spec => do
      return { spec with identity := some (← value.readString) }⟩,
    ⟨"deps", .never, fun value spec => do
      return { spec with dependencies := ← value.readList Toml.Value.readString }⟩,
    ⟨"extra_args", .never, fun value spec => do
      return { spec with extraArguments := ← value.readList Toml.Value.readString }⟩]

def schema : Toml.Schema Manifest where
  title := "struct Manifest"
  blank := ⟨toolchainSchema.blank, []⟩
  fields := [
    ⟨"toolchain", .always, fun value manifest => do
      return { manifest with toolchain := ← toolchainSchema.read value }⟩,
    ⟨"unit", .never, fun value manifest => do
      return { manifest with units := ← value.readList unitSchema.read }⟩]

def ofDocument (document : Toml.Value) : Toml.Decoded Manifest := schema.read document

/-- A text that is no TOML document is at fault as a whole. -/
def malformed (source : String) : Error := .manifest .malformed (some ⟨0, source.utf8ByteSize⟩)

/-- The manifest that a text writes. A document that fits is not asked whether the parts that no
field takes are lawful. -/
def parse (source : String) : Outcome Manifest :=
  match Toml.read? source with
  | none => .error (malformed source)
  | some document =>
      (ofDocument document).mapError fun misfit =>
        if document.isLawful then .manifest misfit.problem misfit.span else malformed source

/-- Read a path from within a directory when it is relative. -/
def rebase (base path : Path) : Path := if path.isRelative then base.join path else path

def resolvePaths (manifest : Manifest) (base : Path) : Manifest where
  toolchain := { manifest.toolchain with path := rebase base manifest.toolchain.path }
  units := manifest.units.map fun unit =>
    { unit with sources := unit.sources.map (rebase base), entry := unit.entry.map (rebase base) }

/-- Read a manifest file. Gives its text too. -/
def load (tree : FileTree) (path : Path) : Outcome (Manifest × String) :=
  match tree.readText path with
  | .error error => .error (.io (.readingManifest path) (.file error))
  | .ok source => do
      let manifest ← parse source
      return (manifest.resolvePaths path.directory, source)

/-- The platform that is named, else the given one. -/
def platform (manifest : Manifest) (host : Platform) : Outcome Platform :=
  match manifest.toolchain.platform with
  | some name => Platform.ofName name
  | none => .ok host

end Manifest

end ProofBuild
