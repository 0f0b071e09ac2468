import ProofBuild.Error
import ProofBuild.FileTree.Access
import ProofBuild.Json.Reader
import ProofBuild.Table

/-!
Recorded fingerprints: for each unit the one of its last successful run. They decide whether a
marker still stands for the present inputs, and they are kept in a JSON file beside the markers.
Look-ups are counted, but the counts are not kept in the file.
-/

namespace ProofBuild

/-- How often a marker was found current, and how often not. The counts have no upper bound: a
cache is read with both at zero, and a look-up adds one, so a count that no longer fits a machine word
takes more look-ups than a run can make. `since` takes an earlier count of the same cache from a later
one, which is no less. -/
structure Lookups where
  hits : Nat
  misses : Nat
  deriving DecidableEq, Repr, Inhabited

namespace Lookups

def zero : Lookups := ⟨0, 0⟩

/-- The look-ups made after an earlier count. -/
def since (now earlier : Lookups) : Lookups :=
  ⟨now.hits - earlier.hits, now.misses - earlier.misses⟩

def count (lookups : Lookups) (hit : Bool) : Lookups :=
  if hit then { lookups with hits := lookups.hits + 1 }
  else { lookups with misses := lookups.misses + 1 }

end Lookups

structure Cache where
  entries : Table
  lookups : Lookups
  deriving DecidableEq

namespace Cache

def empty : Cache := ⟨.empty, .zero⟩

/-- The file of a directory's recorded fingerprints. -/
def pathIn (directory : Path) : Path := directory.child "action-cache.json"

def entry? (cache : Cache) (unit : String) : Option String := cache.entries.get? unit

def record (cache : Cache) (unit fingerprint : String) : Cache :=
  { cache with entries := cache.entries.insert unit fingerprint }

def invalidate (cache : Cache) (unit : String) : Cache :=
  { cache with entries := cache.entries.erase unit }

/-- Whether a unit's marker is there and was made from this fingerprint. -/
def Fresh (cache : Cache) (tree : FileTree) (unit : String) (marker : Path)
    (fingerprint : String) : Prop :=
  tree.present marker = true ∧ cache.entry? unit = some fingerprint

instance (cache : Cache) (tree : FileTree) (unit : String) (marker : Path)
    (fingerprint : String) : Decidable (cache.Fresh tree unit marker fingerprint) :=
  inferInstanceAs (Decidable (_ ∧ _))

/-- Count one look-up. -/
def counted (cache : Cache) (hit : Bool) : Cache :=
  { cache with lookups := cache.lookups.count hit }

/-- The content of the file. -/
def toJson (cache : Cache) : Json String :=
  .object [("entries", Json.ofTable cache.entries.entries)]

def encode (cache : Cache) : String := cache.toJson.pretty

/-- A literal's text. -/
def textOf? : Json Json.Literal → Option String
  | .string literal => literal
  | _ => none

/-- An object of texts as a table. -/
def tableOf? : Json Json.Literal → Option Table
  | .object fields => do
      let pairs ← fields.mapM fun field => do return (← field.1, ← textOf? field.2)
      return Table.ofList pairs
  | _ => none

/-- The entries in a document: the one field of that name, among others, or the only element of
an array. -/
def entriesOf? : Json Json.Literal → Option Table
  | .object fields =>
      if fields.any (·.1.isNone) then none
      else match fields.filter (·.1 = some "entries") with
        | [field] => tableOf? field.2
        | _ => none
  | .array [entries] => tableOf? entries
  | _ => none

def decode? (text : String) : Option Cache := do
  let document ← Json.read? text
  let entries ← entriesOf? document
  return ⟨entries, .zero⟩

/-- Read the file of a directory; no file is the same as no entries. -/
def load (tree : FileTree) (directory : Path) : Outcome Cache :=
  let path := pathIn directory
  match tree.readText path with
  | .error .notFound => .ok empty
  | .error error => .error (.io (.reading path) (.file error))
  | .ok text =>
      match decode? text with
      | some cache => .ok cache
      | none => .error (.corruptCache path)

/-- Write the file of a directory, which is made when it is missing. -/
def save (cache : Cache) (tree : FileTree) (directory : Path) : FileTree × Outcome Unit :=
  let path := pathIn directory
  match tree.makeDirectories directory with
  | (grown, .error error) => (grown, .error (.io (.writing path) (.file error)))
  | (grown, .ok _) =>
      match grown.write path (Utf8.encode cache.encode) with
      | .error error => (grown, .error (.io (.writing path) (.file error)))
      | .ok written => (written, .ok ())

end Cache

end ProofBuild
