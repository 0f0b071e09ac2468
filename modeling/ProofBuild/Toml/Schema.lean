import ProofBuild.Decimal.Shortest
import ProofBuild.Error
import ProofBuild.Text.Quoted
import ProofBuild.Toml.Value

/-!
Records read from TOML values. A schema lists the fields of a record in their order. A table
gives fields by key: its keys are taken in the order of the document, and what is missing is
looked for only after them. An array gives fields by place, and elements past the last field
are not looked at. A misfit carries the place of the value at fault, or else that of the key
that leads to it.
-/

namespace ProofBuild.Toml

/-- A value that does not fit, and where it is if that is known. -/
structure Misfit where
  problem : ManifestProblem
  span : Option Span
  deriving DecidableEq, Repr

abbrev Decoded (Result : Type) := Except Misfit Result

/-- The place to name when the misfit has none of its own. -/
def Misfit.orAt (misfit : Misfit) (span : Span) : Misfit :=
  { misfit with span := misfit.span.or (some span) }

def Value.description : Value → String
  | .string _ text => s!"string {Text.quoted text}"
  | .integer _ value => s!"integer `{value}`"
  | .float _ value => s!"floating point `{value.describe}`"
  | .boolean _ value => s!"boolean `{value}`"
  | .array .. => "sequence"
  | .moment _ | .table .. => "map"

def Value.mismatch (value : Value) (wanted : String) : Misfit :=
  ⟨.wrongType value.description wanted, value.span?⟩

def Value.readText (wanted : String) : Value → Decoded String
  | .string _ text => .ok text
  | value => .error (value.mismatch wanted)

def Value.readString (value : Value) : Decoded String := value.readText "a string"

def Value.readPath (value : Value) : Decoded Path := do
  return ⟨← value.readText "path string"⟩

def Value.readList (read : Value → Decoded Result) : Value → Decoded (List Result)
  | .array _ items => items.mapM read
  | value => .error (value.mismatch "a sequence")

/-- When a field has to be given. -/
inductive Need where
  | always
  /-- only by place: a key may be left out -/
  | byPlace
  | never
  deriving DecidableEq, Repr

structure Field (Record : Type) where
  name : String
  need : Need
  read : Value → Record → Decoded Record

structure Schema (Record : Type) where
  /-- what the record is called in messages -/
  title : String
  /-- the record before any field is read -/
  blank : Record
  fields : List (Field Record)

namespace Schema

variable {Record : Type}

def names (schema : Schema Record) : List String := schema.fields.map (·.name)

def unknown (schema : Schema Record) (name : String) (span : Span) : Misfit :=
  ⟨.unknownField name schema.names, some span⟩

/-- Read the field that a key names. -/
def readKey (schema : Schema Record) (record : Record) (key : Key) (value : Value) :
    Decoded Record :=
  match schema.fields.find? (·.name = key.name) with
  | none => .error (schema.unknown key.name key.span)
  | some field => (field.read value record).mapError (·.orAt key.span)

/-- The first field that a table has to give and does not. -/
def missing? (schema : Schema Record) (given : List (Key × Value)) : Option (Field Record) :=
  schema.fields.find? fun field =>
    field.need = .always ∧ ∀ entry ∈ given, entry.1.name ≠ field.name

def ofTable (schema : Schema Record) (span : Option Span) (given : List (Key × Value)) :
    Decoded Record := do
  let record ← given.foldlM (fun record entry => schema.readKey record entry.1 entry.2) schema.blank
  match schema.missing? given with
  | some field => .error ⟨.missingField field.name, span⟩
  | none => .ok record

/-- Read fields by place, from the field at `place` on. -/
def readPlaces (title : String) (span : Span) (count : Nat) :
    Nat → List (Field Record) → List Value → Record → Decoded Record
  | _, [], _, record => .ok record
  | place, field :: fields, [], record =>
      if field.need = .never then readPlaces title span count (place + 1) fields [] record
      else .error ⟨.wrongLength place title count, some span⟩
  | place, field :: fields, value :: values, record => do
      readPlaces title span count (place + 1) fields values (← field.read value record)

def read (schema : Schema Record) : Value → Decoded Record
  | .table span given => schema.ofTable span given
  | .array span items =>
      readPlaces schema.title span schema.fields.length 0 schema.fields items schema.blank
  | .moment span => .error (schema.unknown momentKey span)
  | value => .error (value.mismatch schema.title)

end Schema

end ProofBuild.Toml
