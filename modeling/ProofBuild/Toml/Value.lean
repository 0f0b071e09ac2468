import ProofBuild.Text.Place
import ProofBuild.Toml.Scalar

/-!
TOML values with the place of each in its text. A table that only dotted keys or the headers of
inner tables speak of has no place of its own. A table whose first key is the reserved one is the
long form of a date or time: it stands for what the key's text writes, and what follows the key is
not looked at. A document in which such a key comes without a date or time is malformed.
-/

namespace ProofBuild.Toml

structure Key where
  name : String
  span : Span
  deriving DecidableEq, Repr

inductive Value where
  | string (span : Span) (text : String)
  | integer (span : Span) (value : Int)
  | float (span : Span) (value : Binary64)
  | boolean (span : Span) (value : Bool)
  /-- a date, a time of day, or both -/
  | moment (span : Span)
  | array (span : Span) (items : List Value)
  | table (span : Option Span) (fields : List (Key × Value))

/-- The place of a value, if it has one of its own. -/
def Value.span? : Value → Option Span
  | .string span _ | .integer span _ | .float span _ | .boolean span _ | .moment span
  | .array span _ => some span
  | .table span _ => span

/-- The place of a table that gets this value in a line of its own: it grows to the value's end. -/
def Value.reachedFrom (value : Value) (table : Span) : Span :=
  match value.span? with
  | none => table
  | some place => table.through place

/-- The key under which a date or time shows what it holds. -/
def momentKey : String := "$__toml_private_datetime"

/-- Whether a text is a date, a time of day, or both with a letter or a blank between them. -/
def Scalar.isMomentText (text : List Char) : Bool :=
  isMoment text || match afterDate? text with
    | some (' ' :: time) => isTimeAfterDate time
    | _ => false

def Value.writesMoment : Value → Bool
  | .string _ text => Scalar.isMomentText text.toList
  | _ => false

mutual

/-- Whether every long form in a value has its date or time. -/
def Value.isLawful : Value → Bool
  | .table _ ((key, first) :: rest) =>
      if key.name = momentKey then first.writesMoment else first.isLawful && fieldsLawful rest
  | .array _ items => itemsLawful items
  | _ => true

def itemsLawful : List Value → Bool
  | [] => true
  | item :: rest => item.isLawful && itemsLawful rest

def fieldsLawful : List (Key × Value) → Bool
  | [] => true
  | (_, value) :: rest => value.isLawful && fieldsLawful rest

end

end ProofBuild.Toml
