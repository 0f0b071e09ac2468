import ProofBuild.Toml.Value

/-!
A document while its lines are read. A table is opened by a header of its own, implied by the
header of a table inside it, or made by dotted keys; which of these it is decides what later
lines may add to it. A table has the place in the order where its own header is, or else the one
of its first mention.
-/

namespace ProofBuild.Toml

inductive Origin where
  /-- opened by a header, which lies with its lines at a place of the text -/
  | header (span : Span)
  | implied
  | dotted
  deriving DecidableEq

inductive Draft where
  | value (value : Value)
  | table (origin : Origin) (fields : List (Key × Draft))
  /-- the elements of an array of tables, last first -/
  | tables (elements : List (Span × List (Key × Draft)))

/-- The fields of a table while it is read, in their order. -/
abbrev Fields := List (Key × Draft)

namespace Fields

/-- Change the field of a name, or put a new one at the end. The change sees what the field
holds, and it may refuse. -/
def alter (key : Key) (change : Option Draft → Option Draft) : Fields → Option Fields
  | [] => (change none).map fun draft => [(key, draft)]
  | field :: rest =>
      if field.1.name = key.name then (change (some field.2)).map fun draft => (field.1, draft) :: rest
      else (alter key change rest).map (field :: ·)

/-- A new value under a dotted key. Tables on the way that have a header of their own refuse it,
and so does a table that no dotted key has made when it would take the value itself. -/
def insert : List Key → Key → Value → Fields → Option Fields
  | [], key, value => alter key fun
      | none => some (.value value)
      | some _ => none
  | step :: path, key, value => alter step fun
      | none => (insert path key value []).map (.table .dotted)
      | some (.value _) | some (.table (.header _) _) => none
      | some (.table .implied fields) =>
          if path = [] then none else (insert path key value fields).map (.table .implied)
      | some (.table .dotted fields) => (insert path key value fields).map (.table .dotted)
      | some (.tables []) => none
      | some (.tables ((span, fields) :: before)) =>
          if path = [] then none
          else (insert path key value fields).map fun grown => .tables ((span, grown) :: before)

/-- Make a change in the table that a path of keys leads to. Tables that are missing on the way
are implied, and an array of tables stands for its last element. -/
def within (change : Fields → Option Fields) : List Key → Fields → Option Fields
  | [], fields => change fields
  | step :: path, fields => alter step (fun
      | none => (within change path []).map (.table .implied)
      | some (.value _) => none
      | some (.table origin fields) => (within change path fields).map (.table origin)
      | some (.tables []) => none
      | some (.tables ((span, fields) :: before)) =>
          (within change path fields).map fun grown => .tables ((span, grown) :: before)) fields

/-- Open a table by its header. It may have been implied before, and nothing else; then it keeps
what it holds, but the header is the mention that counts, so it goes to the end. -/
def openTable (key : Key) (span : Span) (fields : Fields) : Option Fields :=
  match fields.find? fun field => field.1.name = key.name with
  | none => some (fields ++ [(key, .table (.header span) [])])
  | some (_, .table .implied held) =>
      some ((fields.eraseP fun field => field.1.name = key.name)
        ++ [(key, .table (.header span) held)])
  | some _ => none

/-- Open the next element of an array of tables. -/
def openElement (key : Key) (span : Span) : Fields → Option Fields :=
  alter key fun
    | none => some (.tables [(span, [])])
    | some (.tables elements) => some (.tables ((span, []) :: elements))
    | some _ => none

/-- Add a line to the open table. The place of the table grows to the end of the line's value. -/
def addLine (path : List Key) (key : Key) (value : Value) (table : Key) : Fields → Option Fields :=
  alter table fun
    | some (.table (.header span) fields) =>
        (insert path key value fields).map (.table (.header (value.reachedFrom span)))
    | some (.tables ((span, fields) :: before)) =>
        (insert path key value fields).map fun grown => .tables ((value.reachedFrom span, grown) :: before)
    | _ => none

end Fields

mutual

def Draft.finish : Draft → Value
  | .value held => held
  | .table (.header span) fields => .table (some span) (Draft.finishFields fields)
  | .table .implied fields | .table .dotted fields => .table none (Draft.finishFields fields)
  | .tables elements =>
      let span := match elements.getLast?, elements.head? with
        | some first, some last => first.1.through last.1
        | _, _ => ⟨0, 0⟩
      .array span (Draft.finishElements elements).reverse

def Draft.finishFields : List (Key × Draft) → List (Key × Value)
  | [] => []
  | (key, draft) :: rest => (key, draft.finish) :: Draft.finishFields rest

def Draft.finishElements : List (Span × List (Key × Draft)) → List Value
  | [] => []
  | (span, fields) :: rest =>
      .table (some span) (Draft.finishFields fields) :: Draft.finishElements rest

end

end ProofBuild.Toml
