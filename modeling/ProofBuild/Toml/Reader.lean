import ProofBuild.Toml.Draft
import ProofBuild.Toml.Quoted

/-!
Reading a TOML document. A document is a list of lines; each is blank, opens a table, or gives a
key its value. Arrays and inline tables may lie in one another to a depth below eighty, and a
dotted key has fewer than eighty parts. Every reading step returns the place behind what it has
read, or nothing where the text is no TOML.
-/

namespace ProofBuild.Toml

/-- The least depth, and the least number of parts of a key, that is too much. -/
def nestingLimit : Nat := 80

abbrev Step (Result : Type) := Cursor → Option (Result × Cursor)

def isBareKeyChar (c : Char) : Bool := c.isAlphanum || c == '_' || c == '-'

def simpleKey (total : Nat) : Step Key := fun cursor => do
  let (name, next) ← match cursor.ahead with
    | '"' :: _ => (cursor.advance 1).quotedLine? '"'
    | '\'' :: _ => (cursor.advance 1).quotedLine? '\''
    | _ =>
        let (name, next) := cursor.takeWhile isBareKeyChar
        if name.isEmpty then none else some (String.ofList name, next)
  some (⟨name, cursor.spanTo next total⟩, next)

-- Each part of a key takes at least one byte, so `fuel` is the number of bytes left. It is the same
-- with the elements of an array, the fields of an inline table and the lines.
def keyParts (total : Nat) : Nat → Step (List Key)
  | 0, _ => none
  | fuel + 1, cursor => do
      let (key, next) ← simpleKey total cursor.skipBlanks
      let next := next.skipBlanks
      match next.expect? '.' with
      | none => some ([key], next)
      | some inner => do
          let (keys, next) ← keyParts total fuel inner
          some (key :: keys, next)

/-- A dotted key, split into the parts before the last and the last one. -/
def dottedKey (total : Nat) : Step (List Key × Key) := fun cursor => do
  let (keys, next) ← keyParts total (cursor.left + 1) cursor
  if nestingLimit ≤ keys.length then none
  let last ← keys.getLast?
  some ((keys.dropLast, last), next)

def assignment (total : Nat) (value : Step Value) : Step ((List Key × Key) × Value) :=
  fun cursor => do
    let (key, next) ← dottedKey total cursor
    let next ← next.expect? '='
    let (given, next) ← value next.skipBlanks
    some ((key, given), next)

/-- The elements of an array up to and over its closing bracket. -/
def arrayRest (element : Step Value) : Nat → Step (List Value)
  | 0, _ => none
  | fuel + 1, cursor =>
      let here := cursor.skipLines
      match here.expect? ']' with
      | some next => some ([], next)
      | none => do
          let (value, next) ← element here
          let next := next.skipLines
          match next.expect? ',' with
          | some next => do
              let (values, next) ← arrayRest element fuel next
              some (value :: values, next)
          | none => do
              let next ← next.expect? ']'
              some ([value], next)

/-- The fields of an inline table after the first ones, up to and over its closing brace. -/
def inlineRest (total : Nat) (value : Step Value) : Nat → Fields → Step Fields
  | 0, _, _ => none
  | fuel + 1, fields, cursor => do
      let (((path, key), given), next) ← assignment total value cursor
      let fields ← fields.insert path key given
      let next := next.skipBlanks
      match next.expect? ',' with
      | some next => inlineRest total value fuel fields next
      | none => do
          let next ← next.expect? '}'
          some (fields, next)

def inlineFields (total : Nat) (value : Step Value) : Step Fields := fun cursor =>
  match cursor.skipBlanks.expect? '}' with
  | some next => some ([], next)
  | none => inlineRest total value (cursor.left + 1) [] cursor

def Scalar.toValue (span : Span) : Scalar → Value
  | .integer value => .integer span value
  | .float value => .float span value
  | .boolean value => .boolean span value
  | .moment => .moment span

def scalar (total : Nat) : Step Value := fun cursor => do
  let (word, next) := cursor.takeWhile isWordChar
  let read ← Scalar.ofWord? word
  -- After a date, a blank and a time of day belong to the scalar.
  let next :=
    if Scalar.isDate word then
      match next.expect? ' ' with
      | none => next
      | some time =>
          let (word, after) := time.takeWhile isWordChar
          if Scalar.isTimeAfterDate word then after else next
    else next
  some (read.toValue (cursor.spanTo next total), next)

/-- A value; `depth` is how many more containers may lie in one another here. -/
def value (total : Nat) : Nat → Step Value
  | depth, cursor =>
      match cursor.ahead, depth with
      | '"' :: _, _ => do
          let (text, next) ← cursor.quotedText? '"'
          some (.string (cursor.spanTo next total) text, next)
      | '\'' :: _, _ => do
          let (text, next) ← cursor.quotedText? '\''
          some (.string (cursor.spanTo next total) text, next)
      | '[' :: _, depth + 1 => do
          let (items, next) ← arrayRest (value total depth) (cursor.left + 1) (cursor.advance 1)
          some (.array (cursor.spanTo next total) items, next)
      | '{' :: _, depth + 1 => do
          let (fields, next) ← inlineFields total (value total depth) (cursor.advance 1)
          some (.table (some (cursor.spanTo next total)) (Draft.finishFields fields), next)
      | _, _ => scalar total cursor

/-- What the lines so far have made, and the table that the next ones belong to: none for the
root, else its key and the parts before it. -/
structure Reading where
  /-- from the start of the text to the end of the last value that a line gave the root -/
  span : Span
  fields : Fields
  current : Option (List Key × Key)

/-- A line that opens a table or an element of an array of tables. -/
def headerLine (total : Nat) (reading : Reading) : Step Reading := fun cursor => do
  let brackets := if cursor.ahead.take 2 = ['[', '['] then 2 else 1
  let ((path, key), next) ← dottedKey total (cursor.advance brackets)
  if next.ahead.take brackets ≠ List.replicate brackets ']' then none
  let closed := next.advance brackets
  let span := cursor.spanTo closed total
  let fields ← reading.fields.within
    (if brackets = 2 then Fields.openElement key span else Fields.openTable key span) path
  let next ← closed.finishLine?
  some ({ reading with fields, current := some (path, key) }, next)

def assignmentLine (total : Nat) (reading : Reading) : Step Reading := fun cursor => do
  let (((path, key), given), next) ← assignment total (value total (nestingLimit - 1)) cursor
  let (span, fields) ← match reading.current with
    | none => (reading.fields.insert path key given).map (given.reachedFrom reading.span, ·)
    | some (around, table) =>
        (reading.fields.within (Fields.addLine path key given table) around).map (reading.span, ·)
  let next ← next.finishLine?
  some ({ reading with span, fields }, next)

def lines (total : Nat) : Nat → Reading → Cursor → Option Reading
  | 0, _, _ => none
  | fuel + 1, reading, cursor =>
      let here := cursor.skipBlanks
      match here.ahead with
      | [] => some reading
      | '#' :: _ | '\n' :: _ | '\r' :: _ => do lines total fuel reading (← here.finishLine?)
      | '[' :: _ => do
          let (reading, next) ← headerLine total reading here
          lines total fuel reading next
      | _ => do
          let (reading, next) ← assignmentLine total reading here
          lines total fuel reading next

def read? (text : String) : Option Value :=
  let cursor := Cursor.ofText text
  -- A byte order mark at the start is no part of the document.
  let start := match cursor.ahead with
    | '\uFEFF' :: rest => Cursor.after '\uFEFF' rest cursor.left
    | _ => cursor
  (lines cursor.left (cursor.left + 2) ⟨⟨0, 0⟩, [], none⟩ start).map fun reading =>
    .table (some reading.span) (Draft.finishFields reading.fields)

end ProofBuild.Toml
