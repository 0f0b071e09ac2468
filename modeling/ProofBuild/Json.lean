import ProofBuild.Text.Bytes

/-!
JSON values and their indented form. The type of texts is a parameter: a value to be written
holds plain texts, a value that was read may hold string literals that spell no text.
-/

namespace ProofBuild

inductive Json (Text : Type) where
  | null
  | bool (value : Bool)
  | number (spelling : String)
  | string (text : Text)
  | array (items : List (Json Text))
  | object (fields : List (Text × Json Text))

namespace Json

/-- A character inside a string literal. Quotes, backslashes and the control characters below
the space are escaped, everything else stands for itself. -/
def escape (c : Char) : List Char :=
  if c = '"' then ['\\', '"']
  else if c = '\\' then ['\\', '\\']
  else if c = '\n' then ['\\', 'n']
  else if c = '\r' then ['\\', 'r']
  else if c = '\t' then ['\\', 't']
  else if c = '\x08' then ['\\', 'b']
  else if c = '\x0c' then ['\\', 'f']
  else if c.toNat < 0x20 then
    ['\\', 'u', '0', '0', Text.hexDigit (c.toNat / 16), Text.hexDigit (c.toNat % 16)]
  else [c]

def quote (text : String) : List Char :=
  '"' :: (text.toList.flatMap escape ++ ['"'])

/-- A line end and the indentation of the line after it, two blanks a level. -/
def newline (depth : Nat) : List Char := '\n' :: List.replicate (2 * depth) ' '

mutual

/-- The indented form of a value that stands at the given depth. -/
def render (depth : Nat) : Json String → List Char
  | .null => "null".toList
  | .bool true => "true".toList
  | .bool false => "false".toList
  | .number spelling => spelling.toList
  | .string text => quote text
  | .array [] => ['[', ']']
  | .array (item :: items) =>
      '[' :: (newline (depth + 1) ++ render (depth + 1) item
        ++ renderItems (depth + 1) items ++ newline depth ++ [']'])
  | .object [] => ['{', '}']
  | .object ((key, value) :: fields) =>
      '{' :: (newline (depth + 1) ++ quote key ++ [':', ' '] ++ render (depth + 1) value
        ++ renderFields (depth + 1) fields ++ newline depth ++ ['}'])

/-- The items after the first, each behind its comma. -/
def renderItems (depth : Nat) : List (Json String) → List Char
  | [] => []
  | item :: items => ',' :: (newline depth ++ render depth item ++ renderItems depth items)

/-- The fields after the first, each behind its comma. -/
def renderFields (depth : Nat) : List (String × Json String) → List Char
  | [] => []
  | (key, value) :: fields =>
      ',' :: (newline depth ++ quote key ++ [':', ' '] ++ render depth value
        ++ renderFields depth fields)

end

/-- The indented form of a whole document, without a final line end. -/
def pretty (value : Json String) : String := String.ofList (render 0 value)

def ofTable (pairs : List (String × String)) : Json String :=
  .object (pairs.map fun pair => (pair.1, .string pair.2))

def ofTexts (texts : List String) : Json String := .array (texts.map .string)

end Json

end ProofBuild
