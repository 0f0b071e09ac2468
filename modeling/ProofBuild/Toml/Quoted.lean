import ProofBuild.Text.Bytes
import ProofBuild.Toml.Cursor

/-!
Quoted texts of TOML. A basic text stands in double quotes and knows escapes, a literal one
stands in single quotes and knows none; each also has a form over several lines in three quotes.
Over several lines the first line end is dropped, every line end reads as a line feed, and up to
two quotes may stand before the closing three.
-/

namespace ProofBuild.Toml

namespace Cursor

def charOfCode? (code : Nat) : Option Char :=
  if code.isValidChar then some (Char.ofNat code) else none

/-- Exactly `count` hexadecimal digits as a number. -/
def code? : Nat → Nat → Cursor → Option (Nat × Cursor)
  | 0, value, cursor => some (value, cursor)
  | count + 1, value, cursor =>
      match cursor.ahead with
      | [] => none
      | c :: rest => do
          let digit ← Text.hexValue? c
          code? count (value * 16 + digit) (after c rest cursor.left)

/-- The character that a one-letter escape stands for. -/
def shortEscape? (c : Char) : Option Char :=
  match c with
  | 'b' => some '\x08'
  | 't' => some '\t'
  | 'n' => some '\n'
  | 'f' => some '\x0c'
  | 'r' => some '\r'
  | '"' => some '"'
  | '\\' => some '\\'
  | _ => none

/-- The character that an escape stands for, read from behind its backslash. -/
def escape? (cursor : Cursor) : Option (Char × Cursor) :=
  match cursor.ahead with
  | [] => none
  | c :: rest =>
      let next := after c rest cursor.left
      if c = 'u' ∨ c = 'U' then do
        let (code, next) ← code? (if c = 'u' then 4 else 8) 0 next
        let decoded ← charOfCode? code
        some (decoded, next)
      else do
        let decoded ← shortEscape? c
        some (decoded, next)

def skipBlankLines (cursor : Cursor) : Cursor := go cursor.ahead cursor.left
where
  go : List Char → Nat → Cursor
    | [], left => ⟨[], left⟩
    | '\r' :: '\n' :: rest, left => go rest (left - 2)
    | c :: rest, left =>
        if c = ' ' ∨ c = '\t' ∨ c = '\n' then go rest (left - 1) else ⟨c :: rest, left⟩

/-- Step over a backslash at the end of a line, the line end and the blank lines after it. -/
def joinedLine? (cursor : Cursor) : Option Cursor :=
  match cursor.ahead with
  | '\n' :: _ | '\r' :: '\n' :: _ => some cursor.skipBlankLines
  | _ => none

/-- How many of these characters are the given one before another comes. -/
def countQuotes (quote : Char) (characters : List Char) : Nat :=
  (characters.takeWhile (· == quote)).length

def advance (count : Nat) (cursor : Cursor) : Cursor :=
  ⟨cursor.ahead.drop count, cursor.left - count⟩

/-- The rest of a text on one line, up to and over its closing quote. Each step takes at least one
byte, so `fuel` is the number of bytes left. -/
def lineText (quote : Char) (escapes : Bool) :
    Nat → Cursor → Option (List Char × Cursor)
  | 0, _ => none
  | fuel + 1, cursor =>
      match cursor.ahead with
      | [] => none
      | c :: rest =>
          let next := after c rest cursor.left
          if c = quote then some ([], next)
          else if escapes = true ∧ c = '\\' then do
            let (decoded, next) ← next.escape?
            let (text, next) ← lineText quote escapes fuel next
            some (decoded :: text, next)
          else if isPrintable c then do
            let (text, next) ← lineText quote escapes fuel next
            some (c :: text, next)
          else none

/-- The rest of a text over several lines, up to and over its three closing quotes. -/
def blockText (quote : Char) (escapes : Bool) :
    Nat → Cursor → Option (List Char × Cursor)
  | 0, _ => none
  | fuel + 1, cursor =>
      match cursor.ahead with
      | [] => none
      | '\r' :: '\n' :: rest => do
          let (text, next) ← blockText quote escapes fuel ⟨rest, cursor.left - 2⟩
          some ('\n' :: text, next)
      | c :: rest =>
          let next := after c rest cursor.left
          if c = quote then
            let run := countQuotes quote cursor.ahead
            if run < 3 then do
              let (text, next) ← blockText quote escapes fuel next
              some (c :: text, next)
            else
              let kept := min (run - 3) 2
              some (List.replicate kept quote, cursor.advance (kept + 3))
          else if escapes = true ∧ c = '\\' then
            match next.skipBlanks.joinedLine? with
            | some joined => blockText quote escapes fuel joined
            | none => do
                let (decoded, next) ← next.escape?
                let (text, next) ← blockText quote escapes fuel next
                some (decoded :: text, next)
          else if c = '\n' ∨ isPrintable c = true then do
            let (text, next) ← blockText quote escapes fuel next
            some (c :: text, next)
          else none

/-- A text on one line, read from behind its opening quote. -/
def quotedLine? (quote : Char) (cursor : Cursor) : Option (String × Cursor) := do
  let (text, next) ← lineText quote (quote = '"') (cursor.left + 1) cursor
  some (String.ofList text, next)

/-- A quoted text of either form, read from its first quote. -/
def quotedText? (quote : Char) (cursor : Cursor) : Option (String × Cursor) :=
  if countQuotes quote cursor.ahead < 3 then quotedLine? quote (cursor.advance 1)
  else do
    let inside := cursor.advance 3
    let opened := match inside.ahead with
      | '\n' :: _ | '\r' :: '\n' :: _ => (inside.lineEnd?).getD inside
      | _ => inside
    let (text, next) ← blockText quote (quote = '"') (opened.left + 1) opened
    some (String.ofList text, next)

end Cursor

end ProofBuild.Toml
