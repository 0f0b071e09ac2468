import ProofBuild.Text.Place

/-!
A place in a text that is being read: the characters ahead and how many bytes they take.
Offsets are counted back from the end of the text, so no offset lies past it.
-/

namespace ProofBuild.Toml

structure Cursor where
  ahead : List Char
  left : Nat

namespace Cursor

def ofText (text : String) : Cursor := ⟨text.toList, text.utf8ByteSize⟩

/-- The byte offset of a place in a text of `total` bytes. -/
def offset (cursor : Cursor) (total : Nat) : Nat := total - cursor.left

def spanTo (start stop : Cursor) (total : Nat) : Span := ⟨start.offset total, stop.offset total⟩

def after (c : Char) (rest : List Char) (left : Nat) : Cursor := ⟨rest, left - c.utf8Size⟩

/-- The characters up to the first one outside a class, and the place of that one. -/
def takeWhile (inClass : Char → Bool) (cursor : Cursor) : List Char × Cursor :=
  go cursor.ahead cursor.left
where
  go : List Char → Nat → List Char × Cursor
    | [], left => ([], ⟨[], left⟩)
    | c :: rest, left =>
        if inClass c then
          let more := go rest (left - c.utf8Size)
          (c :: more.1, more.2)
        else ([], ⟨c :: rest, left⟩)

def expect? (cursor : Cursor) (c : Char) : Option Cursor :=
  match cursor.ahead with
  | [] => none
  | first :: rest => if first = c then some (after c rest cursor.left) else none

def skipBlanks (cursor : Cursor) : Cursor :=
  (cursor.takeWhile fun c => c == ' ' || c == '\t').2

/-- Characters of comments and of quoted texts: everything but control characters, with the tab
among them. -/
def isPrintable (c : Char) : Bool := c == '\t' || (0x20 ≤ c.toNat && c.toNat != 0x7F)

def skipComment (cursor : Cursor) : Cursor :=
  match cursor.ahead with
  | '#' :: _ => (cursor.takeWhile isPrintable).2
  | _ => cursor

/-- Step over the end of a line, which may also be the end of the text. -/
def lineEnd? (cursor : Cursor) : Option Cursor :=
  match cursor.ahead with
  | [] => some cursor
  | '\n' :: rest => some ⟨rest, cursor.left - 1⟩
  | '\r' :: '\n' :: rest => some ⟨rest, cursor.left - 2⟩
  | _ => none

def finishLine? (cursor : Cursor) : Option Cursor := cursor.skipBlanks.skipComment.lineEnd?

/-- Step over blanks, line ends and comments. -/
def skipLines (cursor : Cursor) : Cursor := go false cursor.ahead cursor.left
where
  go : Bool → List Char → Nat → Cursor
    | _, [], left => ⟨[], left⟩
    | _, '\n' :: rest, left => go false rest (left - 1)
    | inComment, '\r' :: rest, left =>
        if rest.head? = some '\n' then go inComment rest (left - 1) else ⟨'\r' :: rest, left⟩
    | true, c :: rest, left =>
        if isPrintable c then go true rest (left - c.utf8Size) else ⟨c :: rest, left⟩
    | false, c :: rest, left =>
        if c = ' ' ∨ c = '\t' then go false rest (left - 1)
        else if c = '#' then go true rest (left - 1)
        else ⟨c :: rest, left⟩

end Cursor

end ProofBuild.Toml
