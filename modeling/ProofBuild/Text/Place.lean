/-!
Places in a text, by bytes and by characters. A span is a range of bytes. Lines and columns are
counted in characters: a line ends after a line feed, a carriage return, a vertical tab, a form
feed, a next line character or one of the two Unicode separators; a carriage return with the line
feed after it is one end. A text that ends in a line end has no further empty line, and the empty
text has one line.
-/

namespace ProofBuild

/-- The bytes from `start` up to but not at `stop`. -/
structure Span where
  start : Nat
  stop : Nat
  deriving DecidableEq, Repr, Inhabited

def Span.through (first last : Span) : Span := ⟨first.start, last.stop⟩

namespace Text

def isLineEnd (c : Char) : Bool :=
  c == '\n' || c == '\r' || c == '\x0b' || c == '\x0c' || c == '\u0085' || c == '\u2028'
    || c == '\u2029'

/-- One-based line and column. -/
structure Position where
  line : Nat
  column : Nat
  deriving DecidableEq, Repr

/-- The position reached by `offset` steps from `here`. A line end that closes the text opens
no line, so the offset just past it is still on its line. -/
def Position.walk : List Char → Nat → Position → Position
  | _, 0, here => here
  | [], offset + 1, here => ⟨here.line, here.column + (offset + 1)⟩
  | c :: rest, offset + 1, here =>
      let closes := isLineEnd c && !(c == '\r' && rest.head? == some '\n') && !rest.isEmpty
      walk rest offset (if closes then ⟨here.line + 1, 1⟩ else ⟨here.line, here.column + 1⟩)

/-- The position of the character at `offset`, for offsets up to the length of the text. -/
def positionAt (text : String) (offset : Nat) : Position :=
  Position.walk text.toList offset ⟨1, 1⟩

end Text

end ProofBuild
