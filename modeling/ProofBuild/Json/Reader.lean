import ProofBuild.Json

/-!
Reading JSON one character at a time. The reader is a machine with a stack of the containers
that are open; a text is a document when the machine, run over all its characters, ends with
exactly one value. A string literal reads as the characters it spells, or as no text when an
escape names half of a surrogate pair without its other half.
-/

namespace ProofBuild.Json

/-- A string literal's text; none when its escapes spell no characters. -/
abbrev Literal := Option String

/-- The text of a list of codes. A leading surrogate joins with the trailing one after it. -/
def textOfCodes : List Nat → Option (List Char)
  | [] => some []
  | high :: low :: rest =>
      if 0xD800 ≤ high ∧ high ≤ 0xDBFF then
        if 0xDC00 ≤ low ∧ low ≤ 0xDFFF then
          (textOfCodes rest).map
            (Char.ofNat (0x10000 + (high - 0xD800) * 0x400 + (low - 0xDC00)) :: ·)
        else none
      else if 0xDC00 ≤ high ∧ high ≤ 0xDFFF then none
      else (textOfCodes (low :: rest)).map (Char.ofNat high :: ·)
  | [code] => if 0xD800 ≤ code ∧ code ≤ 0xDFFF then none else some [Char.ofNat code]

/-- A container whose end has not been read; its parts are kept last first. -/
inductive Open where
  | array (items : List (Json Literal))
  | object (fields : List (Literal × Json Literal)) (key : Literal)

inductive NumberPart where
  | sign
  | zero
  | digits
  | point
  | fraction
  | exponent
  | exponentSign
  | exponentDigits
  deriving DecidableEq

inductive StringPart where
  | plain
  | escaped
  | code (digits : Nat) (value : Nat)

/-- What the machine is reading. -/
inductive Focus where
  /-- a value must start -/
  | value
  /-- after an opening bracket: a value or the closing bracket -/
  | firstItem
  /-- after an opening brace: a key or the closing brace -/
  | firstKey (fields : List (Literal × Json Literal))
  /-- after a comma between fields: a key -/
  | nextKey (fields : List (Literal × Json Literal))
  | colon (fields : List (Literal × Json Literal)) (key : Literal)
  /-- a value has just ended -/
  | after (value : Json Literal)
  /-- a string literal; `fields` is given when it is a key -/
  | string (fields : Option (List (Literal × Json Literal))) (codes : List Nat) (part : StringPart)
  | number (spelling : List Char) (part : NumberPart)
  /-- the rest of a word and the value it stands for -/
  | word (rest : List Char) (value : Json Literal)

structure Machine where
  stack : List Open
  focus : Focus

def start : Machine := ⟨[], .value⟩

def isSpace (c : Char) : Bool := c == ' ' || c == '\t' || c == '\n' || c == '\r'

/-- The character that a one-letter escape stands for. -/
def escapeValue? (c : Char) : Option Nat :=
  match c with
  | '"' => some 0x22
  | '\\' => some 0x5C
  | '/' => some 0x2F
  | 'b' => some 0x08
  | 'f' => some 0x0C
  | 'n' => some 0x0A
  | 'r' => some 0x0D
  | 't' => some 0x09
  | _ => none

def NumberPart.complete : NumberPart → Bool
  | .zero | .digits | .fraction | .exponentDigits => true
  | .sign | .point | .exponent | .exponentSign => false

/-- The next part of a number, when the character continues it. -/
def NumberPart.next? (part : NumberPart) (c : Char) : Option NumberPart :=
  match part with
  | .sign => if c = '0' then some .zero else if c.isDigit then some .digits else none
  | .zero => fractionOrExponent c
  | .digits => if c.isDigit then some .digits else fractionOrExponent c
  | .point => if c.isDigit then some .fraction else none
  | .fraction =>
      if c.isDigit then some .fraction
      else if c = 'e' ∨ c = 'E' then some .exponent else none
  | .exponent =>
      if c = '+' ∨ c = '-' then some .exponentSign
      else if c.isDigit then some .exponentDigits else none
  | .exponentSign => if c.isDigit then some .exponentDigits else none
  | .exponentDigits => if c.isDigit then some .exponentDigits else none
where
  fractionOrExponent (c : Char) : Option NumberPart :=
    if c = '.' then some .point else if c = 'e' ∨ c = 'E' then some .exponent else none

def beginValue (stack : List Open) (c : Char) : Option Machine :=
  if c = '"' then some ⟨stack, .string none [] .plain⟩
  else if c = '[' then some ⟨.array [] :: stack, .firstItem⟩
  else if c = '{' then some ⟨stack, .firstKey []⟩
  else if c = 'n' then some ⟨stack, .word "ull".toList .null⟩
  else if c = 't' then some ⟨stack, .word "rue".toList (.bool true)⟩
  else if c = 'f' then some ⟨stack, .word "alse".toList (.bool false)⟩
  else if c = '-' then some ⟨stack, .number [c] .sign⟩
  else if c = '0' then some ⟨stack, .number [c] .zero⟩
  else if c.isDigit then some ⟨stack, .number [c] .digits⟩
  else none

/-- Read the character after a value: it goes on to the next part of the innermost container or
closes it. -/
def continueAfter (stack : List Open) (value : Json Literal) (c : Char) : Option Machine :=
  if isSpace c then some ⟨stack, .after value⟩
  else match stack with
    | [] => none
    | .array items :: outer =>
        if c = ',' then some ⟨.array (value :: items) :: outer, .value⟩
        else if c = ']' then some ⟨outer, .after (.array (value :: items).reverse)⟩
        else none
    | .object fields key :: outer =>
        if c = ',' then some ⟨outer, .nextKey ((key, value) :: fields)⟩
        else if c = '}' then some ⟨outer, .after (.object ((key, value) :: fields).reverse)⟩
        else none

def stepString (stack : List Open) (fields : Option (List (Literal × Json Literal)))
    (codes : List Nat) (part : StringPart) (c : Char) : Option Machine :=
  match part with
  | .plain =>
      if c = '"' then
        let text : Literal := (textOfCodes codes.reverse).map String.ofList
        match fields with
        | none => some ⟨stack, .after (.string text)⟩
        | some done => some ⟨stack, .colon done text⟩
      else if c = '\\' then some ⟨stack, .string fields codes .escaped⟩
      else if c.toNat < 0x20 then none
      else some ⟨stack, .string fields (c.toNat :: codes) .plain⟩
  | .escaped =>
      if c = 'u' then some ⟨stack, .string fields codes (.code 4 0)⟩
      else (escapeValue? c).map fun code => ⟨stack, .string fields (code :: codes) .plain⟩
  | .code digits value =>
      (Text.hexValue? c).map fun digit =>
        let grown := value * 16 + digit
        if digits ≤ 1 then ⟨stack, .string fields (grown :: codes) .plain⟩
        else ⟨stack, .string fields codes (.code (digits - 1) grown)⟩

def step (machine : Machine) (c : Char) : Option Machine :=
  let stack := machine.stack
  match machine.focus with
  | .value => if isSpace c then some machine else beginValue stack c
  | .firstItem =>
      if isSpace c then some machine
      else if c = ']' then
        match stack with
        | .array items :: outer => some ⟨outer, .after (.array items)⟩
        | _ => none
      else beginValue stack c
  | .firstKey fields =>
      if isSpace c then some machine
      else if c = '"' then some ⟨stack, .string (some fields) [] .plain⟩
      else if c = '}' then some ⟨stack, .after (.object [])⟩
      else none
  | .nextKey fields =>
      if isSpace c then some machine
      else if c = '"' then some ⟨stack, .string (some fields) [] .plain⟩
      else none
  | .colon fields key =>
      if isSpace c then some machine
      else if c = ':' then some ⟨.object fields key :: stack, .value⟩
      else none
  | .after value => continueAfter stack value c
  | .string fields codes part => stepString stack fields codes part c
  | .number spelling part =>
      match part.next? c with
      | some next => some ⟨stack, .number (c :: spelling) next⟩
      | none =>
          if part.complete then
            continueAfter stack (.number (String.ofList spelling.reverse)) c
          else none
  | .word rest value =>
      match rest with
      | [] => none
      | [last] => if c = last then some ⟨stack, .after value⟩ else none
      | next :: more => if c = next then some ⟨stack, .word more value⟩ else none

def run : Machine → List Char → Option Machine
  | machine, [] => some machine
  | machine, c :: rest =>
      match step machine c with
      | none => none
      | some next => run next rest

/-- The value of a machine that has read a whole document. -/
def finish (machine : Machine) : Option (Json Literal) :=
  match machine.stack, machine.focus with
  | [], .after value => some value
  | [], .number spelling part =>
      if part.complete then some (.number (String.ofList spelling.reverse)) else none
  | _, _ => none

/-- Read a text that is one JSON value with blanks around it. -/
def read? (text : String) : Option (Json Literal) :=
  (run start text.toList).bind finish

end ProofBuild.Json
