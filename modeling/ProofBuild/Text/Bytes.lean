/-!
Texts as bytes, and digits for them. A text is written in UTF-8; bytes are read back either
strictly, where an ill-formed sequence is no text at all, or leniently, where every maximal
ill-formed piece of a sequence reads as one replacement character. Hexadecimal digits are written
in small letters and read in either case.
-/

namespace ProofBuild

namespace Text

def hexDigit (value : Nat) : Char :=
  if value < 10 then Char.ofNat (48 + value) else Char.ofNat (87 + value)

def hexValue? (c : Char) : Option Nat :=
  if c.isDigit then some (c.toNat - 48)
  else if 'a' ≤ c ∧ c ≤ 'f' then some (c.toNat - 87)
  else if 'A' ≤ c ∧ c ≤ 'F' then some (c.toNat - 55)
  else none

/-- A digit reads back as its value. -/
theorem hexValue?_hexDigit : ∀ value, value < 16 → hexValue? (hexDigit value) = some value := by
  decide

end Text

abbrev Bytes := List UInt8

namespace Utf8

def encode (text : String) : Bytes := text.toByteArray.data.toList

/-- The text these bytes spell, if they are well formed. -/
def decode? (bytes : Bytes) : Option String := String.fromUTF8? ⟨bytes.toArray⟩

def replacement : Char := '\uFFFD'

/-- Between two characters, or inside one that still owes continuation bytes. -/
inductive Progress where
  | between
  | owing (code : Nat) (count : Nat) (low high : Nat)

/-- Read the first byte of a character. The second byte of some characters has a narrower range
than the others, which rules out overlong forms, surrogates and codes past the last one. -/
def opening (byte : Nat) : List Char × Progress :=
  if byte < 0x80 then ([Char.ofNat byte], .between)
  else if 0xC2 ≤ byte ∧ byte ≤ 0xDF then ([], .owing (byte - 0xC0) 1 0x80 0xBF)
  else if byte = 0xE0 then ([], .owing 0 2 0xA0 0xBF)
  else if byte = 0xED then ([], .owing 0xD 2 0x80 0x9F)
  else if 0xE1 ≤ byte ∧ byte ≤ 0xEF then ([], .owing (byte - 0xE0) 2 0x80 0xBF)
  else if byte = 0xF0 then ([], .owing 0 3 0x90 0xBF)
  else if 0xF1 ≤ byte ∧ byte ≤ 0xF3 then ([], .owing (byte - 0xF0) 3 0x80 0xBF)
  else if byte = 0xF4 then ([], .owing 4 3 0x80 0x8F)
  else ([replacement], .between)

/-- Read one more byte. A byte that does not continue the open character ends it as ill formed
and is itself read as an opening. -/
def advance (progress : Progress) (byte : Nat) : List Char × Progress :=
  match progress with
  | .between => opening byte
  | .owing code count low high =>
      if low ≤ byte ∧ byte ≤ high then
        let grown := code * 64 + (byte - 0x80)
        if count = 1 then ([Char.ofNat grown], .between)
        else ([], .owing grown (count - 1) 0x80 0xBF)
      else
        let next := opening byte
        (replacement :: next.1, next.2)

def scan : Progress → Bytes → List Char
  | .between, [] => []
  | .owing .., [] => [replacement]
  | progress, byte :: rest =>
      let next := advance progress byte.toNat
      next.1 ++ scan next.2 rest

/-- Read bytes as text, with a replacement character for each ill-formed piece. -/
def decodeLossy (bytes : Bytes) : String := String.ofList (scan .between bytes)

end Utf8

end ProofBuild
