import ProofBuild.Decimal.Binary64
import ProofBuild.Text.Bytes

/-!
The unquoted scalars of TOML: booleans, integers, floating point numbers, dates and times. Each
is one word of letters, digits and a few signs, so a word is classified as a whole; only a time
of day may follow its date after a blank.
-/

namespace ProofBuild.Toml

def isWordChar (c : Char) : Bool :=
  c.isAlphanum || c == '_' || c == '+' || c == '-' || c == '.' || c == ':'

inductive Scalar where
  | integer (value : Int)
  | float (value : Binary64)
  | boolean (value : Bool)
  /-- a date, a time of day, or both -/
  | moment
  deriving DecidableEq, Repr

namespace Scalar

/-- The digits of a run in which single underscores may stand between digits. -/
def digitRun? (isDigit : Char → Bool) : List Char → Option (List Char)
  | [] => none
  | [c] => if isDigit c then some [c] else none
  | c :: '_' :: rest => if isDigit c then (digitRun? isDigit rest).map (c :: ·) else none
  | c :: rest => if isDigit c then (digitRun? isDigit rest).map (c :: ·) else none

def digitsValue (base : Nat) (digits : List Char) : Nat :=
  digits.foldl (fun value c => value * base + (Text.hexValue? c).getD 0) 0

/-- Digits of a base, with underscores between them, as a number. -/
def inBase? (base : Nat) (word : List Char) : Option Nat :=
  (digitRun? (fun c => ((Text.hexValue? c).map (decide <| · < base)).getD false) word).map
    (digitsValue base)

def signed : List Char → Bool × List Char
  | '-' :: rest => (true, rest)
  | '+' :: rest => (false, rest)
  | word => (false, word)

/-- The whole part of a decimal number: no zero stands before another digit. -/
def wholePart? (word : List Char) : Option (List Char) := do
  let digits ← digitRun? Char.isDigit word
  if digits.head? = some '0' ∧ word.length ≠ 1 then none else some digits

def inRange (value : Int) : Bool :=
  -9223372036854775808 ≤ value && value ≤ 9223372036854775807

def integer? (word : List Char) : Option Int := do
  let value ← match word with
    | '0' :: 'x' :: digits => (inBase? 16 digits).map Int.ofNat
    | '0' :: 'o' :: digits => (inBase? 8 digits).map Int.ofNat
    | '0' :: 'b' :: digits => (inBase? 2 digits).map Int.ofNat
    | _ =>
        let (negative, whole) := signed word
        (wholePart? whole).map fun digits =>
          let size : Int := digitsValue 10 digits
          if negative then -size else size
  if inRange value then some value else none

def exponent? : List Char → Option Int
  | [] => some 0
  | c :: rest =>
      if c = 'e' ∨ c = 'E' then
        let (negative, digits) := signed rest
        (digitRun? Char.isDigit digits).map fun digits =>
          let size : Int := digitsValue 10 digits
          if negative then -size else size
      else none

/-- The digits after the point, and what follows them. -/
def fraction? : List Char → Option (List Char × List Char)
  | '.' :: rest => do
      let inRun (c : Char) : Bool := c.isDigit || c == '_'
      let digits ← digitRun? Char.isDigit (rest.takeWhile inRun)
      some (digits, rest.dropWhile inRun)
  | rest => some ([], rest)

/-- A number with a point or an exponent. -/
def decimal? (word : List Char) : Option Binary64 := do
  let (negative, unsigned) := signed word
  let inRun (c : Char) : Bool := c.isDigit || c == '_'
  let whole ← wholePart? (unsigned.takeWhile inRun)
  let rest := unsigned.dropWhile inRun
  if rest.isEmpty then none
  let (fraction, rest) ← fraction? rest
  let power ← exponent? rest
  -- One too large for the format is refused, unless it is negative: that one is infinite.
  match Binary64.ofDecimal negative (digitsValue 10 (whole ++ fraction))
      (power - fraction.length) with
  | .infinite false => none
  | value => some value

def special? (word : List Char) : Option Binary64 :=
  let (negative, name) := signed word
  if name = ['i', 'n', 'f'] then some (.infinite negative)
  else if name = ['n', 'a', 'n'] then some .nan
  else none

def twoDigits? (tens ones : Char) : Option Nat :=
  if tens.isDigit ∧ ones.isDigit then some (digitsValue 10 [tens, ones]) else none

def isLeapYear (year : Nat) : Bool := year % 4 = 0 && (year % 100 ≠ 0 || year % 400 = 0)

def daysIn (year month : Nat) : Nat :=
  if month = 2 then (if isLeapYear year then 29 else 28)
  else if month = 4 ∨ month = 6 ∨ month = 9 ∨ month = 11 then 30
  else 31

/-- What follows a date of the calendar. -/
def afterDate? : List Char → Option (List Char)
  | a :: b :: c :: d :: '-' :: e :: f :: '-' :: g :: h :: rest => do
      let century ← twoDigits? a b
      let inCentury ← twoDigits? c d
      let month ← twoDigits? e f
      let day ← twoDigits? g h
      if 1 ≤ month ∧ month ≤ 12 ∧ 1 ≤ day ∧ day ≤ daysIn (century * 100 + inCentury) month then
        some rest
      else none
  | _ => none

/-- What follows a time of day; its seconds may have a fraction, and a leap second is allowed. -/
def afterTime? : List Char → Option (List Char)
  | a :: b :: ':' :: c :: d :: ':' :: e :: f :: rest => do
      let hour ← twoDigits? a b
      let minute ← twoDigits? c d
      let second ← twoDigits? e f
      if 23 < hour ∨ 59 < minute ∨ 60 < second then none
      else match rest with
        | '.' :: fraction =>
            if (fraction.takeWhile Char.isDigit).isEmpty then none
            else some (fraction.dropWhile Char.isDigit)
        | _ => some rest
  | _ => none

def isOffset : List Char → Bool
  | ['Z'] | ['z'] => true
  | [sign, a, b, ':', c, d] =>
      match twoDigits? a b, twoDigits? c d with
      | some hour, some minute => (sign == '+' || sign == '-') && hour ≤ 23 && minute ≤ 59
      | _, _ => false
  | _ => false

def isTimeAfterDate (word : List Char) : Bool :=
  match afterTime? word with
  | none => false
  | some rest => rest.isEmpty || isOffset rest

def isDate (word : List Char) : Bool := afterDate? word == some []

/-- Whether a word is a date, a time of day, or both with the letter between them. -/
def isMoment (word : List Char) : Bool :=
  match afterDate? word with
  | none => afterTime? word == some []
  | some [] => true
  | some (c :: time) => (c == 'T' || c == 't') && isTimeAfterDate time

def ofWord? (word : List Char) : Option Scalar :=
  if word = "true".toList then some (.boolean true)
  else if word = "false".toList then some (.boolean false)
  else if isMoment word then some .moment
  else match integer? word with
    | some value => some (.integer value)
    | none => ((decimal? word).or (special? word)).map .float

end Scalar

end ProofBuild.Toml
