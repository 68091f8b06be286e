import Collocation.Scalar
import Collocation.Text.Blank
import Collocation.Text.Digit

/-!
Numerals in text: what a caller's text must look like to be read as a number. White space around it
is ignored, the digits of every script count, and an underscore may stand between two digits.
-/

namespace Collocation.Decimal

inductive Numeral where
  | nan
  | infinity (negative : Bool)
  /-- The value `digits * 10 ^ exponent`, with a sign. -/
  | decimal (negative : Bool) (digits : Nat) (exponent : Int)
  deriving DecidableEq

/-- Splits off digits at the front, with single underscores between them, and returns how many there
were, their value and the rest. -/
def takeDigits (count value : Nat) : List Char → Nat × Nat × List Char
  | [] => (count, value, [])
  | '_' :: c :: rest =>
    match Text.digitValue? c with
    | some d => if count = 0 then (0, value, '_' :: c :: rest)
                else takeDigits (count + 1) (value * 10 + d) rest
    | none => (count, value, '_' :: c :: rest)
  | c :: rest =>
    match Text.digitValue? c with
    | some d => takeDigits (count + 1) (value * 10 + d) rest
    | none => (count, value, c :: rest)

/-- A sign at the front, if there is one, and the rest. -/
def takeSign : List Char → Bool × List Char
  | '-' :: rest => (true, rest)
  | '+' :: rest => (false, rest)
  | rest => (false, rest)

def spells (word : String) (cs : List Char) : Bool := String.ofList (cs.map Char.toLower) == word

/-- The exponent at the end of a numeral: absent, or a mark, a sign and digits. -/
def readExponent : List Char → Option Int
  | [] => some 0
  | c :: rest =>
    if c == 'e' || c == 'E' then
      let (negative, ds) := takeSign rest
      match takeDigits 0 0 ds with
      | (n, value, []) =>
        if n = 0 then none else some (if negative then -(value : Int) else value)
      | _ => none
    else none

def readFraction (negative : Bool) (count value : Nat) : List Char → Option Numeral
  | '.' :: rest =>
    let (places, digits, tail) := takeDigits 0 value rest
    if count + places = 0 then none
    else (readExponent tail).map fun e => .decimal negative digits (e - places)
  | tail =>
    if count = 0 then none else (readExponent tail).map fun e => .decimal negative value e

/-- Reads a numeral: a decimal with or without a point and an exponent, or the name of an infinity
or of "not a number". -/
def readNumeral (s : String) : Option Numeral :=
  let (negative, cs) := takeSign (Text.strip s.toList)
  if spells "nan" cs then some .nan
  else if spells "inf" cs || spells "infinity" cs then some (.infinity negative)
  else
    let (count, value, rest) := takeDigits 0 0 cs
    readFraction negative count value rest

def maxWholeDigits : Nat := 4300

/-- The number of digits at the front of a whole number; none if an underscore stands astray. -/
def wholeDigits (s : String) : Nat :=
  match takeDigits 0 0 (takeSign (Text.strip s.toList)).2 with
  | (_, _, '_' :: _) => 0
  | (n, _, _) => n

def readWhole (s : String) : Option Int :=
  let (negative, cs) := takeSign (Text.strip s.toList)
  match takeDigits 0 0 cs with
  | (n, value, []) => if n = 0 then none else some (if negative then -(value : Int) else value)
  | _ => none

/-- The scalar nearest to a numeral. An exponent beyond a thousand, counted from the leading digit,
is out of the range of doubles. -/
def Numeral.toScalar {α : Type} [Scalar α] : Numeral → α
  | .nan => Scalar.nan
  | .infinity negative => if negative then -Scalar.infinity else Scalar.infinity
  | .decimal negative digits exponent =>
    let size := exponent + (Nat.toDigits 10 digits).length
    let x : α :=
      if digits = 0 || size < -1000 then 0.0
      else if 1000 < size then Scalar.infinity
      else OfScientific.ofScientific digits (exponent < 0) exponent.natAbs
    if negative then -x else x

end Collocation.Decimal
