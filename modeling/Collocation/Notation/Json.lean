/-!
The notation in which problems are written down and results are told: nested arrays and objects of
texts, truth values and numbers. A number keeps its digits as they were written.
-/

namespace Collocation

/-- A written value. The fields of an object keep their order. -/
inductive Json where
  | null
  | bool (b : Bool)
  | number (digits : String)
  | text (s : String)
  | array (items : List Json)
  | object (fields : List (String × Json))
  deriving Inhabited

namespace Json

/-! ### Reading -/

def isSpace (c : Char) : Bool := c == ' ' || c == '\t' || c == '\n' || c == '\r'

def skipSpace (cs : List Char) : List Char := cs.dropWhile isSpace

/-- The value of a hexadecimal digit, small or large. -/
def hexDigit? (c : Char) : Option Nat :=
  if c.isDigit then some (c.toNat - '0'.toNat)
  else if 'a' ≤ c ∧ c ≤ 'f' then some (c.toNat - 'a'.toNat + 10)
  else if 'A' ≤ c ∧ c ≤ 'F' then some (c.toNat - 'A'.toNat + 10)
  else none

/-- The value of hexadecimal digits. -/
def hexValue? (cs : List Char) : Option Nat :=
  cs.foldl (fun n? c => do return (← n?) * 16 + (← hexDigit? c)) (some 0)

/-- The character that an escape of one letter names; all others name themselves. -/
def shortEscape (c : Char) : Char :=
  match c with
  | 'n' => '\n'
  | 't' => '\t'
  | 'r' => '\r'
  | 'b' => '\x08'
  | 'f' => '\x0c'
  | c => c

/-- The numbers of the characters of a text up to its closing mark, where an escape may name one
half of a pair; and what follows the mark. -/
def readUnits : List Char → Option (List Nat × List Char)
  | '\x22' :: rest => some ([], rest)
  | '\\' :: 'u' :: a :: b :: c :: d :: rest => do
    let n ← hexValue? [a, b, c, d]
    let (ns, tail) ← readUnits rest
    return (n :: ns, tail)
  | '\\' :: c :: rest => do
    let (ns, tail) ← readUnits rest
    return ((shortEscape c).toNat :: ns, tail)
  | c :: rest => do
    let (ns, tail) ← readUnits rest
    return (c.toNat :: ns, tail)
  | [] => none

/-- First halves of pairs. -/
def isHigh (n : Nat) : Bool := 0xD800 ≤ n && n < 0xDC00

/-- Second halves of pairs. -/
def isLow (n : Nat) : Bool := 0xDC00 ≤ n && n < 0xE000

/-- The character with a number, or a replacement if there is none. -/
def character (n : Nat) : Char := if isHigh n || isLow n then '\uFFFD' else Char.ofNat n

/-- Characters from numbers, where two halves of a pair make one. -/
def joinUnits : List Nat → List Char
  | h :: l :: rest =>
    if isHigh h && isLow l then
      Char.ofNat (0x10000 + (h - 0xD800) * 1024 + (l - 0xDC00)) :: joinUnits rest
    else character h :: joinUnits (l :: rest)
  | [n] => [character n]
  | [] => []

/-- A text after its opening mark, and what follows it. -/
def readText (cs : List Char) : Option (String × List Char) := do
  let (ns, rest) ← readUnits cs
  return (String.ofList (joinUnits ns), rest)

def isNumberChar (c : Char) : Bool :=
  c.isDigit || c == '-' || c == '+' || c == '.' || c == 'e' || c == 'E'

/-- A value that is written as a word, and what follows it. -/
def readWord (word : String) (j : Json) (cs : List Char) : Option (Json × List Char) :=
  if word.toList.isPrefixOf cs then some (j, cs.drop word.length) else none

mutual

/-- One value, and what follows it; `fuel` bounds the number of steps. -/
def readValue : Nat → List Char → Option (Json × List Char)
  | 0, _ => none
  | fuel + 1, cs =>
    match skipSpace cs with
    | '\x22' :: rest => do
      let (s, tail) ← readText rest
      return (.text s, tail)
    | '[' :: rest => do
      let (items, tail) ← readItems fuel (skipSpace rest)
      return (.array items, tail)
    | '\x7b' :: rest => do
      let (fields, tail) ← readFields fuel (skipSpace rest)
      return (.object fields, tail)
    | 't' :: rest => readWord "true" (.bool true) ('t' :: rest)
    | 'f' :: rest => readWord "false" (.bool false) ('f' :: rest)
    | 'n' :: rest => readWord "null" .null ('n' :: rest)
    | cs =>
      match cs.span isNumberChar with
      | ([], _) => none
      | (digits, tail) => some (.number (String.ofList digits), tail)

/-- The items of an array up to its closing mark, and what follows the mark. -/
def readItems : Nat → List Char → Option (List Json × List Char)
  | 0, _ => none
  | fuel + 1, cs =>
    match cs with
    | ']' :: rest => some ([], rest)
    | cs => do
      let (item, rest) ← readValue fuel cs
      match skipSpace rest with
      | ',' :: rest =>
        let (items, tail) ← readItems fuel (skipSpace rest)
        return (item :: items, tail)
      | ']' :: tail => return ([item], tail)
      | _ => none

/-- The fields of an object up to its closing mark, and what follows the mark. -/
def readFields : Nat → List Char → Option (List (String × Json) × List Char)
  | 0, _ => none
  | fuel + 1, cs =>
    match cs with
    | '\x7d' :: rest => some ([], rest)
    | '\x22' :: rest => do
      let (name, rest) ← readText rest
      match skipSpace rest with
      | ':' :: rest =>
        let (v, rest) ← readValue fuel rest
        match skipSpace rest with
        | ',' :: rest =>
          let (fields, tail) ← readFields fuel (skipSpace rest)
          return ((name, v) :: fields, tail)
        | '\x7d' :: tail => return ([(name, v)], tail)
        | _ => none
      | _ => none
    | _ => none

end

/-- The value that a text writes down. Every step takes at least one character. -/
def read? (s : String) : Option Json :=
  match readValue (2 * s.length + 2) s.toList with
  | some (j, rest) => if (skipSpace rest).isEmpty then some j else none
  | none => none

/-! ### Writing -/

/-- Four hexadecimal digits. -/
def hex4 (n : Nat) : String :=
  let ds := Nat.toDigits 16 n
  String.ofList (List.replicate (4 - ds.length) '0' ++ ds)

/-- One character of a text: printable ones of the basic alphabet as they are, the others
escaped. -/
def escape (c : Char) : String :=
  let n := c.toNat
  if c == '\x22' then "\\\x22"
  else if c == '\\' then "\\\\"
  else if 0x20 ≤ n && n < 0x7F then c.toString
  else if n < 0x10000 then "\\u" ++ hex4 n
  else "\\u" ++ hex4 (0xD800 + (n - 0x10000) / 1024) ++ "\\u"
    ++ hex4 (0xDC00 + (n - 0x10000) % 1024)

/-- A text between marks. -/
def quoted (s : String) : String := "\x22" ++ String.join (s.toList.map escape) ++ "\x22"

mutual

/-- A value on one line, without spaces. -/
def line : Json → String
  | .null => "null"
  | .bool b => if b then "true" else "false"
  | .number digits => digits
  | .text s => quoted s
  | .array items => "[" ++ ",".intercalate (itemLines items) ++ "]"
  | .object fields => "\x7b" ++ ",".intercalate (fieldLines fields) ++ "\x7d"

def itemLines : List Json → List String
  | [] => []
  | j :: rest => line j :: itemLines rest

def fieldLines : List (String × Json) → List String
  | [] => []
  | (name, j) :: rest => (quoted name ++ ":" ++ line j) :: fieldLines rest

end

/-! ### Parts -/

/-- A field of an object; other values have none. -/
def field? (j : Json) (name : String) : Option Json :=
  match j with
  | .object fields => fields.lookup name
  | _ => none

/-- A field of an object; a missing one counts as null. -/
def field (j : Json) (name : String) : Json := (j.field? name).getD .null

/-- The items of an array; other values have none. -/
def items : Json → List Json
  | .array items => items
  | _ => []

/-- An item of an array; a missing one counts as null. -/
def item (j : Json) (i : Nat) : Json := j.items[i]?.getD .null

/-- The fields of an object; other values have none. -/
def fields : Json → List (String × Json)
  | .object fields => fields
  | _ => []

/-- The content of a text; it is empty for other values. -/
def content : Json → String
  | .text s => s
  | _ => ""

def ofInt (n : Int) : Json := .number (toString n)

def ofNat (n : Nat) : Json := .number (toString n)

def ofTexts (xs : List String) : Json := .array (xs.map .text)

end Json

end Collocation
