import Collocation.Text.HiddenTable
import Collocation.Text.Word

/-!
Quoted text, as values are shown inside messages: single quotes unless the text holds a single quote
and no double one, and escapes for what could not be read.
-/

namespace Collocation.Text

/-- A character that quoted text shows as itself, quotes and the backslash apart. -/
def isShown (c : Char) : Bool :=
  let n := c.toNat
  if n < 128 then 32 ≤ n && n < 127 else !inRanges hiddenRanges n

def hexDigits (width n : Nat) : String :=
  let ds := Nat.toDigits 16 n
  String.ofList (List.replicate (width - ds.length) '0' ++ ds)

/-- A character inside the given quotes: the backslash and the quote behind a backslash, three
controls by their letters, and what is not shown by its code point. -/
def escape (quote c : Char) : String :=
  if c == '\\' || c == quote then "\\" ++ c.toString
  else if c == '\n' then "\\n"
  else if c == '\r' then "\\r"
  else if c == '\t' then "\\t"
  else if isShown c then c.toString
  else if c.toNat < 0x100 then "\\x" ++ hexDigits 2 c.toNat
  else if c.toNat < 0x10000 then "\\u" ++ hexDigits 4 c.toNat
  else "\\U" ++ hexDigits 8 c.toNat

def quoteFor (s : String) : Char :=
  if s.toList.contains '\x27' && !s.toList.contains '"' then '"' else '\x27'

def quoted (s : String) : String :=
  let quote := quoteFor s
  quote.toString ++ String.join (s.toList.map (escape quote)) ++ quote.toString

end Collocation.Text
