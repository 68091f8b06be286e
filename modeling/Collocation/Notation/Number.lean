import Collocation.Decimal.Fixed
import Collocation.Notation.Json
import Collocation.Number
import Collocation.Tensor

/-!
How numbers are written down: with all their digits, or rounded so that the last bits do not show.
-/

namespace Collocation

inductive NumberForm where
  | exact
  | tenDigits
  | nineDecimals
  | fourDecimals

namespace NumberForm

variable {α : Type} [Scalar α]

/-- The layout of the digits of a number, if it is not written in full. -/
def layout? (form : NumberForm) (x : α) : Option Decimal.Layout :=
  match form with
  | exact => none
  | tenDigits => some (.scientific 9)
  | nineDecimals => if (1.0 : α) ≤ Scalar.abs x then some (.scientific 9) else some (.fixed 9)
  | fourDecimals => some (.fixed 4)

def digits (form : NumberForm) (x : α) : String :=
  match form.layout? x with
  | some layout => layout.render (Scalar.isNegative x) (Scalar.exact x)
  | none => Scalar.text x

def isZero (digits : String) : Bool := digits.toList.all fun c => c == '0' || c == '.' || c == '-'

/-- A number; infinities and "not a number" are texts, and there is one zero. -/
def write (form : NumberForm) (x : α) : Json :=
  match Scalar.exact x with
  | .nan => .text "NaN"
  | .posInf => .text "Infinity"
  | .negInf => .text "-Infinity"
  | .finite q =>
    let digits := form.digits x
    .number (if q = 0 || isZero digits then "0.0" else digits)

/-- A number as callers write it; a whole number keeps its digits. -/
def writeNumber (form : NumberForm) : Number α → Json
  | .int n => .ofInt n
  | .real x => form.write x

def row (form : NumberForm) (xs : List α) : Json := .array (xs.map form.write)

def rows (form : NumberForm) (xss : List (List α)) : Json := .array (xss.map form.row)

def nested (form : NumberForm) : List Nat → List α → Json
  | [], xs => (xs.head?.map form.write).getD .null
  | n :: shape, xs =>
    .array ((Tensor.rowsOf (shape.foldl (· * ·) 1) n xs).map (nested form shape))

def tensor (form : NumberForm) (t : Tensor α) : Json := form.nested t.shape t.entries

def named (form : NumberForm) (xs : List (String × Number α)) : Json :=
  .array (xs.map fun e => .array [.text e.1, form.writeNumber e.2])

end NumberForm

end Collocation
