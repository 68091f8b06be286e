/-!
The rationals with both infinities and "not a number", with the conventions of binary floating
point: `nan` compares with nothing, and a sum or product without a meaning is `nan`. A double is
read as one of these, and exact arithmetic means arithmetic here.
-/

namespace Collocation

/-- A rational number, an infinity, or no number at all. -/
inductive Extended where
  | nan
  | negInf
  | finite (q : Rat)
  | posInf
  deriving DecidableEq, Inhabited

namespace Extended

/-- The infinity with the sign of a product whose sign is that of `q`; nothing has no sign. -/
def infinityOfSign (q : Rat) : Extended :=
  if q < 0 then .negInf else if 0 < q then .posInf else .nan

def neg : Extended → Extended
  | .nan => .nan
  | .negInf => .posInf
  | .finite q => .finite (-q)
  | .posInf => .negInf

/-- Opposite infinities have no sum. -/
def add : Extended → Extended → Extended
  | .nan, _ => .nan
  | _, .nan => .nan
  | .finite p, .finite q => .finite (p + q)
  | .finite _, y => y
  | x, .finite _ => x
  | .posInf, .posInf => .posInf
  | .negInf, .negInf => .negInf
  | .posInf, .negInf => .nan
  | .negInf, .posInf => .nan

/-- The sign of a value as a rational: what decides which infinity a product with one is. -/
def sign : Extended → Rat
  | .nan => 0
  | .negInf => -1
  | .finite q => if q < 0 then -1 else if 0 < q then 1 else 0
  | .posInf => 1

/-- Zero times an infinity is no number. -/
def mul : Extended → Extended → Extended
  | .nan, _ => .nan
  | _, .nan => .nan
  | .finite p, .finite q => .finite (p * q)
  | x, y => infinityOfSign (x.sign * y.sign)

/-- A finite value over an infinity is zero, and one over zero is the infinity of its sign. -/
def div : Extended → Extended → Extended
  | .nan, _ => .nan
  | _, .nan => .nan
  | .finite p, .finite q => if q = 0 then infinityOfSign p else .finite (p / q)
  | .finite _, _ => .finite 0
  | x, .finite q => infinityOfSign (x.sign * if q < 0 then -1 else 1)
  | _, _ => .nan

/-- The order of the extended line; `nan` is below and above nothing. -/
def lt : Extended → Extended → Bool
  | .finite p, .finite q => p < q
  | .negInf, .finite _ => true
  | .negInf, .posInf => true
  | .finite _, .posInf => true
  | _, _ => false

/-- At most, with every number at most itself and `nan` at most nothing. -/
def le : Extended → Extended → Bool
  | .finite p, .finite q => p ≤ q
  | .negInf, .negInf => true
  | .posInf, .posInf => true
  | x, y => lt x y

instance : Neg Extended := ⟨neg⟩
instance : Add Extended := ⟨add⟩
instance : Sub Extended := ⟨fun x y => add x (neg y)⟩
instance : Mul Extended := ⟨mul⟩
instance : Div Extended := ⟨div⟩
instance : LT Extended := ⟨fun x y => lt x y = true⟩
instance : LE Extended := ⟨fun x y => le x y = true⟩
instance : DecidableLT Extended := fun x y => inferInstanceAs (Decidable (lt x y = true))
instance : DecidableLE Extended := fun x y => inferInstanceAs (Decidable (le x y = true))

/-- A decimal literal is read exactly. -/
instance : OfScientific Extended := ⟨fun m s e => .finite (OfScientific.ofScientific m s e)⟩

@[simp] theorem finite_add (p q : Rat) : finite p + finite q = finite (p + q) := rfl

@[simp] theorem finite_sub (p q : Rat) : finite p - finite q = finite (p + -q) := rfl

@[simp] theorem finite_mul (p q : Rat) : finite p * finite q = finite (p * q) := rfl

@[simp] theorem neg_finite (q : Rat) : -finite q = finite (-q) := rfl

@[simp] theorem finite_le_finite (p q : Rat) : finite p ≤ finite q ↔ p ≤ q :=
  decide_eq_true_iff

@[simp] theorem finite_lt_finite (p q : Rat) : finite p < finite q ↔ p < q :=
  decide_eq_true_iff

theorem not_nan_le (x : Extended) : ¬ nan ≤ x := by
  cases x <;> exact Bool.false_ne_true

theorem not_le_nan (x : Extended) : ¬ x ≤ nan := by
  cases x <;> exact Bool.false_ne_true

theorem finite_div {p q : Rat} (h : q ≠ 0) : finite p / finite q = finite (p / q) :=
  if_neg h

end Extended

end Collocation
