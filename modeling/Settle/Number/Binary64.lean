import Settle.Number.Rounding

/-!
# Doubles as exact numbers

A finite double is a whole number of units of `2 ^ -1074`. Every operation is the exact result
on those units, rounded once to the nearest representable number with ties to the even
significand, so that laws about it are laws about natural numbers.
-/

namespace Settle

namespace Binary64

/-- How many units make one. -/
def one : Nat := Nat.pow 2 1074

/-- From this many units on a magnitude is infinite. -/
def overflow : Nat := Nat.pow 2 2098

/-- The distance between neighbouring doubles in the binade of `units`. -/
def spacing (units : Nat) : Nat := Nat.pow 2 (units.log2 - 52)

/-- A magnitude that a double can hold: in range, and a multiple of its spacing. -/
structure Representable (units : Nat) : Prop where
  inRange : units < overflow
  aligned : spacing units ∣ units

/-- The multiple of the spacing nearest to `n / d`, ties to the even multiple. -/
def nearest (n d : Nat) : Nat :=
  let s := spacing (n / d)
  roundHalfEven n (d * s) * s

theorem spacing_pos (units : Nat) : 0 < spacing units := Nat.two_pow_pos _

/-- What is rounded to the spacing of a quotient keeps within its binade, or ends at the next one. -/
theorem roundHalfEven_spacing_le (n d : Nat) :
    roundHalfEven n (d * spacing (n / d)) ≤ Nat.pow 2 53 := by
  have hlt : n / d < 2 ^ 53 * spacing (n / d) := by
    have hpow : 2 ^ 53 * spacing (n / d) = 2 ^ (53 + ((n / d).log2 - 52)) := (Nat.pow_add ..).symm
    rw [hpow]
    exact Nat.lt_of_lt_of_le Nat.lt_log2_self (Nat.pow_le_pow_right (by decide) (by omega))
  refine roundHalfEven_le ?_
  rw [← Nat.div_div_eq_div_mul]
  exact (Nat.div_lt_iff_lt_mul (spacing_pos _)).2 hlt

theorem spacing_dvd_pow {units k : Nat} (h : units < Nat.pow 2 (k + 53)) :
    spacing units ∣ Nat.pow 2 k := by
  refine Nat.pow_dvd_pow 2 ?_
  by_cases h0 : units = 0
  · subst h0
    have : Nat.log2 0 = 0 := by decide
    omega
  · have := (Nat.log2_lt h0).2 h
    omega

theorem aligned_nearest (n d : Nat) : spacing (nearest n d) ∣ nearest n d := by
  have hs (u : Nat) : spacing u = 2 ^ (u.log2 - 52) := rfl
  unfold nearest
  rcases Nat.lt_or_eq_of_le (roundHalfEven_spacing_le n d) with h | h
  · refine Nat.dvd_trans (spacing_dvd_pow (k := (n / d).log2 - 52) ?_) (Nat.dvd_mul_left _ _)
    calc roundHalfEven n (d * spacing (n / d)) * spacing (n / d)
        < 2 ^ 53 * spacing (n / d) := Nat.mul_lt_mul_of_pos_right h (spacing_pos _)
      _ = 2 ^ ((n / d).log2 - 52 + 53) := by rw [hs, ← Nat.pow_add, Nat.add_comm]
  · have hend : roundHalfEven n (d * spacing (n / d)) = 2 ^ 53 := h
    simp only [hend]
    rw [hs, hs, ← Nat.pow_add, Nat.log2_two_pow]
    exact Nat.pow_dvd_pow 2 (by omega)

end Binary64

/-- A double: a signed number of units, an infinity, or no number. -/
inductive Binary64 where
  | finite (negative : Bool) (units : Nat) (representable : Binary64.Representable units)
  | infinite (negative : Bool)
  | nan
  deriving DecidableEq

namespace Binary64

/-- The double nearest to `n / d` units, or the infinity of that sign. -/
def ofQuotient (negative : Bool) (n d : Nat) : Binary64 :=
  if h : nearest n d < overflow then
    .finite negative (nearest n d) ⟨h, aligned_nearest n d⟩
  else
    .infinite negative

def zero (negative : Bool) : Binary64 := ofQuotient negative 0 1

def ofNat (n : Nat) : Binary64 := ofQuotient false (n * one) 1

def ofInt (n : Int) : Binary64 := ofQuotient (decide (n < 0)) (n.natAbs * one) 1

instance (n : Nat) : OfNat Binary64 n := ⟨ofNat n⟩

instance : Inhabited Binary64 := ⟨.nan⟩

def signed (negative : Bool) (units : Nat) : Int := if negative then -units else units

def isFinite : Binary64 → Bool
  | .finite .. => true
  | _ => false

def neg : Binary64 → Binary64
  | .finite s u h => .finite (!s) u h
  | .infinite s => .infinite !s
  | .nan => .nan

/-- The rounded sum; opposite numbers sum to positive zero. -/
def add : Binary64 → Binary64 → Binary64
  | .nan, _ | _, .nan => .nan
  | .infinite s, .infinite t => if s = t then .infinite s else .nan
  | .infinite s, .finite .. | .finite .., .infinite s => .infinite s
  | .finite s u _, .finite t v _ =>
    let sum := signed s u + signed t v
    if sum = 0 then zero (s && t) else ofQuotient (sum < 0) sum.natAbs 1

/-- The rounded product; an infinity times zero is no number. -/
def mul : Binary64 → Binary64 → Binary64
  | .nan, _ | _, .nan => .nan
  | .infinite s, .infinite t => .infinite (s != t)
  | .infinite s, .finite t u _ | .finite s u _, .infinite t =>
    if u = 0 then .nan else .infinite (s != t)
  | .finite s u _, .finite t v _ => ofQuotient (s != t) (u * v) one

/-- The rounded quotient; a non-zero number over zero is infinite. -/
def div : Binary64 → Binary64 → Binary64
  | .nan, _ | _, .nan => .nan
  | .infinite _, .infinite _ => .nan
  | .infinite s, .finite t _ _ => .infinite (s != t)
  | .finite s _ _, .infinite t => zero (s != t)
  | .finite s u _, .finite t v _ =>
    if v = 0 then (if u = 0 then .nan else .infinite (s != t))
    else ofQuotient (s != t) (u * one) v

instance : Neg Binary64 := ⟨neg⟩
instance : Add Binary64 := ⟨add⟩
instance : Sub Binary64 := ⟨fun a b => a + -b⟩
instance : Mul Binary64 := ⟨mul⟩
instance : Div Binary64 := ⟨div⟩

/-- Whether the first number is below the second; no number compares with `nan`. -/
def lt : Binary64 → Binary64 → Bool
  | .nan, _ | _, .nan => false
  | .infinite s, .infinite t => s && !t
  | .infinite s, .finite .. => s
  | .finite .., .infinite t => !t
  | .finite s u _, .finite t v _ => signed s u < signed t v

/-- Whether the first number is at most the second; no number compares with `nan`. -/
def le : Binary64 → Binary64 → Bool
  | .nan, _ | _, .nan => false
  | a, b => !lt b a

instance : LT Binary64 := ⟨fun a b => lt a b⟩
instance : LE Binary64 := ⟨fun a b => le a b⟩
instance (a b : Binary64) : Decidable (a < b) := inferInstanceAs (Decidable (lt a b = true))
instance (a b : Binary64) : Decidable (a ≤ b) := inferInstanceAs (Decidable (le a b = true))

/-- The smaller number; `nan` gives way to the other argument. -/
def lesser : Binary64 → Binary64 → Binary64
  | .nan, b => b
  | a, .nan => a
  | a, b => if a ≤ b then a else b

/-- The larger number; `nan` gives way to the other argument. -/
def greater : Binary64 → Binary64 → Binary64
  | .nan, b => b
  | a, .nan => a
  | a, b => if b ≤ a then a else b

/-- `acc * base ^ n` by squaring, the lowest binary digit of `n` first. -/
def powFrom (acc base : Binary64) (n : Nat) : Binary64 :=
  let acc := if n % 2 = 1 then acc * base else acc
  if _h : n / 2 = 0 then acc else powFrom acc (base * base) (n / 2)
  termination_by n
  decreasing_by omega

/-- `base ^ n` by squaring, every product rounded. -/
def pow (base : Binary64) (n : Nat) : Binary64 := powFrom 1 base n

/-! ## Interchange format -/

/-- The double with the given sign, exponent and fraction fields. -/
def ofBits (bits : UInt64) : Binary64 :=
  let negative := bits >>> 63 = 1
  let exponent := ((bits >>> 52) &&& 0x7ff).toNat
  let fraction := (bits &&& 0xfffffffffffff).toNat
  if exponent = 0x7ff then
    if fraction = 0 then .infinite negative else .nan
  else if exponent = 0 then ofQuotient negative fraction 1
  else ofQuotient negative ((Nat.pow 2 52 + fraction) * Nat.pow 2 (exponent - 1)) 1

/-- The exponent and fraction fields of a finite magnitude, as one number. -/
def fields (units : Nat) : Nat :=
  if units < Nat.pow 2 52 then units
  else
    let p := units.log2 - 52
    p * Nat.pow 2 52 + units / Nat.pow 2 p

/-- The interchange format; `nan` is the quiet one without payload. -/
def toBits : Binary64 → UInt64
  | .finite negative units _ => UInt64.ofNat ((if negative then Nat.pow 2 63 else 0) + fields units)
  | .infinite negative =>
    UInt64.ofNat ((if negative then Nat.pow 2 63 else 0) + 0x7ff * Nat.pow 2 52)
  | .nan => 0x7ff8000000000000

end Binary64

end Settle
