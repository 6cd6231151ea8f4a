/-!
# Rounding a quotient of natural numbers

`roundHalfEven n d` is the whole number nearest to `n / d`; a quotient half way between two
whole numbers goes to the even one.
-/

namespace Settle

/-- The whole number nearest to `n / d`, the even one of two equally near ones. -/
def roundHalfEven (n d : Nat) : Nat :=
  let q := n / d
  let r := n % d
  if 2 * r < d ∨ (2 * r = d ∧ q % 2 = 0) then q else q + 1

theorem div_le_roundHalfEven (n d : Nat) : n / d ≤ roundHalfEven n d := by
  unfold roundHalfEven
  dsimp only
  split <;> omega

theorem roundHalfEven_le_succ (n d : Nat) : roundHalfEven n d ≤ n / d + 1 := by
  unfold roundHalfEven
  dsimp only
  split <;> omega

/-- A quotient below a whole number is not rounded past it. -/
theorem roundHalfEven_le {n d k : Nat} (h : n / d < k) : roundHalfEven n d ≤ k :=
  Nat.le_trans (roundHalfEven_le_succ n d) h

end Settle
