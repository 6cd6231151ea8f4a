import Mathlib.Algebra.Order.Ring.Nat
import Settle.Proofs.Limiter.Isolation

/-! # The time that a bucket is refilled for

A take refills for the time since the last one and stores its own instant, also an earlier one. So
time that has gone by is credited again as soon as an earlier caller is followed by a later one:
the credits exceed the span that they come from by exactly this time. -/

namespace Settle

namespace Bucket

variable {κ : Type} [Add κ] [Sub κ] [Mul κ] [Min κ] [OfNat κ 1]
  {created seen updated : Nanos} {times : List Nanos}

/-- The times that a row of takes refills a bucket for. -/
def credits (seconds : Nanos → κ) : Bucket κ → List Nanos → List Nanos
  | _, [] => []
  | b, now :: times => (now - b.updated) :: credits seconds (b.take seconds now) times

/-- The latest instant seen since the bucket was made. -/
def latest (created : Nanos) (times : List Nanos) : Nanos := times.foldl max created

/-- Of the credits of a row of takes, the time that lies before the latest instant seen by then. -/
def regained : Nanos → Nanos → List Nanos → Nanos
  | _, _, [] => 0
  | seen, updated, now :: times =>
    (min now seen - updated) + regained (max seen now) now times

theorem le_latest (created : Nanos) (times : List Nanos) : created ≤ latest created times := by
  unfold latest
  induction times generalizing created with
  | nil => exact Nat.le_refl created
  | cons now times ih => exact Nat.le_trans (Nat.le_max_left created now) (ih _)

/-! ## Credits -/

/-- A credit is for time that is new or for time that is regained. -/
theorem sum_credits_add (seconds : Nanos → κ) (b : Bucket κ) (h : b.updated ≤ seen)
    (times : List Nanos) : (b.credits seconds times).sum + seen =
      latest seen times + regained seen b.updated times := by
  induction times generalizing b seen with
  | nil => exact Nat.zero_add seen
  | cons now times ih =>
      have hrest := ih (b.take seconds now) (Nat.le_max_right seen now)
      simp only [take] at hrest
      simp only [credits, take, regained, latest, List.sum_cons, List.foldl_cons] at hrest ⊢
      lia

theorem sum_credits (seconds : Nanos → κ) (b : Bucket κ) (times : List Nanos) :
    (b.credits seconds times).sum =
      (latest b.updated times - b.updated) + regained b.updated b.updated times := by
  have hsum := sum_credits_add seconds b (Nat.le_refl b.updated) times
  have hle := le_latest b.updated times
  lia

/-! ## Rows of instants -/

/-- Time goes forward from the latest instant seen only. -/
def NeverReturns (path : List Nanos) : Prop :=
  ∀ before x y after, path = before ++ x :: y :: after → x < y → ∀ z ∈ before, z ≤ x

theorem head_le {before after : List Nanos} {x : Nanos}
    (hpath : created :: times = before ++ x :: after) (h : ∀ z ∈ before, z ≤ x) : created ≤ x := by
  cases before with
  | nil => exact Nat.le_of_eq (List.cons.inj hpath).1
  | cons z before =>
      obtain ⟨rfl, -⟩ := List.cons.inj hpath
      exact h created (by simp)

/-- Nothing is regained exactly if every step forward is one from an instant that is at least as
late as `seen` and as all instants before it. -/
theorem regained_eq_zero (h : updated ≤ seen) : regained seen updated times = 0 ↔
    ∀ before x y after, updated :: times = before ++ x :: y :: after → x < y →
      seen ≤ x ∧ ∀ z ∈ before, z ≤ x := by
  induction times generalizing seen updated with
  | nil =>
      refine ⟨fun _ before x y after hpath => ?_, fun _ => rfl⟩
      have hlength := congrArg List.length hpath
      simp at hlength
      lia
  | cons now times ih =>
      have hzero : regained seen updated (now :: times) = 0 ↔
          min now seen ≤ updated ∧ regained (max seen now) now times = 0 := by
        simp only [regained]
        lia
      rw [hzero, ih (Nat.le_max_right seen now)]
      constructor
      · rintro ⟨hnow, hlater⟩ before x y after hpath hxy
        cases before with
        | nil =>
            simp only [List.nil_append, List.cons.injEq] at hpath
            obtain ⟨rfl, rfl, rfl⟩ := hpath
            exact ⟨by lia, nofun⟩
        | cons z before =>
            obtain ⟨rfl, hrest⟩ := List.cons.inj hpath
            obtain ⟨hmax, hbefore⟩ := hlater before x y after hrest hxy
            exact ⟨by lia, List.forall_mem_cons.mpr ⟨by lia, hbefore⟩⟩
      · intro hall
        refine ⟨?_, fun before x y after hpath hxy => ?_⟩
        · by_cases hnow : updated < now
          · have hseen := (hall [] updated now times rfl hnow).1
            lia
          · lia
        · obtain ⟨hseen, hbefore⟩ := hall (updated :: before) x y after (by rw [hpath]; rfl) hxy
          have hrest := (List.forall_mem_cons.mp hbefore).2
          exact ⟨Nat.max_le.mpr ⟨hseen, head_le hpath hrest⟩, hrest⟩

theorem neverReturns_iff :
    NeverReturns (created :: times) ↔ regained created created times = 0 := by
  rw [regained_eq_zero (Nat.le_refl created)]
  constructor
  · intro h before x y after hpath hxy
    have hbefore := h before x y after hpath hxy
    exact ⟨head_le hpath hbefore, hbefore⟩
  · intro h before x y after hpath hxy
    exact (h before x y after hpath hxy).2

/-- The credits of a row of takes, from a bucket that was made at `b.updated` on, come to the span
up to the latest instant and the time that is regained. So they keep within the span exactly if
time never goes forward from an earlier instant than the latest one. -/
theorem credits_within_iff (seconds : Nanos → κ) (b : Bucket κ) (times : List Nanos) :
    (b.credits seconds times).sum =
        (latest b.updated times - b.updated) + regained b.updated b.updated times ∧
      ((b.credits seconds times).sum ≤ latest b.updated times - b.updated ↔
        NeverReturns (b.updated :: times)) := by
  have hsum := sum_credits seconds b times
  refine ⟨hsum, ?_⟩
  rw [neverReturns_iff, hsum]
  lia

/-- Two callers who read the clock a second after a bucket was made, and between them one who read
it as the bucket was made. -/
def lateCaller : List Nanos := [.seconds 11, .seconds 10, .seconds 11]

/-- The second between the callers is credited twice, so that the last one waits for one second
and not for two. -/
theorem lateCaller_credited_twice :
    ¬ ((full (1 : Binary64) (.seconds 10)).credits Nanos.toSeconds lateCaller).sum ≤
        latest (.seconds 10) lateCaller - .seconds 10 ∧
      ((full (1 : Binary64) (.seconds 10)).credits Nanos.toSeconds lateCaller).sum =
        .seconds 2 ∧
      (Limiter.ofRate 1).waits ((Nanos.seconds 10 :: lateCaller).map ("GetDisk", ·)) [] =
        [("GetDisk", 0), ("GetDisk", 0), ("GetDisk", .seconds 1), ("GetDisk", .seconds 1)] := by
  decide +kernel

end Bucket

end Settle
