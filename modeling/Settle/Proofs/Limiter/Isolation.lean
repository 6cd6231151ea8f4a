import Settle.Limiter

/-! # What a limiter answers to a row of reservations

Every action has a bucket of its own, which is made full when the action is first reserved. So the
waits for an action depend on the reservations for that action alone. -/

namespace Settle

namespace Bucket

variable {κ : Type} [Add κ] [Sub κ] [Mul κ] [Min κ] [OfNat κ 1]

/-- The bucket of one action after each of its reservations; there is none before the first. -/
def serve (seconds : Nanos → κ) (rate : κ) : Option (Bucket κ) → List Nanos → List (Bucket κ)
  | _, [] => []
  | bucket?, now :: times =>
    let bucket := (bucket?.getD (.full rate now)).take seconds now
    bucket :: serve seconds rate (some bucket) times

end Bucket

theorem Binary64.not_lt_of_le {a b : Binary64} (h : a ≤ b) : ¬ b < a := by
  change Binary64.le a b = true at h
  intro hlt
  change Binary64.lt b a = true at hlt
  unfold Binary64.le at h
  split at h
  · cases h
  · cases h
  · simp [hlt] at h

namespace Limiter

variable {l : Limiter} {action other : String} {now : Nanos} {buckets : Buckets}

/-- The waits that a row of reservations is answered, each beside its action. -/
def waits (l : Limiter) : List (String × Nanos) → Buckets → List (String × Nanos)
  | [], _ => []
  | (action, now) :: rest, buckets =>
    (action, (l.reserve action now buckets).1) :: waits l rest (l.reserve action now buckets).2

/-- The waits for an action from its own bucket. -/
def ownWaits (l : Limiter) (action : String) (bucket? : Option (Bucket Binary64))
    (times : List Nanos) : List Nanos :=
  match l.rate? action with
  | none => times.map fun _ => 0
  | some rate => (Bucket.serve Nanos.toSeconds rate bucket? times).map turn

/-! ## One reservation -/

theorem reserve_of_unlimited (h : l.rate? action = none) :
    l.reserve action now buckets = (0, buckets) := by
  simp [reserve, h]

theorem lookup_filter_ne (h : action ≠ other) :
    (buckets.filter (·.1 ≠ other)).lookup action = buckets.lookup action := by
  induction buckets with
  | nil => rfl
  | cons entry rest ih =>
      by_cases hentry : entry.1 = other
      · have hne : (action == entry.1) = false := by simp [hentry, h]
        rw [List.filter_cons_of_neg (by simp [hentry]), ih, List.lookup_cons, hne]
      · rw [List.filter_cons_of_pos (by simp [hentry]), List.lookup_cons, List.lookup_cons, ih]

theorem lookup_reserve_of_ne (h : action ≠ other) :
    (l.reserve other now buckets).2.lookup action = buckets.lookup action := by
  cases hrate : l.rate? other with
  | none => rw [reserve_of_unlimited hrate]
  | some rate =>
      have hne : (action == other) = false := by simp [h]
      simp only [reserve, hrate, List.lookup_cons, hne]
      exact lookup_filter_ne h

theorem ownWaits_reserve (l : Limiter) (action : String) (now : Nanos) (buckets : Buckets)
    (times : List Nanos) :
    l.ownWaits action (buckets.lookup action) (now :: times) =
      (l.reserve action now buckets).1 ::
        l.ownWaits action ((l.reserve action now buckets).2.lookup action) times := by
  cases hrate : l.rate? action with
  | none => simp [ownWaits, reserve_of_unlimited hrate, hrate]
  | some rate => simp [ownWaits, reserve, hrate, Bucket.serve]

/-! ## A row of reservations -/

/-- Whatever is reserved in between, an action's waits come from its own bucket. -/
theorem waits_filter (l : Limiter) (action : String) (history : List (String × Nanos))
    (buckets : Buckets) :
    (l.waits history buckets).filter (·.1 = action) =
      (l.ownWaits action (buckets.lookup action)
        ((history.filter (·.1 = action)).map Prod.snd)).map (action, ·) := by
  induction history generalizing buckets with
  | nil => cases hrate : l.rate? action <;> simp [waits, ownWaits, hrate, Bucket.serve]
  | cons entry rest ih =>
      obtain ⟨reserved, now⟩ := entry
      by_cases h : reserved = action
      · subst h
        simp only [waits, decide_true, List.filter_cons_of_pos, List.map_cons, ih,
          ownWaits_reserve]
      · simp only [waits, h, decide_false, Bool.false_eq_true, not_false_eq_true,
          List.filter_cons_of_neg, ih]
        rw [lookup_reserve_of_ne (Ne.symm h)]

@[simp] theorem map_fst_waits (history : List (String × Nanos)) (buckets : Buckets) :
    (l.waits history buckets).map Prod.fst = history.map Prod.fst := by
  induction history generalizing buckets with
  | nil => rfl
  | cons entry rest ih => simp [waits, ih]

theorem rate?_eq_none (h : l.limitFor action ≤ 0 ∨ (l.limitFor action).isFinite = false) :
    l.rate? action = none := by
  rcases h with h | h
  · simp [rate?, Binary64.not_lt_of_le h]
  · simp [rate?, h]

/-- Actions do not interfere: the waits for one are those that its reservations are answered when
all others are left out, and an action without a limit never waits. -/
theorem waits_isolated (l : Limiter) (action : String) (history : List (String × Nanos))
    (buckets : Buckets) :
    (l.waits history buckets).filter (·.1 = action) =
        l.waits (history.filter (·.1 = action)) buckets ∧
      (l.limitFor action ≤ 0 ∨ (l.limitFor action).isFinite = false →
        ∀ wait, (action, wait) ∈ l.waits history buckets → wait = 0) := by
  constructor
  · have halone : ∀ answered ∈ l.waits (history.filter (·.1 = action)) buckets,
        answered.1 = action := by
      intro answered hanswered
      have hfst := List.mem_map_of_mem (f := Prod.fst) hanswered
      rw [map_fst_waits] at hfst
      obtain ⟨entry, hentry, heq⟩ := List.mem_map.mp hfst
      rw [← heq]
      exact of_decide_eq_true (List.mem_filter.mp hentry).2
    calc (l.waits history buckets).filter (·.1 = action)
        = (l.waits (history.filter (·.1 = action)) buckets).filter (·.1 = action) := by
          rw [waits_filter, waits_filter, List.filter_filter]
          simp only [Bool.and_self]
      _ = l.waits (history.filter (·.1 = action)) buckets :=
          List.filter_eq_self.mpr fun answered h => decide_eq_true (halone answered h)
  · intro hrate wait hwait
    have hown : (action, wait) ∈ (l.waits history buckets).filter (·.1 = action) :=
      List.mem_filter.mpr ⟨hwait, by simp⟩
    rw [waits_filter, ownWaits, rate?_eq_none hrate] at hown
    simp only [List.map_map, List.mem_map, Function.comp_apply, Prod.mk.injEq, true_and] at hown
    obtain ⟨-, -, hzero⟩ := hown
    exact hzero.symm

/-- One change a second, and no limit on looks. -/
def unevenLimiter : Limiter := (Limiter.ofRate 1).withLimit "GetDisk" 0

/-- Changes and looks in turn, of which some come together. -/
def mixedHistory : List (String × Nanos) :=
  [("CreateDisk", 0), ("GetDisk", 0), ("CreateDisk", 0), ("GetDisk", .millis 200),
    ("CreateDisk", .millis 500)]

theorem waits_isolated_getDisk :
    unevenLimiter.limitFor "GetDisk" ≤ 0 ∧
      unevenLimiter.waits mixedHistory [] =
        [("CreateDisk", 0), ("GetDisk", 0), ("CreateDisk", .seconds 1), ("GetDisk", 0),
          ("CreateDisk", .millis 1500)] ∧
      (unevenLimiter.waits mixedHistory []).filter (·.1 = "GetDisk") =
        unevenLimiter.waits (mixedHistory.filter (·.1 = "GetDisk")) [] ∧
      ∀ wait, ("GetDisk", wait) ∈ unevenLimiter.waits mixedHistory [] → wait = 0 := by
  have hrate : unevenLimiter.limitFor "GetDisk" ≤ 0 := by decide +kernel
  obtain ⟨hisolated, hnever⟩ := waits_isolated unevenLimiter "GetDisk" mixedHistory []
  exact ⟨hrate, by decide +kernel, hisolated, hnever (.inl hrate)⟩

end Limiter

end Settle
