import Settle.CommandLine.Command
import Settle.Proofs.Schedule
import Settle.Proofs.Settings.RoundTrip

/-! # Rows of a schedule

A schedule reads the low 32 bits of a count, so that a larger count is not listed in full. Every row
adds its delay to the time waited before it. Policies from settings wait no longer than a year at a
time, and that many years can be held. -/

namespace Settle

namespace Policy

variable {p : Policy} {m n count : Nat} {bound : Nanos}

/-! ## Counts -/

/-- The schedule and its rows list as many retries as were asked for. -/
structure ListsAll (p : Policy) (count : Nat) : Prop where
  length_schedule : (p.schedule count).length = count
  getElem?_schedule : ∀ i < count, (p.schedule count)[i]? = some (p.delay (i + 1))
  length_rows : (p.rows count).length = count

theorem schedule_mod (p : Policy) (count : Nat) :
    p.schedule (count % Nat.pow 2 32) = p.schedule count := by
  rw [schedule, schedule, Nat.mod_mod]

theorem rows_mod (p : Policy) (count : Nat) : p.rows (count % Nat.pow 2 32) = p.rows count := by
  rw [rows, rows, schedule_mod]

theorem listsAll_of_lt (h : count < Nat.pow 2 32) : p.ListsAll count where
  length_schedule := by rw [length_schedule, Nat.mod_eq_of_lt h]
  getElem?_schedule i hi := by simp [schedule_of_lt h, hi]
  length_rows := by rw [length_rows, length_schedule, Nat.mod_eq_of_lt h]

theorem schedule_isPrefix_of_le (hmn : m ≤ n) (hn : n < Nat.pow 2 32) :
    p.schedule m <+: p.schedule n := by
  obtain ⟨rest, rfl⟩ := Nat.exists_eq_add_of_le hmn
  rw [schedule_of_lt hn, schedule_of_lt (Nat.lt_of_le_of_lt hmn hn), List.range_add,
    List.map_append]
  exact List.prefix_append _ _

/-- How much of a count is listed: its low 32 bits, and all of it if it has no others. -/
structure CountSpec (p : Policy) (count : Nat) : Prop where
  listed : p.schedule count = p.schedule (count % Nat.pow 2 32) ∧
    p.rows count = p.rows (count % Nat.pow 2 32)
  listsAll_iff : p.ListsAll count ↔ count < Nat.pow 2 32
  isPrefix_iff : ∀ more, p.schedule count <+: p.schedule more ↔
    count % Nat.pow 2 32 ≤ more % Nat.pow 2 32

/-- A schedule is listed in full exactly if its count has 32 bits. -/
theorem schedule_countSpec (p : Policy) (count : Nat) : p.CountSpec count := by
  have hlow (n : Nat) : n % Nat.pow 2 32 < Nat.pow 2 32 := Nat.mod_lt n (Nat.two_pow_pos 32)
  refine
    { listed := ⟨(schedule_mod p count).symm, (rows_mod p count).symm⟩
      listsAll_iff := ⟨fun h => ?_, listsAll_of_lt⟩
      isPrefix_iff := fun more => ⟨fun h => ?_, fun h => ?_⟩ }
  · rw [← h.length_schedule, length_schedule]
    exact hlow count
  · have hle := h.length_le
    rwa [length_schedule, length_schedule] at hle
  · rw [← schedule_mod p count, ← schedule_mod p more]
    exact schedule_isPrefix_of_le h (hlow more)

/-- Of `2 ^ 32` retries none is listed, not even the first. -/
theorem schedule_wraps : ¬ write.ListsAll (Nat.pow 2 32) ∧
    write.schedule (Nat.pow 2 32) = [] ∧ write.rows (Nat.pow 2 32) = [] ∧
    ¬ write.schedule 1 <+: write.schedule (Nat.pow 2 32) := by
  have hnone : write.schedule (Nat.pow 2 32) = [] := by decide +kernel
  have hrows : write.rows (Nat.pow 2 32) = [] := by decide +kernel
  refine ⟨fun h => ?_, hnone, hrows, fun h => ?_⟩
  · have hlength := h.length_schedule
    rw [hnone] at hlength
    exact absurd hlength (by decide)
  · have hle := h.length_le
    rw [hnone, length_schedule] at hle
    exact absurd hle (by decide)

/-! ## Totals -/

/-- The rows for these delays, numbered from `retry` on and after `waited`, if every total can be
held. -/
def tally? (p : Policy) : Nat → Nanos → List Nanos → Option (List ScheduleRow)
  | _, _, [] => some []
  | retry, waited, delay :: delays => do
    let total ← waited.plus? delay
    let rows ← tally? p (retry + 1) total delays
    return { retry, delay, total, within := decide (total ≤ p.budget) } :: rows

theorem waited_eq_sum (h : n < Nat.pow 2 32) :
    p.waited n = ((List.range n).map fun i => p.delay (i + 1)).sum := by
  rw [waited, schedule_of_lt h, List.sum_eq_foldl]

theorem waited_le_mul (hdelay : ∀ retry, p.delay retry ≤ bound) (h : n < Nat.pow 2 32) :
    p.waited n ≤ n * bound := by
  induction n with
  | zero =>
      rw [waited_zero, Nat.zero_mul]
  | succ n ih =>
      rw [waited_succ h, Nat.succ_mul]
      exact Nat.add_le_add (ih (Nat.lt_of_succ_lt h)) (hdelay _)

theorem tally?_cons {retry : Nat} {waited delay : Nanos} {delays : List Nanos}
    {rows : List ScheduleRow} (h : waited + delay ≤ Nanos.longest)
    (hrest : p.tally? (retry + 1) (waited + delay) delays = some rows) :
    p.tally? retry waited (delay :: delays) =
      some (⟨retry, delay, waited + delay, decide (waited + delay ≤ p.budget)⟩ :: rows) := by
  rw [tally?, Nanos.plus?_of_le h, Option.bind_eq_bind, Option.bind_some, hrest]
  rfl

/-- The rows from the retry after `m` others on, if the last of their totals can be held. -/
theorem tally?_eq (h : m + n < Nat.pow 2 32) (hheld : p.waited (m + n) ≤ Nanos.longest) :
    p.tally? (m + 1) (p.waited m) ((List.range' m n).map fun i => p.delay (i + 1)) =
      some ((List.range' m n).map p.row) := by
  induction n generalizing m with
  | zero => rfl
  | succ n ih =>
      have hlast : m + 1 + n = m + (n + 1) := by omega
      have hnext : p.waited (m + 1) = p.waited m + p.delay (m + 1) :=
        waited_succ (Nat.lt_of_le_of_lt (by omega) h)
      have htotal : p.waited (m + 1) ≤ Nanos.longest :=
        Nat.le_trans (waited_le (by omega) h) hheld
      have hrest := ih (hlast ▸ h) (hlast ▸ hheld)
      rw [hnext] at htotal hrest
      rw [List.range'_succ, List.map_cons, List.map_cons, tally?_cons htotal hrest, row, hnext]

/-- What the rows of a count show: every retry with its delay and the time waited so far, which can
be held, and whether that is within the budget. No row is once one before it is not. -/
structure Tallied (p : Policy) (count : Nat) : Prop where
  rows_eq : p.rows count = (List.range count).map p.row
  waited_eq : ∀ n ≤ count, p.waited n = ((List.range n).map fun i => p.delay (i + 1)).sum
  held : p.tally? 1 0 (p.schedule count) = some (p.rows count)
  stays_past : (p.rows count).Pairwise fun row later =>
    row.within = false → later.within = false

theorem tallied (h : count < Nat.pow 2 32) (hheld : p.waited count ≤ Nanos.longest) :
    p.Tallied count := by
  have hrows := rows_of_lt (p := p) h
  refine
    { rows_eq := hrows
      waited_eq := fun n hn => waited_eq_sum (Nat.lt_of_le_of_lt hn h)
      held := ?_
      stays_past := ?_ }
  · have htally := tally?_eq (p := p) (m := 0) (n := count) (by rwa [Nat.zero_add])
      (by rwa [Nat.zero_add])
    rwa [waited_zero, ← List.range_eq_range', ← schedule_of_lt h, ← hrows] at htally
  · rw [hrows, List.pairwise_map]
    refine List.pairwise_lt_range.imp_of_mem fun {m n} _ hn hmn hpast => ?_
    have hle : p.waited (m + 1) ≤ p.waited (n + 1) :=
      waited_le (Nat.succ_le_succ (Nat.le_of_lt hmn))
        (Nat.lt_of_le_of_lt (List.mem_range.mp hn) h)
    simp only [row, decide_eq_false_iff_not, Nat.not_le] at hpast ⊢
    exact Nat.lt_of_lt_of_le hpast hle

/-! ## Policies from settings -/

theorem Configured.delay_le_year (h : p.Configured) (retry : Nat) : p.delay retry ≤ Nanos.year :=
  Nat.le_trans (delay_le_ceiling h.factor.2 h.ceiling.readsBack retry) h.ceiling.le_year

/-- As many years as 32 bits count can be held. -/
theorem Configured.waited_le_longest (h : p.Configured) (hn : n < Nat.pow 2 32) :
    p.waited n ≤ Nanos.longest := by
  calc p.waited n ≤ n * Nanos.year := waited_le_mul h.delay_le_year hn
    _ ≤ Nat.pow 2 32 * Nanos.year := Nat.mul_le_mul_right _ (Nat.le_of_lt hn)
    _ ≤ Nanos.longest := by decide

end Policy

namespace Settings

open CommandLine

theorem configured_read : Policy.read.Configured :=
  Policy.configured_normalized (Nanos.configured_of_lt (by decide))
    (Nanos.configured_of_lt (by decide)) (Nanos.configured_of_lt (by decide))

theorem configured_write : Policy.write.Configured :=
  Policy.configured_normalized (Nanos.configured_of_lt (by decide))
    (Nanos.configured_of_lt (by decide)) (Nanos.configured_of_lt (by decide))

/-- A section gives a policy of its own, and a missing one a built-in policy. -/
theorem configured_section {builtIn : Policy} (h : builtIn.Configured)
    (given : Option RetrySettings) :
    ((given.map RetrySettings.policy).getD builtIn).Configured := by
  cases given with
  | none => exact h
  | some settings => exact settings.configured_policy

theorem configured_profile (s : Settings) (profile : Profile) :
    (profile.policy s.policies).Configured := by
  cases profile with
  | read => exact configured_section configured_read s.readRetry
  | write => exact configured_section configured_write s.writeRetry
  | poll => exact configured_section configured_write s.pollRetry

/-- The rows of every profile, whatever the settings are. -/
theorem schedule_tallied (s : Settings) (profile : Profile) {count : Nat}
    (h : count < Nat.pow 2 32) : (profile.policy s.policies).Tallied count :=
  Policy.tallied h ((s.configured_profile profile).waited_le_longest h)

/-- Settings that ask for endless delays and are given a year for each. -/
def yearly : Settings where
  pollRetry := some ⟨.infinite false, .infinite false, .infinite false, 1, false⟩

theorem schedule_tallied_yearly :
    4294967295 < Nat.pow 2 32 ∧ (Profile.poll.policy yearly.policies).delay 1 = Nanos.year ∧
      (Profile.poll.policy yearly.policies).Tallied 4294967295 :=
  ⟨by decide, by decide +kernel, schedule_tallied yearly .poll (by decide)⟩

end Settings

end Settle
