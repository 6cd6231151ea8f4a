import Mathlib.Order.Bounds.Basic
import Settle.Schedule

/-! # What a schedule lists

Every row of a schedule adds its delay to the time waited in the rows before it, so the time
waited never falls, and rises where delays are positive. -/

namespace Settle.Policy

variable {p : Policy} {m n count : Nat}

/-- The time that the first `n` delays of a schedule take together. -/
def waited (p : Policy) (n : Nat) : Nanos := (p.schedule n).foldl (· + ·) 0

theorem schedule_of_lt (h : count < Nat.pow 2 32) :
    p.schedule count = (List.range count).map fun i => p.delay (i + 1) := by
  rw [schedule, Nat.mod_eq_of_lt h]

theorem waited_zero (p : Policy) : p.waited 0 = 0 := by
  rw [waited, schedule_of_lt (Nat.two_pow_pos 32)]
  rfl

theorem waited_succ (h : n + 1 < Nat.pow 2 32) :
    p.waited (n + 1) = p.waited n + p.delay (n + 1) := by
  rw [waited, waited, schedule_of_lt h, schedule_of_lt (Nat.lt_of_succ_lt h), List.range_succ,
    List.map_append, List.foldl_append, List.map_singleton, List.foldl_cons, List.foldl_nil]

theorem waited_le (hmn : m ≤ n) (hn : n < Nat.pow 2 32) : p.waited m ≤ p.waited n := by
  induction n with
  | zero =>
      obtain rfl := Nat.le_zero.mp hmn
      exact Nat.le_refl _
  | succ n ih =>
      rcases Nat.eq_or_lt_of_le hmn with rfl | hlt
      · exact Nat.le_refl _
      · rw [waited_succ hn]
        exact Nat.le_trans (ih (Nat.le_of_lt_succ hlt) (Nat.lt_of_succ_lt hn))
          (Nat.le_add_right _ _)

theorem delay_mem_schedule (h : count < Nat.pow 2 32) (hn : n < count) :
    p.delay (n + 1) ∈ p.schedule count := by
  rw [schedule_of_lt h]
  exact List.mem_map.mpr ⟨n, List.mem_range.mpr hn, rfl⟩

theorem waited_lt (h : count < Nat.pow 2 32) (hpos : ∀ d ∈ p.schedule count, 0 < d)
    (hmn : m < n) (hn : n ≤ count) : p.waited m < p.waited n := by
  have hm : m + 1 < Nat.pow 2 32 := Nat.lt_of_le_of_lt (Nat.le_trans hmn hn) h
  have hdelay := hpos _ (delay_mem_schedule h (Nat.lt_of_lt_of_le hmn hn))
  calc p.waited m
      < p.waited m + p.delay (m + 1) := Nat.lt_add_of_pos_right hdelay
    _ = p.waited (m + 1) := (waited_succ hm).symm
    _ ≤ p.waited n := waited_le hmn (Nat.lt_of_le_of_lt hn h)

/-- The budget is used up by the first `n` delays together, and by no fewer. -/
def UsedUpAt (p : Policy) (n : Nat) : Prop := IsLeast {n | p.budget ≤ p.waited n} n

theorem UsedUpAt.waited_lt (h : p.UsedUpAt n) (hmn : m < n) : p.waited m < p.budget :=
  Nat.lt_of_not_le fun hle => Nat.not_le.mpr hmn (h.2 hle)

/-- A cumulative wait that meets the budget is the one that uses it up. -/
theorem UsedUpAt.waited_eq (h : p.UsedUpAt n) (hcount : count < Nat.pow 2 32)
    (hmet : ∃ m ≤ count, p.waited m = p.budget) : p.waited n = p.budget := by
  obtain ⟨m, hm, heq⟩ := hmet
  have hle : n ≤ m := h.2 (Nat.le_of_eq heq.symm)
  refine Nat.le_antisymm ?_ h.1
  calc p.waited n
      ≤ p.waited m := waited_le hle (Nat.lt_of_le_of_lt hm hcount)
    _ = p.budget := heq

theorem within_iff_of_met (hcount : count < Nat.pow 2 32) (hn : n ≤ count)
    (hpos : ∀ d ∈ p.schedule count, 0 < d) (hmet : p.waited n = p.budget) :
    ∀ i < count, p.waited (i + 1) ≤ p.budget ↔ i < n := by
  intro i hi
  rw [← hmet]
  refine ⟨fun hwaited => Nat.lt_of_not_le fun hni => ?_, fun hin => ?_⟩
  · have hmore := waited_lt hcount hpos (Nat.lt_succ_of_le hni) hi
    exact Nat.not_le.mpr hmore hwaited
  · exact waited_le hin (Nat.lt_of_le_of_lt hn hcount)

theorem UsedUpAt.within_iff_of_passed (h : p.UsedUpAt (n + 1)) (hcount : count < Nat.pow 2 32)
    (hpassed : p.budget < p.waited (n + 1)) :
    ∀ i < count, p.waited (i + 1) ≤ p.budget ↔ i < n := by
  intro i hi
  refine ⟨fun hwaited => Nat.lt_of_not_le fun hni => ?_, fun hin => ?_⟩
  · have hmore : p.waited (n + 1) ≤ p.waited (i + 1) :=
      waited_le (Nat.succ_le_succ hni) (Nat.lt_of_le_of_lt hi hcount)
    exact Nat.not_le.mpr hpassed (Nat.le_trans hmore hwaited)
  · exact Nat.le_of_lt (h.waited_lt (Nat.succ_lt_succ hin))

/-! ## Rows -/

/-- The row for the retry after `n` others. -/
def row (p : Policy) (n : Nat) : ScheduleRow where
  retry := n + 1
  delay := p.delay (n + 1)
  total := p.waited (n + 1)
  within := decide (p.waited (n + 1) ≤ p.budget)

@[simp] theorem row_retry (p : Policy) (n : Nat) : (p.row n).retry = n + 1 := by rw [row]

@[simp] theorem row_delay (p : Policy) (n : Nat) : (p.row n).delay = p.delay (n + 1) := by
  rw [row]

@[simp] theorem row_total (p : Policy) (n : Nat) : (p.row n).total = p.waited (n + 1) := by
  rw [row]

theorem rows_of_lt (h : count < Nat.pow 2 32) :
    p.rows count = (List.range count).map p.row := by
  refine List.ext_getElem ?_ fun i hi hi' => ?_
  · rw [length_rows, length_schedule, Nat.mod_eq_of_lt h, List.length_map, List.length_range]
  · have hcount : i < count := by simpa using hi'
    have htotal : ((p.schedule count).take (i + 1)).foldl (· + ·) 0 = p.waited (i + 1) := by
      rw [waited, schedule_of_lt (Nat.lt_of_le_of_lt hcount h), schedule_of_lt h, ← List.map_take,
        List.take_range, Nat.min_eq_left hcount]
    simp only [rows, List.getElem_mapIdx, List.getElem_zip, List.getElem_tail, List.getElem_scanl,
      htotal, List.getElem_map, List.getElem_range, row]
    simp [schedule_of_lt h]

theorem filter_within {k : Nat} (h : count < Nat.pow 2 32) (hk : k ≤ count)
    (hwithin : ∀ i < count, p.waited (i + 1) ≤ p.budget ↔ i < k) :
    (p.rows count).filter (·.within) = (List.range k).map p.row := by
  obtain ⟨rest, rfl⟩ := Nat.exists_eq_add_of_le hk
  have hfirst : ∀ i ∈ List.range k, ((·.within) ∘ p.row) i = true := by
    intro i hi
    have hi := List.mem_range.mp hi
    exact decide_eq_true ((hwithin i (Nat.lt_add_right rest hi)).mpr hi)
  have hlast : ∀ i ∈ (List.range rest).map (k + ·), ¬ ((·.within) ∘ p.row) i = true := by
    intro i hi
    obtain ⟨j, hj, rfl⟩ := List.mem_map.mp hi
    have hj := List.mem_range.mp hj
    intro hrow
    have hlt := (hwithin (k + j) (Nat.add_lt_add_left hj k)).mp (of_decide_eq_true hrow)
    exact Nat.not_lt.mpr (Nat.le_add_right k j) hlt
  rw [rows_of_lt h, List.filter_map, List.range_add, List.filter_append,
    List.filter_eq_self.mpr hfirst, List.filter_eq_nil_iff.mpr hlast, List.append_nil]

/-- The row after those within the budget is the first that is past it. -/
theorem find_past {k : Nat} (h : count < Nat.pow 2 32) (hk : k < count)
    (hwithin : ∀ i < count, p.waited (i + 1) ≤ p.budget ↔ i < k) :
    (p.rows count).find? (!·.within) = some (p.row k) := by
  obtain ⟨rest, rfl⟩ := Nat.exists_eq_add_of_lt hk
  have hsplit : p.rows (k + rest + 1) = (List.range k).map p.row ++
      p.row k :: ((List.range rest).map fun i => p.row (k + (i + 1))) := by
    rw [rows_of_lt h, Nat.add_assoc, List.range_add, List.map_append, List.map_map,
      List.range_succ_eq_map, List.map_cons, List.map_map]
    rfl
  refine List.find?_eq_some_iff_append.mpr ⟨?_, _, _, hsplit, ?_⟩
  · have hpast : ¬ p.waited (k + 1) ≤ p.budget := fun hle => (hwithin k hk).mp hle |>.false
    simp [row, hpast]
  · intro past hpast
    obtain ⟨i, hi, rfl⟩ := List.mem_map.mp hpast
    have hi := List.mem_range.mp hi
    simp [row, (hwithin i (Nat.lt_trans hi hk)).mpr hi]

end Settle.Policy
