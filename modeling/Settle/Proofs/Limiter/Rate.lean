import Mathlib.Algebra.Order.Field.Rat
import Mathlib.Data.List.Chain
import Mathlib.Tactic.Linarith
import Settle.Proofs.Limiter.Isolation

/-! # The rate that a bucket keeps

A bucket over exact numbers gives its turns in order, and no window of time holds more of them than
its rate and one burst allow. A limiter makes the same takes over doubles. The front of a bucket is
where the tokens run out that were given away so far; every caller moves it by one token at least,
and a turn is never before it. -/

namespace Settle

/-- A length of time in seconds, as an exact number. -/
def Nanos.exactSeconds (d : Nanos) : ℚ := d / perSecond

theorem Nanos.exactSeconds_sub {now past : Nanos} (h : past ≤ now) :
    exactSeconds (now - past) = exactSeconds now - exactSeconds past := by
  rw [exactSeconds, exactSeconds, exactSeconds, Nat.cast_sub h, sub_div]

theorem Nanos.exactSeconds_mono {past now : Nanos} (h : past ≤ now) :
    exactSeconds past ≤ exactSeconds now := by
  have hcast : (past : ℚ) ≤ now := Nat.cast_le.mpr h
  exact div_le_div_of_nonneg_right hcast (Nat.cast_nonneg _)

namespace Bucket

/-- The wait in seconds that an exact bucket stands for, a year at most. -/
def exactWait (b : Bucket ℚ) : ℚ := min b.debt (Nanos.exactSeconds .year)

/-- The turn, in seconds on the clock, that is promised to the caller of the last take. -/
def slot (b : Bucket ℚ) : ℚ := Nanos.exactSeconds b.updated + b.exactWait

/-- How far tokens are given away, where `b.rate` of them make a second. -/
def front (b : Bucket ℚ) : ℚ := b.rate * Nanos.exactSeconds b.updated - b.tokens

/-- One take comes after another: the rate is the same, and the front has moved by a token. -/
structure Precedes (b c : Bucket ℚ) : Prop where
  rate_eq : c.rate = b.rate
  updated_le : b.updated ≤ c.updated
  front_le : b.front + 1 ≤ c.front

instance : Trans Precedes Precedes Precedes where
  trans h h' :=
    { rate_eq := h'.rate_eq.trans h.rate_eq
      updated_le := h.updated_le.trans h'.updated_le
      front_le := by linarith [h.front_le, h'.front_le] }

variable {b c : Bucket ℚ} {rate : ℚ} {now : Nanos} {times : List Nanos} {bs : List (Bucket ℚ)}
  {bucket? : Option (Bucket ℚ)} {i j : Nat}

/-! ## One take -/

theorem take_tokens_le (b : Bucket ℚ) (now : Nanos) :
    (b.take Nanos.exactSeconds now).tokens ≤ b.rate - 1 :=
  sub_le_sub_right (min_le_right _ _) 1

theorem precedes_take (h : b.updated ≤ now) : b.Precedes (b.take Nanos.exactSeconds now) := by
  refine ⟨rfl, h, ?_⟩
  have hrefill := min_le_left (b.tokens + Nanos.exactSeconds (now - b.updated) * b.rate) b.rate
  rw [Nanos.exactSeconds_sub h] at hrefill
  simp only [front, take, Nanos.exactSeconds_sub h]
  linarith

theorem rate_mul_debt (hr : 0 < b.rate) : b.rate * b.debt = max 0 (-b.tokens) := by
  unfold debt
  split
  · next h => rw [mul_zero, max_eq_left (neg_nonpos.mpr h)]
  · next h => rw [mul_div_cancel₀ _ hr.ne', max_eq_right (neg_nonneg.mpr (not_le.mp h).le)]

theorem rate_mul_slot (hr : 0 < b.rate) (hw : b.exactWait < Nanos.exactSeconds .year) :
    b.rate * b.slot = max (b.rate * Nanos.exactSeconds b.updated) b.front := by
  have hdebt : b.debt < Nanos.exactSeconds .year :=
    (min_lt_iff.mp hw).resolve_right (lt_irrefl _)
  have hwait : b.exactWait = b.debt := min_eq_left hdebt.le
  rw [slot, hwait, mul_add, rate_mul_debt hr, front, sub_eq_add_neg, ← max_add_add_left, add_zero]

/-! ## A row of takes -/

@[simp] theorem map_updated_serve (bucket? : Option (Bucket ℚ)) (times : List Nanos) :
    (serve Nanos.exactSeconds rate bucket? times).map updated = times := by
  induction times generalizing bucket? with
  | nil => rfl
  | cons now times ih => simp [serve, take, ih]

theorem serve_bounds (h : ∀ b ∈ bucket?, b.rate = rate) :
    ∀ b ∈ serve Nanos.exactSeconds rate bucket? times, b.rate = rate ∧ b.tokens ≤ rate - 1 := by
  induction times generalizing bucket? with
  | nil => exact nofun
  | cons now times ih =>
      have hfilled : (bucket?.getD (.full rate now)).rate = rate := by
        cases bucket? with
        | none => rfl
        | some b => exact h b rfl
      have hhead : ((bucket?.getD (.full rate now)).take Nanos.exactSeconds now).rate = rate :=
        hfilled
      intro b hb
      rcases List.mem_cons.mp hb with rfl | hb
      · refine ⟨hhead, (take_tokens_le _ _).trans_eq ?_⟩
        rw [hfilled]
      · refine ih ?_ b hb
        rintro b ⟨⟩
        exact hhead

theorem isChain_serve (ht : (b.updated :: times).IsChain (· ≤ ·)) :
    (b :: serve Nanos.exactSeconds rate (some b) times).IsChain Precedes := by
  induction times generalizing b with
  | nil => exact .singleton b
  | cons now times ih =>
      obtain ⟨hle, hrest⟩ := List.isChain_cons_cons.mp ht
      exact .cons_cons (precedes_take hle) (ih hrest)

/-- Buckets after takes in order, none of which has to wait for a year. -/
structure Served (rate : ℚ) (bs : List (Bucket ℚ)) : Prop where
  rate_eq : ∀ b ∈ bs, b.rate = rate
  tokens_le : ∀ b ∈ bs, b.tokens ≤ rate - 1
  inTime : ∀ b ∈ bs, b.exactWait < Nanos.exactSeconds .year
  later : bs.Pairwise Precedes

theorem served (ht : times.Pairwise (· ≤ ·))
    (hw : ∀ b ∈ serve Nanos.exactSeconds rate none times,
      b.exactWait < Nanos.exactSeconds .year) :
    Served rate (serve Nanos.exactSeconds rate none times) := by
  have hbounds : ∀ b ∈ serve Nanos.exactSeconds rate none times,
      b.rate = rate ∧ b.tokens ≤ rate - 1 := serve_bounds nofun
  refine
    { rate_eq := fun b hb => (hbounds b hb).1
      tokens_le := fun b hb => (hbounds b hb).2
      inTime := hw
      later := ?_ }
  cases times with
  | nil => exact .nil
  | cons now times => exact (isChain_serve ht.isChain).pairwise

theorem Served.sublist {part : List (Bucket ℚ)} (h : Served rate bs) (hs : part.Sublist bs) :
    Served rate part where
  rate_eq b hb := h.rate_eq b (hs.subset hb)
  tokens_le b hb := h.tokens_le b (hs.subset hb)
  inTime b hb := h.inTime b (hs.subset hb)
  later := h.later.sublist hs

/-! ## Turns -/

theorem Served.rate_mul_slot (h : Served rate bs) (hr : 0 < rate) (hb : b ∈ bs) :
    rate * b.slot = max (rate * Nanos.exactSeconds b.updated) b.front := by
  have heq := h.rate_eq b hb
  rw [← heq] at hr ⊢
  exact Bucket.rate_mul_slot hr (h.inTime b hb)

theorem Served.front_le_slot (h : Served rate bs) (hr : 0 < rate) (hb : b ∈ bs) :
    b.front ≤ rate * b.slot := by
  rw [h.rate_mul_slot hr hb]
  exact le_max_right _ _

/-- A turn is ahead of the front by what is left of the burst at most. -/
theorem Served.slot_le_front (h : Served rate bs) (hr : 0 < rate) (hb : b ∈ bs) :
    rate * b.slot ≤ b.front + max (rate - 1) 0 := by
  rw [h.rate_mul_slot hr hb]
  have htokens := h.tokens_le b hb
  have hleft := le_max_left (rate - 1) 0
  have hnone := le_max_right (rate - 1) 0
  refine max_le ?_ ?_
  · rw [front, h.rate_eq b hb]
    linarith
  · linarith

theorem Served.slots_ordered (h : Served rate bs) (hr : 0 < rate) :
    (bs.map slot).Pairwise (· ≤ ·) := by
  refine List.pairwise_map.mpr (h.later.imp_of_mem fun {b c} hb hc hbc => ?_)
  have hmax : rate * b.slot ≤ rate * c.slot := by
    rw [h.rate_mul_slot hr hb, h.rate_mul_slot hr hc]
    refine max_le_max ?_ ?_
    · exact mul_le_mul_of_nonneg_left (Nanos.exactSeconds_mono hbc.updated_le) hr.le
    · linarith [hbc.front_le]
  exact le_of_mul_le_mul_left hmax hr

theorem front_add_le (h : bs.Pairwise Precedes) (hij : i ≤ j) (hj : j < bs.length) :
    bs[i].front + (j - i) ≤ bs[j].front := by
  induction j, hij using Nat.le_induction with
  | base => simp
  | succ j hij ih =>
      have hprev := ih (Nat.lt_of_succ_lt hj)
      have hstep := (List.pairwise_iff_getElem.mp h j (j + 1) (Nat.lt_of_succ_lt hj) hj
        (Nat.lt_succ_self j)).front_le
      push_cast
      linarith

theorem Served.apart (h : Served rate bs) (hr : 0 < rate) (hij : i ≤ j) (hj : j < bs.length) :
    (j - i : ℚ) ≤ rate * (bs[j].slot - bs[i].slot) + max (rate - 1) 0 := by
  have hfront := front_add_le h.later hij hj
  have hlast := h.front_le_slot hr (List.getElem_mem hj)
  have hfirst := h.slot_le_front hr (List.getElem_mem (Nat.lt_of_le_of_lt hij hj))
  linarith

/-- The turns in a window of time are those of a row of takes as well, and the first and the last of
them are not further apart than the window is long. -/
theorem Served.window (h : Served rate bs) (hr : 0 < rate) {start span : ℚ} (hspan : 0 ≤ span) :
    ((bs.map slot).countP fun s => start ≤ s ∧ s ≤ start + span : ℚ) ≤
      max rate 1 + rate * span := by
  let part := bs.filter fun b => start ≤ b.slot ∧ b.slot ≤ start + span
  have hcount : ((bs.map slot).countP fun s => start ≤ s ∧ s ≤ start + span) = part.length := by
    rw [List.countP_map, List.countP_eq_length_filter]
    rfl
  have hpart : Served rate part := h.sublist List.filter_sublist
  have hinside : ∀ b ∈ part, start ≤ b.slot ∧ b.slot ≤ start + span := by
    intro b hb
    exact of_decide_eq_true (List.mem_filter.mp hb).2
  have hburst : max rate 1 = max (rate - 1) 0 + 1 := by
    rw [← max_add_add_right, sub_add_cancel, zero_add]
  have hlength : 0 ≤ rate * span := mul_nonneg hr.le hspan
  rw [hcount, hburst]
  cases hn : part.length with
  | zero =>
      have hnone := le_max_right (rate - 1) 0
      push_cast
      linarith
  | succ n =>
      have hlt : n < part.length := by omega
      have hapart := hpart.apart hr (Nat.zero_le n) hlt
      have hfirst := (hinside _ (List.getElem_mem (Nat.lt_of_le_of_lt (Nat.zero_le n) hlt))).1
      have hlast := (hinside _ (List.getElem_mem hlt)).2
      have hspread : rate * (part[n].slot - part[0].slot) ≤ rate * span :=
        mul_le_mul_of_nonneg_left (by linarith) hr.le
      push_cast at hapart ⊢
      linarith

/-- The turns that a bucket with this rate gives to callers at `times`, who leave it as `bs`: they
come in order, and no window of time holds more of them than one burst and the rate allow. -/
structure KeepsRate (rate : ℚ) (times : List Nanos) (bs : List (Bucket ℚ)) : Prop where
  asked : bs.map updated = times
  ordered : (bs.map slot).Pairwise (· ≤ ·)
  apart : ∀ {i j} (hij : i < j) (hj : j < bs.length),
    (j - i : ℚ) ≤ rate * (bs[j].slot - bs[i].slot) + max (rate - 1) 0
  window : ∀ {start span : ℚ}, 0 ≤ span →
    ((bs.map slot).countP fun s => start ≤ s ∧ s ≤ start + span : ℚ) ≤ max rate 1 + rate * span

theorem serve_keepsRate (hr : 0 < rate) (ht : times.Pairwise (· ≤ ·))
    (hw : ∀ b ∈ serve Nanos.exactSeconds rate none times,
      b.exactWait < Nanos.exactSeconds .year) :
    KeepsRate rate times (serve Nanos.exactSeconds rate none times) := by
  have hserved := served ht hw
  exact
    { asked := map_updated_serve none times
      ordered := hserved.slots_ordered hr
      apart := fun hij hj => hserved.apart hr hij.le hj
      window := hserved.window hr }

/-- A burst with a queue behind it, and callers after a short and a long pause. -/
def unevenCalls : List Nanos := [0, 0, 0, 0, .seconds 1, .seconds 4]

theorem serve_keepsRate_unevenCalls :
    0 < (5 / 2 : ℚ) ∧ unevenCalls.Pairwise (· ≤ ·) ∧
      (∀ b ∈ serve Nanos.exactSeconds (5 / 2) none unevenCalls,
        b.exactWait < Nanos.exactSeconds .year) ∧
      (serve Nanos.exactSeconds (5 / 2) none unevenCalls).map slot =
        [0, 0, 1 / 5, 3 / 5, 1, 4] ∧
      KeepsRate (5 / 2) unevenCalls (serve Nanos.exactSeconds (5 / 2) none unevenCalls) := by
  have hr : 0 < (5 / 2 : ℚ) := by decide +kernel
  have ht : unevenCalls.Pairwise (· ≤ ·) := by decide
  have hw : ∀ b ∈ serve Nanos.exactSeconds (5 / 2) none unevenCalls,
      b.exactWait < Nanos.exactSeconds .year := by decide +kernel
  exact ⟨hr, ht, hw, by decide +kernel, serve_keepsRate hr ht hw⟩

end Bucket

end Settle
