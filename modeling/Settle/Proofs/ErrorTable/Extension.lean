import Settle.Proofs.ErrorTable.Lookup

/-! # What an extension changes

Where the lists of an extension overlap, a class that allows less goes before one that allows more,
and a listed code has its class whatever the table said before. Other codes change with a key that
covers them only if no longer key did so before. -/

namespace Settle

/-- The class that the lists give to a code. -/
def CodeLists.class? (lists : CodeLists) (code : String) : Option CodeClass :=
  if code ∈ lists.fatal then some .fatal
  else if code ∈ lists.absent then some .absent
  else if code ∈ lists.transport then some .transport
  else if code ∈ lists.transient then some .transient
  else none

/-- The same codes stand in each list, in any order and any number of times. -/
structure CodeLists.SameCodes (lists lists' : CodeLists) : Prop where
  transient : ∀ code, code ∈ lists.transient ↔ code ∈ lists'.transient
  transport : ∀ code, code ∈ lists.transport ↔ code ∈ lists'.transport
  absent : ∀ code, code ∈ lists.absent ↔ code ∈ lists'.absent
  fatal : ∀ code, code ∈ lists.fatal ↔ code ∈ lists'.fatal

theorem CodeLists.SameCodes.class?_eq {lists lists' : CodeLists} (h : lists.SameCodes lists')
    (code : String) : lists.class? code = lists'.class? code := by
  simp only [class?, h.transient, h.transport, h.absent, h.fatal]

namespace ErrorTable

variable {t : ErrorTable} {e : Edit} {k code : String} {c : CodeClass} {lists : CodeLists}

/-! ## Entries of the listed codes -/

theorem lookup_map_class (codes : List String) (c : CodeClass) (code : String) :
    (codes.map (·, c)).lookup code = if code ∈ codes then some c else none := by
  induction codes with
  | nil => rfl
  | cons listed codes ih =>
      by_cases h : code = listed
      · simp [h]
      · have hne : (code == listed) = false := beq_false_of_ne h
        rw [List.map_cons, List.lookup_cons, hne, ih]
        simp [h]

theorem lookup_entries (lists : CodeLists) (code : String) :
    lists.entries.reverse.lookup code = lists.class? code := by
  simp only [CodeLists.entries, List.reverse_append, ← List.map_reverse, List.lookup_append,
    lookup_map_class, List.mem_reverse, CodeLists.class?]
  by_cases hfatal : code ∈ lists.fatal
  · simp [hfatal]
  · by_cases habsent : code ∈ lists.absent
    · simp [hfatal, habsent]
    · by_cases htransport : code ∈ lists.transport
      · simp [hfatal, habsent, htransport]
      · simp [hfatal, habsent, htransport]

/-- A listed code has its class from the lists, any other the one that it had. -/
theorem entry?_extend (t : ErrorTable) (lists : CodeLists) (code : String) :
    entry? (t.extend lists) code = ((lists.class? code).or <| t.entry? code) := by
  have hentries : (t.extend lists).entries = lists.entries.reverse ++ t.entries :=
    insertAll_entries t lists.entries
  unfold entry?
  rw [hentries, List.lookup_append, lookup_entries]

theorem entry?_configured (lists : CodeLists) (code : String) :
    entry? (configured lists) code = (lists.class? code).or (builtIn.class? code) := by
  have hstandard : standard.entry? code = builtIn.class? code := by
    rw [standard, entry?_extend]
    exact Option.or_none
  rw [configured, entry?_extend, hstandard]

theorem lookup_of_own (h : t.entry? code = some c) : t.lookup code = some c := by
  rw [lookup, lookupPath, String.ofList_toList, h]

/-! ## Keys that a change adds -/

theorem entry?_edit (t : ErrorTable) (e : Edit) (k : String) :
    entry? (t.edit e) k = (( entry? (empty.edit e) k).or <| t.entry? k) := by
  unfold entry?
  rw [edit_entries, edit_entries, List.lookup_append]
  simp [empty]

/-- The change registers the key. -/
def Edit.Adds (e : Edit) (k : String) : Prop := ∃ c, (k, c) ∈ e.entries

theorem entry?_empty_edit : entry? (empty.edit e) k ≠ none ↔ e.Adds k := by
  unfold entry?
  rw [edit_entries, ne_eq, List.lookup_eq_none_iff]
  simp [empty, Edit.Adds]

theorem entry?_edit_ne_none : entry? (t.edit e) k ≠ none ↔ e.Adds k ∨ t.entry? k ≠ none := by
  rw [entry?_edit, ← entry?_empty_edit]
  cases entry? (empty.edit e) k <;> simp

/-- The change adds a key that covers the code, and no longer key did so before. -/
def Overrides (e : Edit) (t : ErrorTable) (code : String) : Prop :=
  ∃ k, e.Adds k ∧ Covers k code ∧
    ∀ other, Covers other code → t.entry? other ≠ none → other.length ≤ k.length

/-- A change that overrides a code decides about it alone. -/
theorem lookup_of_overrides (h : Overrides e t code) :
    (t.edit e).lookup code = (empty.edit e).lookup code := by
  obtain ⟨k, hk, hcovers, hlongest⟩ := h
  cases hnew : (empty.edit e).lookup code with
  | none => exact (entry?_empty_edit.mpr hk (lookup_eq_none_iff.mp hnew k hcovers)).elim
  | some c =>
      obtain ⟨found, hfound, hentry, hlast⟩ := lookup_eq_some_iff.mp hnew
      refine lookup_eq_some_iff.mpr ⟨found, hfound, ?_, fun other hother hsome => ?_⟩
      · rw [entry?_edit, hentry, Option.some_or]
      · rcases entry?_edit_ne_none.mp hsome with hadded | hold
        · exact hlast other hother (entry?_empty_edit.mpr hadded)
        · have hle := hlongest other hother hold
          exact Nat.le_trans hle (hlast k hcovers (entry?_empty_edit.mpr hk))

theorem lookup_of_not_overrides (h : ¬ Overrides e t code) :
    (t.edit e).lookup code = t.lookup code := by
  cases hold : t.lookup code with
  | none =>
      have hnone := lookup_eq_none_iff.mp hold
      refine lookup_eq_none_iff.mpr fun k hcovers => ?_
      by_contra hsome
      rcases entry?_edit_ne_none.mp hsome with hadded | hentry
      · exact h ⟨k, hadded, hcovers, fun other hother hne => (hne (hnone other hother)).elim⟩
      · exact hentry (hnone k hcovers)
  | some c =>
      obtain ⟨k, hcovers, hentry, hlongest⟩ := lookup_eq_some_iff.mp hold
      have hshorter : ∀ added, e.Adds added → Covers added code → added.length < k.length := by
        intro added hadded hadds
        by_contra hlong
        refine h ⟨added, hadded, hadds, fun other hother hsome => ?_⟩
        exact Nat.le_trans (hlongest other hother hsome) (Nat.le_of_not_lt hlong)
      have hnew : entry? (empty.edit e) k = none := by
        by_contra hsome
        exact Nat.lt_irrefl _ (hshorter k (entry?_empty_edit.mp hsome) hcovers)
      refine lookup_eq_some_iff.mpr ⟨k, hcovers, ?_, fun other hother hsome => ?_⟩
      · rw [entry?_edit, hnew, Option.none_or, hentry]
      · rcases entry?_edit_ne_none.mp hsome with hadded | hkept
        · exact Nat.le_of_lt (hshorter other hadded hother)
        · exact hlongest other hother hkept

/-! ## Configured tables, and any change -/

theorem lookup_configured_congr {lists' : CodeLists} (h : lists.SameCodes lists')
    (code : String) : (configured lists).lookup code = (configured lists').lookup code := by
  apply lookup_congr
  intro k _
  rw [entry?_configured, entry?_configured, h.class?_eq]

/-- What configured lists make of the codes in them, and which codes a change to a table reaches. -/
structure ExtensionSpec (lists : CodeLists) (t : ErrorTable) (e : Edit) : Prop where
  entry_eq : ∀ code,
    entry? (configured lists) code = (lists.class? code).or (builtIn.class? code)
  listed : ∀ {code c}, lists.class? code = some c → (configured lists).lookup code = some c
  sameCodes : ∀ {lists'}, lists.SameCodes lists' →
    ∀ code, (configured lists).lookup code = (configured lists').lookup code
  changed : ∀ {code}, (t.edit e).lookup code ≠ t.lookup code → Overrides e t code
  overridden : ∀ {code}, Overrides e t code →
    (t.edit e).lookup code = (empty.edit e).lookup code

/-- Listed codes have the classes of their lists, and a change reaches only codes for which it adds
a key as long as any that covered them before. -/
theorem lookup_extended (lists : CodeLists) (t : ErrorTable) (e : Edit) :
    ExtensionSpec lists t e := by
  refine
    { entry_eq := entry?_configured lists
      listed := ?_
      sameCodes := fun h => lookup_configured_congr h
      changed := ?_
      overridden := lookup_of_overrides }
  · intro code c hclass
    apply lookup_of_own
    rw [entry?_configured, hclass, Option.some_or]
  · intro code hchanged
    by_contra hnot
    exact hchanged (lookup_of_not_overrides hnot)

/-- A fatal parent leaves alone what a longer key covers. -/
example : (standard.edit (.extend { fatal := ["ResourceInUse"] })).lookup
    "ResourceInUse.ActivityInProgress.Now" = some .transient := by decide +kernel

end ErrorTable

end Settle
