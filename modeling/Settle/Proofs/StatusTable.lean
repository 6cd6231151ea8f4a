import Mathlib.Data.List.Forall2
import Settle.StatusTable

/-! # What a status means

A status is looked up in upper case, and so are the statuses of a table when they are added. What
an attempt makes of a status is decided by the statuses that were added and equal it up to the case
of ASCII letters, in whatever steps they were added; its own text is kept. -/

namespace Settle

/-! ## Texts up to ASCII case -/

/-- The characters are equal, or the two cases of one ASCII letter. -/
def SameLetter (c d : Char) : Prop :=
  c = d ∨ (c.isUpper ∧ d.toNat = c.toNat + 32) ∨ (d.isUpper ∧ c.toNat = d.toNat + 32)

/-- The texts are equal but for the case of ASCII letters. -/
def SameText (a b : String) : Prop := List.Forall₂ SameLetter a.toList b.toList

/-- The texts differ in length, or somewhere by a character that is not ASCII. -/
def DifferBeyondAscii (a b : String) : Prop :=
  a.toList.length ≠ b.toList.length ∨
    ∃ p ∈ a.toList.zip b.toList, p.1 ≠ p.2 ∧ ¬(p.1.toNat < 128 ∧ p.2.toNat < 128)

section letters

variable {a b s : String} {c d : Char}

theorem isUpper_iff_toNat : c.isUpper ↔ 65 ≤ c.toNat ∧ c.toNat ≤ 90 := by
  have hupper : c.isUpper ↔ 'A'.val ≤ c.val ∧ c.val ≤ 'Z'.val := decide_eq_true_iff
  rw [hupper]
  simp [UInt32.le_iff_toNat_le, ← Char.toNat_val]

theorem toUpper_toNat (c : Char) :
    c.toUpper.toNat = if 97 ≤ c.toNat ∧ c.toNat ≤ 122 then c.toNat - 32 else c.toNat := by
  have hlower : ('a'.val ≤ c.val ∧ c.val ≤ 'z'.val) ↔ 97 ≤ c.toNat ∧ c.toNat ≤ 122 := by
    simp [UInt32.le_iff_toNat_le, ← Char.toNat_val]
  unfold Char.toUpper
  by_cases h : 'a'.val ≤ c.val ∧ c.val ≤ 'z'.val
  · rw [dif_pos h, if_pos (hlower.mp h)]
    have hrange := hlower.mp h
    have hoffset : ('A'.val - 'a'.val).toNat = Nat.pow 2 32 - 32 := rfl
    rw [← Char.toNat_val, ← Char.toNat_val, UInt32.toNat_add, hoffset]
    rw [← Char.toNat_val] at hrange
    simp only [Nat.pow_eq]
    omega
  · rw [dif_neg h, if_neg (mt hlower.mpr h)]

theorem toUpper_eq_toUpper_iff : c.toUpper = d.toUpper ↔ SameLetter c d := by
  unfold SameLetter
  rw [← Char.toNat_inj, ← Char.toNat_inj, toUpper_toNat, toUpper_toNat, isUpper_iff_toNat,
    isUpper_iff_toNat]
  split <;> split <;> omega

theorem asciiUpper_eq_asciiUpper_iff : asciiUpper a = asciiUpper b ↔ SameText a b := by
  have hletters : (fun c d : Char => c.toUpper = d.toUpper) = SameLetter := by
    ext c d
    exact toUpper_eq_toUpper_iff
  rw [asciiUpper, asciiUpper, ← String.toList_inj, String.toList_map, String.toList_map,
    ← List.forall₂_eq_eq_eq, List.forall₂_map_left_iff, List.forall₂_map_right_iff, hletters,
    SameText]

theorem SameText.symm (h : SameText a b) : SameText b a :=
  asciiUpper_eq_asciiUpper_iff.mp (asciiUpper_eq_asciiUpper_iff.mpr h).symm

theorem SameText.trans (hab : SameText a b) (hbs : SameText b s) : SameText a s :=
  asciiUpper_eq_asciiUpper_iff.mp <|
    (asciiUpper_eq_asciiUpper_iff.mpr hab).trans (asciiUpper_eq_asciiUpper_iff.mpr hbs)

theorem sameText_refl (a : String) : SameText a a := asciiUpper_eq_asciiUpper_iff.mp rfl

/-- A letter outside ASCII has no other case here. -/
theorem SameLetter.ascii (h : SameLetter c d) (hne : c ≠ d) : c.toNat < 128 ∧ d.toNat < 128 := by
  rcases h with h | ⟨hupper, h⟩ | ⟨hupper, h⟩
  · exact (hne h).elim
  · have := isUpper_iff_toNat.mp hupper
    omega
  · have := isUpper_iff_toNat.mp hupper
    omega

theorem DifferBeyondAscii.not_sameText (h : DifferBeyondAscii a b) : ¬SameText a b := by
  intro hsame
  obtain ⟨hlength, hletters⟩ := List.forall₂_iff_zip.mp hsame
  rcases h with h | ⟨p, hp, hne, hascii⟩
  · exact h hlength
  · exact hascii ((hletters hp).ascii hne)

example : DifferBeyondAscii "Prêt" "PrÊt" := .inr ⟨('ê', 'Ê'), by decide⟩

end letters

/-! ## Attempts that observed something -/

theorem Observation.attempt_map {α β : Type} (f : α → β) (seen : Observation α) :
    (seen.map f).attempt = seen.attempt.map f := by
  cases seen <;> rfl

/-- What an attempt comes to: a value, another attempt or the end of the run. -/
def attemptClass {α : Type} : Except Setback α → StatusClass
  | .ok _ => .ready
  | .error (.retryable _) => .pending
  | .error (.fatal _) => .failed

namespace StatusTable

variable {α β : Type}

/-- The attempt that observed the status. -/
def attempt (t : StatusTable) (status : String) (message : Option String) (value : α) :
    Except Setback α :=
  (t.observe status message value).attempt

theorem observe_map (t : StatusTable) (f : α → β) (status : String)
    (message : Option String) (v : α) :
    (t.observe status message v).map f = t.observe status message (f v) := by
  unfold observe
  cases t.classOf status <;> rfl

theorem attemptClass_attempt (t : StatusTable) (status : String) (message : Option String)
    (value : α) : attemptClass (t.attempt status message value) = t.classOf status := by
  unfold attempt observe
  cases t.classOf status <;> rfl

/-! ## Tables built in steps -/

/-- A step in building a table. -/
inductive Addition where
  | pending (statuses : List String)
  | ready (statuses : List String)

namespace Addition

/-- The statuses added as pending. -/
def pendings : Addition → List String
  | .pending statuses => statuses
  | .ready _ => []

/-- The statuses added as ready. -/
def readies : Addition → List String
  | .pending _ => []
  | .ready statuses => statuses

end Addition

def add (t : StatusTable) : Addition → StatusTable
  | .pending statuses => t.addPending statuses
  | .ready statuses => t.addReady statuses

/-- The table built by the steps, from a table without statuses. -/
def built (steps : List Addition) : StatusTable := steps.foldl add {}

/-- The statuses that the steps add as ready. -/
def allReady (steps : List Addition) : List String := steps.flatMap Addition.readies

/-- The statuses that the steps add as pending. -/
def allPending (steps : List Addition) : List String := steps.flatMap Addition.pendings

/-- A status of the list equals this one up to ASCII case. -/
def Listed (statuses : List String) (status : String) : Prop := ∃ s ∈ statuses, SameText s status

/-- The steps add the same statuses, in any order, any grouping and any number of times. -/
structure SameStatuses (steps other : List Addition) : Prop where
  ready : ∀ s, s ∈ allReady steps ↔ s ∈ allReady other
  pending : ∀ s, s ∈ allPending steps ↔ s ∈ allPending other

section tables

variable {t : StatusTable} {steps other : List Addition} {a b status : String}
  {statuses : List String}

theorem add_ready (t : StatusTable) (step : Addition) :
    (t.add step).ready = t.ready ++ step.readies.map asciiUpper := by
  cases step with
  | pending statuses => simp [add, addPending, Addition.readies]
  | ready statuses => rfl

theorem add_pending (t : StatusTable) (step : Addition) :
    (t.add step).pending = t.pending ++ step.pendings.map asciiUpper := by
  cases step with
  | pending statuses => rfl
  | ready statuses => simp [add, addReady, Addition.pendings]

theorem foldl_add (steps : List Addition) (t : StatusTable) :
    (steps.foldl add t).ready = t.ready ++ (allReady steps).map asciiUpper ∧
      (steps.foldl add t).pending = t.pending ++ (allPending steps).map asciiUpper := by
  induction steps generalizing t with
  | nil => simp [allReady, allPending]
  | cons step steps ih =>
      obtain ⟨hready, hpending⟩ := ih (t.add step)
      rw [List.foldl_cons, hready, hpending, add_ready, add_pending]
      simp [allReady, allPending]

theorem mem_map_asciiUpper_iff : asciiUpper status ∈ statuses.map asciiUpper ↔
    Listed statuses status := by
  simp [Listed, asciiUpper_eq_asciiUpper_iff]

theorem mem_built_ready_iff :
    asciiUpper status ∈ (built steps).ready ↔ Listed (allReady steps) status := by
  rw [← mem_map_asciiUpper_iff, built, (foldl_add steps {}).1]
  simp

theorem mem_built_pending_iff :
    asciiUpper status ∈ (built steps).pending ↔ Listed (allPending steps) status := by
  rw [← mem_map_asciiUpper_iff, built, (foldl_add steps {}).2]
  simp

theorem listed_iff_of_sameText (h : SameText a b) : Listed statuses a ↔ Listed statuses b :=
  ⟨fun ⟨s, hs, hsame⟩ => ⟨s, hs, hsame.trans h⟩, fun ⟨s, hs, hsame⟩ => ⟨s, hs, hsame.trans h.symm⟩⟩

theorem listed_append_singleton_iff (statuses : List String) (h : ¬SameText a b) :
    Listed (statuses ++ [a]) b ↔ Listed statuses b := by
  simp [Listed, or_and_right, exists_or, h]

/-- The class of a status is decided by the statuses that were added and equal it. -/
theorem classOf_eq_classOf (hready : Listed (allReady steps) a ↔ Listed (allReady other) b)
    (hpending : Listed (allPending steps) a ↔ Listed (allPending other) b) :
    (built steps).classOf a = (built other).classOf b := by
  rw [← mem_built_ready_iff, ← mem_built_ready_iff] at hready
  rw [← mem_built_pending_iff, ← mem_built_pending_iff] at hpending
  simp only [classOf, hready, hpending]

theorem SameStatuses.listed_iff (h : SameStatuses steps other) :
    (Listed (allReady other) a ↔ Listed (allReady steps) a) ∧
      (Listed (allPending other) a ↔ Listed (allPending steps) a) := by
  simp only [Listed, h.ready, h.pending, and_self]

theorem attempt_eq_attempt {u : StatusTable} (h : t.classOf status = u.classOf status)
    (message : Option String) (value : α) :
    t.attempt status message value = u.attempt status message value := by
  rw [attempt, attempt, observe, observe, h]

end tables

/-! ## What the attempt comes to -/

section attempts

variable (steps : List Addition) {status other : String}

theorem attempt_of_ready (h : Listed (allReady steps) status) (message : Option String)
    (value : α) : (built steps).attempt status message value = .ok value := by
  rw [attempt, observe, classOf, if_pos (mem_built_ready_iff.mpr h)]
  rfl

theorem attempt_of_pending (hready : ¬Listed (allReady steps) status)
    (hpending : Listed (allPending steps) status) (message : Option String) (value : α) :
    (built steps).attempt status message value = .error (.retryable (.status status none)) := by
  rw [attempt, observe, classOf, if_neg (mt mem_built_ready_iff.mp hready),
    if_pos (mem_built_pending_iff.mpr hpending)]
  rfl

theorem attempt_of_failed (hready : ¬Listed (allReady steps) status)
    (hpending : ¬Listed (allPending steps) status) (message : Option String) (value : α) :
    (built steps).attempt status message value = .error (.fatal (.status status message)) := by
  rw [attempt, observe, classOf, if_neg (mt mem_built_ready_iff.mp hready),
    if_neg (mt mem_built_pending_iff.mp hpending)]
  rfl

theorem attempt_append_of_not_sameText (h : ¬SameText status other) (message : Option String)
    (value : α) :
    (built (steps ++ [.ready [status]])).attempt other message value =
        (built steps).attempt other message value ∧
      (built (steps ++ [.pending [status]])).attempt other message value =
        (built steps).attempt other message value := by
  constructor
  · refine attempt_eq_attempt (classOf_eq_classOf ?_ ?_) _ _
    · simpa [allReady, Addition.readies] using
        listed_append_singleton_iff (allReady steps) h
    · simp [allPending, Addition.pendings]
  · refine attempt_eq_attempt (classOf_eq_classOf ?_ ?_) _ _
    · simp [allReady, Addition.readies]
    · simpa [allPending, Addition.pendings] using
        listed_append_singleton_iff (allPending steps) h

theorem attemptClass_ne_of_not_sameText (h : ¬SameText status other) (message : Option String)
    (value : α) : ∀ step ∈ [.ready [status], .pending [status]],
      attemptClass ((built [step]).attempt status message value) ≠
        attemptClass ((built [step]).attempt other message value) := by
  have hself : Listed [status] status := ⟨status, List.mem_singleton_self _, sameText_refl _⟩
  have hnone (s : String) : ¬Listed [] s := fun ⟨_, hs, _⟩ => List.not_mem_nil hs
  have hother : (built []).attempt other message value = .error (.fatal (.status other message)) :=
    attempt_of_failed [] (hnone other) (hnone other) message value
  obtain ⟨hready, hpending⟩ := attempt_append_of_not_sameText [] h message value
  rw [List.nil_append, hother] at hready hpending
  intro step hstep
  rcases List.mem_pair.mp hstep with rfl | rfl
  · have hstatus : (built [.ready [status]]).attempt status message value = .ok value :=
      attempt_of_ready [.ready [status]] hself message value
    rw [hstatus, hready]
    exact StatusClass.noConfusion
  · have hstatus : (built [.pending [status]]).attempt status message value =
        .error (.retryable (.status status none)) :=
      attempt_of_pending [.pending [status]] (hnone status) hself message value
    rw [hstatus, hpending]
    exact StatusClass.noConfusion

end attempts

/-- The attempt that observed the status in a table built by the steps. -/
structure ObservedSpec (steps : List Addition) (status : String) (message : Option String)
    (value : α) : Prop where
  /-- A status that was added as ready gives the value. -/
  ready : Listed (allReady steps) status →
    (built steps).attempt status message value = .ok value
  /-- One that was added as pending only asks for another attempt, and is reported as seen. -/
  pending : ¬Listed (allReady steps) status → Listed (allPending steps) status →
    (built steps).attempt status message value = .error (.retryable (.status status none))
  /-- One that was not added ends the run, and is reported as seen with its message. -/
  failed : ¬Listed (allReady steps) status → ¬Listed (allPending steps) status →
    (built steps).attempt status message value = .error (.fatal (.status status message))
  /-- The steps matter only for the statuses that they add. -/
  rebuilt : ∀ other, SameStatuses steps other →
    (built other).attempt status message value = (built steps).attempt status message value
  /-- Statuses that are equal up to ASCII case come to the same. -/
  recased : ∀ other, SameText status other →
    attemptClass ((built steps).attempt other message value) =
      attemptClass ((built steps).attempt status message value)
  /-- The case of letters outside ASCII counts, as any other difference does. -/
  beyondAscii : ∀ other, DifferBeyondAscii status other → ¬SameText status other
  /-- Adding a status does nothing for one that is not equal to it. -/
  unaffected : ∀ other, ¬SameText status other →
    (built (steps ++ [.ready [status]])).attempt other message value =
        (built steps).attempt other message value ∧
      (built (steps ++ [.pending [status]])).attempt other message value =
        (built steps).attempt other message value
  /-- A table with this status alone tells it apart from those that are not equal to it. -/
  distinguished : ∀ other, ¬SameText status other →
    ∀ step ∈ [.ready [status], .pending [status]],
      attemptClass ((built [step]).attempt status message value) ≠
        attemptClass ((built [step]).attempt other message value)
  /-- A function that is applied to what was observed changes the value only. -/
  mapped : ∀ {β : Type} (f : α → β),
    (((built steps).observe status message value).map f).attempt =
      ((built steps).attempt status message value).map f

theorem observedSpec (steps : List Addition) (status : String) (message : Option String)
    (value : α) : ObservedSpec steps status message value := by
  refine { ready := ?_, pending := ?_, failed := ?_, rebuilt := ?_, recased := ?_,
           beyondAscii := ?_, unaffected := ?_, distinguished := ?_, mapped := ?_ }
  · intro hready
    exact attempt_of_ready steps hready message value
  · intro hready hpending
    exact attempt_of_pending steps hready hpending message value
  · intro hready hpending
    exact attempt_of_failed steps hready hpending message value
  · intro other hother
    exact attempt_eq_attempt (classOf_eq_classOf hother.listed_iff.1 hother.listed_iff.2) _ _
  · intro other hsame
    rw [attemptClass_attempt, attemptClass_attempt]
    exact (classOf_eq_classOf (listed_iff_of_sameText hsame) (listed_iff_of_sameText hsame)).symm
  · intro other hdiffer
    exact hdiffer.not_sameText
  · intro other hother
    exact attempt_append_of_not_sameText steps hother message value
  · intro other hother
    exact attemptClass_ne_of_not_sameText hother message value
  · intro β f
    exact Observation.attempt_map f _

end StatusTable

end Settle
