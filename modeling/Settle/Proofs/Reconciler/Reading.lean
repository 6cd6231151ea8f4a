import Settle.Pattern
import Settle.Proofs.Reconciler.Request
import Settle.Proofs.StatusTable

/-! # How answers are read

The loop of a stage reads the answers to its calls by the error table. Only what is absent is read
in a way that depends on the pattern. -/

namespace Settle

/-! ## Errors -/

namespace ErrorTable

variable {t : ErrorTable} {op : Operation} {e : RemoteError}

theorem judge_eq_absent_iff : t.judge op e = .absent ↔ t.lookup e.code = some .absent := by
  unfold judge
  cases t.lookup e.code with
  | none => simp
  | some c => cases c <;> cases op.idempotent <;> simp

theorem isAbsent_iff : t.isAbsent e = true ↔ t.lookup e.code = some .absent := by
  simp [isAbsent]

/-- What an error means where `absence` is what the absence of the resource means. -/
def meaning (t : ErrorTable) (op : Operation) (absence : Except Setback Unit) (e : RemoteError) :
    Except Setback Unit :=
  match t.judge op e with
  | .retryable => .error (.retryable (.remote e))
  | .fatal => .error (.fatal (.remote e))
  | .absent => absence

theorem meaning_setback (t : ErrorTable) (op : Operation) (absent : Setback) (e : RemoteError) :
    t.meaning op (.error absent) e = .error (t.setback op absent e) := by
  unfold meaning setback
  cases t.judge op e <;> rfl

theorem meaning_ok (t : ErrorTable) (op : Operation) (absent : Setback) (e : RemoteError) :
    t.meaning op (.ok ()) e =
      if t.isAbsent e then .ok () else .error (t.setback op absent e) := by
  by_cases ha : t.lookup e.code = some .absent
  · rw [if_pos (isAbsent_iff.mpr ha), meaning, judge_eq_absent_iff.mpr ha]
  · have hjudge : t.judge op e ≠ .absent := fun h => ha (judge_eq_absent_iff.mp h)
    rw [if_neg (fun h => ha (isAbsent_iff.mp h))]
    unfold meaning setback
    cases hj : t.judge op e with
    | absent => exact (hjudge hj).elim
    | retryable => rfl
    | fatal => rfl

end ErrorTable

/-! ## Requests and their answers -/

namespace Request

variable {α : Type}

def pattern : Request α → Pattern
  | .read .. => .read
  | .write .. => .write
  | .delete .. => .delete
  | .mutateThenPoll .. => .mutateThenPoll
  | .deleteThenPoll .. => .deleteThenPoll

/-- Call number `n` of a stage gets this answer, of which a success keeps no value. -/
def Answered (issued : Nat) (q : Request α) (stage : Stage) (n : Nat)
    (answer : Except RemoteError Unit) : Prop :=
  ∃ reply, q.replies issued stage n = some reply ∧ reply.answer = answer

/-- What poll number `n` shows, without the value of a resource that is ready. -/
def observed? (issued : Nat) : Request α → Nat → Option (Observation Unit)
  | .mutateThenPoll _ issue _ poll, n =>
    match (issue (issued - 1)).answer with
    | .ok v => (poll v n).answer.toOption.map (Observation.map fun _ => ())
    | .error _ => none
  | .deleteThenPoll _ _ _ poll, n => (poll n).answer.toOption.map (Observation.map fun _ => ())
  | .read .., _ | .write .., _ | .delete .., _ => none

/-- What it means to a pattern that the resource is absent: it is missing for a read, the change
is refused, it is not there yet, or it is gone as wanted. -/
def absence (e : RemoteError) : Request α → Stage → Except Setback Unit
  | .read .., _ => .error (.fatal (.missing e))
  | .write .., _ | .mutateThenPoll .., .issue => .error (.fatal (.remote e))
  | .mutateThenPoll .., .poll => .error (.retryable (.missing e))
  | .delete .., _ | .deleteThenPoll .., _ => .ok ()

variable {q : Request α} {issued : Nat} {stage : Stage} {n : Nat}

theorem lastStage_of_polls (h : q.pattern.polls = true) : q.lastStage = .poll := by
  cases q with
  | read | write | delete => cases h
  | mutateThenPoll | deleteThenPoll => rfl

theorem polls_of_lastStage (h : q.lastStage = .poll) : q.pattern.polls = true := by
  cases q with
  | read | write | delete => cases h
  | mutateThenPoll | deleteThenPoll => rfl

theorem Answered.polls {answer : Except RemoteError Unit}
    (h : q.Answered issued .poll n answer) : q.pattern.polls = true := by
  obtain ⟨reply, hreply, -⟩ := h
  cases q with
  | read | write | delete => cases hreply
  | mutateThenPoll | deleteThenPoll => rfl

theorem polls_of_observed? {seen : Observation Unit} (h : q.observed? issued n = some seen) :
    q.pattern.polls = true := by
  cases q with
  | read | write | delete => cases h
  | mutateThenPoll | deleteThenPoll => rfl

theorem absence_eq_error {e : RemoteError} {s : Setback} (h : q.absence e stage = .error s) :
    (q.pattern = .read ∧ s = .fatal (.missing e)) ∨
      ((q.pattern = .write ∨ q.pattern = .mutateThenPoll ∧ stage = .issue) ∧
        s = .fatal (.remote e)) ∨
      (q.pattern = .mutateThenPoll ∧ stage = .poll ∧ s = .retryable (.missing e)) := by
  cases q with
  | read =>
      cases h
      exact .inl ⟨rfl, rfl⟩
  | write =>
      cases h
      exact .inr (.inl ⟨.inl rfl, rfl⟩)
  | delete | deleteThenPoll => cases stage <;> cases h
  | mutateThenPoll =>
      cases stage with
      | issue =>
          cases h
          exact .inr (.inl ⟨.inr ⟨rfl, rfl⟩, rfl⟩)
      | poll =>
          cases h
          exact .inr (.inr ⟨rfl, rfl, rfl⟩)

theorem absence_eq_ok_iff {e : RemoteError} : q.absence e stage = .ok () ↔
    q.pattern = .delete ∨ q.pattern = .deleteThenPoll := by
  cases q <;> cases stage <;> simp [absence, pattern]

end Request

namespace Reply

variable {ε δ α β : Type} {reply : Reply (Except ε α)} {f : Except ε α → Except δ β}

theorem bare_map_of_error {e : ε} (h : reply.bare.answer = .error e) :
    (reply.map f).bare.answer = (f (.error e)).map fun _ => () := by
  rw [← of_bare_error h]
  rfl

theorem of_bare_ok (h : reply.bare.answer = .ok ()) : ∃ v, reply.answer = .ok v := by
  cases ha : reply.answer with
  | ok v => exact ⟨v, rfl⟩
  | error e => simp [bare, map, ha, Except.map] at h

end Reply

namespace Reconciler

variable {σ α : Type} {r : Reconciler σ} {q : Request α} {issued : Nat} {stage : Stage} {n : Nat}

/-! ## Errors as the loops read them -/

section errors

variable (r) (op : Operation) (e : RemoteError)

theorem readAnswer_meaning : (r.readAnswer op (.error e) : Except Setback α).map (fun _ => ()) =
    r.errors.meaning op (.error (.fatal (.missing e))) e := by
  rw [ErrorTable.meaning_setback]
  rfl

theorem writeAnswer_meaning : (r.writeAnswer op (.error e) : Except Setback α).map (fun _ => ()) =
    r.errors.meaning op (.error (.fatal (.remote e))) e := by
  rw [ErrorTable.meaning_setback]
  rfl

theorem pollAnswer_meaning : (r.pollAnswer op (.error e) : Except Setback α).map (fun _ => ()) =
    r.errors.meaning op (.error (.retryable (.missing e))) e := by
  rw [ErrorTable.meaning_setback]
  rfl

theorem deleteAnswer_meaning : (r.deleteAnswer op (.error e)).map (fun _ => ()) =
    r.errors.meaning op (.ok ()) e := by
  rw [ErrorTable.meaning_ok r.errors op (.fatal (.remote e)) e]
  cases ha : r.errors.isAbsent e <;>
    simp [deleteAnswer, ErrorTable.deleteSetback?, ErrorTable.writeSetback, ha, Except.map]

theorem goneAnswer_meaning : (r.goneAnswer op (.error e)).map (fun _ => ()) =
    r.errors.meaning op (.ok ()) e := by
  rw [ErrorTable.meaning_ok r.errors op (.retryable (.missing e)) e]
  cases ha : r.errors.isAbsent e <;>
    simp [goneAnswer, ErrorTable.gonePollSetback?, ErrorTable.pollSetback, ha, Except.map]

end errors

/-- What the loop of a stage makes of an error. -/
def understands (r : Reconciler σ) (q : Request α) (stage : Stage) (e : RemoteError) :
    Except Setback Unit :=
  r.errors.meaning (q.operation stage) (q.absence e stage) e

theorem understands_retryable {e : RemoteError}
    (h : r.errors.judge (q.operation stage) e = .retryable) :
    r.understands q stage e = .error (.retryable (.remote e)) := by
  simp only [understands, ErrorTable.meaning, h]

theorem understands_absent {e : RemoteError} (h : r.errors.lookup e.code = some .absent) :
    r.understands q stage e = q.absence e stage := by
  simp only [understands, ErrorTable.meaning, ErrorTable.judge_eq_absent_iff.mpr h]

theorem understands_fatal {e : RemoteError}
    (h : r.errors.judge (q.operation stage) e = .fatal) :
    r.understands q stage e = .error (.fatal (.remote e)) := by
  simp only [understands, ErrorTable.meaning, h]

/-- An error sets a loop back by its verdict alone, unless it says that something is absent. -/
theorem understands_eq_error {e : RemoteError} {s : Setback}
    (h : r.understands q stage e = .error s) :
    (r.errors.judge (q.operation stage) e = .retryable ∧ s = .retryable (.remote e)) ∨
      (r.errors.judge (q.operation stage) e = .fatal ∧ s = .fatal (.remote e)) ∨
      (r.errors.lookup e.code = some .absent ∧ q.absence e stage = .error s) := by
  cases hj : r.errors.judge (q.operation stage) e with
  | retryable =>
      rw [understands_retryable hj] at h
      exact .inl ⟨rfl, (Except.error.inj h).symm⟩
  | fatal =>
      rw [understands_fatal hj] at h
      exact .inr (.inl ⟨rfl, (Except.error.inj h).symm⟩)
  | absent =>
      have ha := ErrorTable.judge_eq_absent_iff.mp hj
      rw [understands_absent ha] at h
      exact .inr (.inr ⟨ha, h⟩)

theorem understands_eq_ok {e : RemoteError} (h : r.understands q stage e = .ok ()) :
    r.errors.lookup e.code = some .absent ∧
      (q.pattern = .delete ∨ q.pattern = .deleteThenPoll) := by
  cases hj : r.errors.judge (q.operation stage) e with
  | retryable =>
      rw [understands_retryable hj] at h
      cases h
  | fatal =>
      rw [understands_fatal hj] at h
      cases h
  | absent =>
      have ha := ErrorTable.judge_eq_absent_iff.mp hj
      rw [understands_absent ha] at h
      exact ⟨ha, Request.absence_eq_ok_iff.mp h⟩

/-- The answer to call number `n` of a stage as its loop reads it. -/
def Reads (r : Reconciler σ) (q : Request α) (issued : Nat) (stage : Stage) (n : Nat)
    (answer : Except Setback Unit) : Prop :=
  ∃ reading, r.readings issued q stage n = some reading ∧ reading.answer = answer

theorem Reads.unique {a b : Except Setback Unit} (ha : r.Reads q issued stage n a)
    (hb : r.Reads q issued stage n b) : a = b := by
  obtain ⟨reading, hreading, rfl⟩ := ha
  obtain ⟨other, hother, rfl⟩ := hb
  rw [Option.some.inj (hreading.symm.trans hother)]

/-- An error is read by its class and the pattern, and to read it takes no time. -/
theorem reading_of_error {reply : Reply (Except RemoteError Unit)} {e : RemoteError}
    (hreply : q.replies issued stage n = some reply) (ha : reply.answer = .error e) :
    ∃ reading, r.readings issued q stage n = some reading ∧ reading.took = reply.took ∧
      reading.answer = r.understands q stage e := by
  cases stage with
  | issue =>
      cases q with
      | read op script =>
          cases hreply
          exact ⟨_, rfl, rfl, (Reply.bare_map_of_error ha).trans (readAnswer_meaning r op e)⟩
      | write op script | mutateThenPoll op script _ _ =>
          cases hreply
          exact ⟨_, rfl, rfl, (Reply.bare_map_of_error ha).trans (writeAnswer_meaning r op e)⟩
      | delete op script | deleteThenPoll op script _ _ =>
          cases hreply
          exact ⟨_, rfl, rfl, (Reply.bare_map_of_error ha).trans (deleteAnswer_meaning r op e)⟩
  | poll =>
      cases q with
      | read | write | delete => cases hreply
      | mutateThenPoll issueOp issue pollOp poll =>
          rw [Request.replies] at hreply
          rw [readings]
          split at hreply
          · cases hreply
            exact ⟨_, rfl, rfl,
              (Reply.bare_map_of_error ha).trans (pollAnswer_meaning r pollOp e)⟩
          · cases hreply
      | deleteThenPoll issueOp issue pollOp poll =>
          cases hreply
          exact ⟨_, rfl, rfl, (Reply.bare_map_of_error ha).trans (goneAnswer_meaning r pollOp e)⟩

theorem reads_error {e : RemoteError} (h : q.Answered issued stage n (.error e)) :
    r.Reads q issued stage n (r.understands q stage e) := by
  obtain ⟨reply, hreply, ha⟩ := h
  obtain ⟨reading, hreading, -, hanswer⟩ := reading_of_error hreply ha
  exact ⟨reading, hreading, hanswer⟩

theorem reads_ok (h : q.Answered issued .issue n (.ok ())) :
    r.Reads q issued .issue n (.ok ()) := by
  obtain ⟨reply, hreply, ha⟩ := h
  cases q with
  | read op script | write op script | delete op script | mutateThenPoll op script _ _
  | deleteThenPoll op script _ _ =>
      cases hreply
      obtain ⟨v, hv⟩ := Reply.of_bare_ok ha
      refine ⟨_, rfl, ?_⟩
      simp [Reply.bare, Reply.map, hv, readAnswer, writeAnswer, deleteAnswer, Except.map]

theorem reads_observed {seen : Observation Unit} (h : q.observed? issued n = some seen) :
    r.Reads q issued .poll n seen.attempt := by
  cases q with
  | read | write | delete => cases h
  | mutateThenPoll issueOp issue pollOp poll =>
      cases hissue : (issue (issued - 1)).answer with
      | error e => simp [Request.observed?, hissue] at h
      | ok v =>
          simp only [Request.observed?, hissue] at h
          obtain ⟨own, hown, rfl⟩ := Option.map_eq_some_iff.mp h
          refine ⟨((poll v n).map (r.pollAnswer pollOp)).bare, by simp [readings, hissue], ?_⟩
          cases ha : (poll v n).answer with
          | error e => simp [ha, Except.toOption] at hown
          | ok first =>
              obtain rfl : first = own := by simpa [ha, Except.toOption] using hown
              rw [Observation.attempt_map]
              simp [Reply.bare, Reply.map, ha, pollAnswer]
  | deleteThenPoll issueOp issue pollOp poll =>
      obtain ⟨own, hown, rfl⟩ := Option.map_eq_some_iff.mp h
      refine ⟨_, rfl, ?_⟩
      cases ha : (poll n).answer with
      | error e => simp [ha, Except.toOption] at hown
      | ok first =>
          obtain rfl : first = own := by simpa [ha, Except.toOption] using hown
          rw [Observation.attempt_map]
          simp [Reply.bare, Reply.map, ha, goneAnswer]

theorem observed_of_ok (h : q.Answered issued .poll n (.ok ())) :
    ∃ seen, q.observed? issued n = some seen := by
  obtain ⟨reply, hreply, ha⟩ := h
  cases q with
  | read | write | delete => cases hreply
  | mutateThenPoll issueOp issue pollOp poll =>
      cases hissue : (issue (issued - 1)).answer with
      | error e => simp [Request.replies, hissue] at hreply
      | ok v =>
          simp only [Request.replies, hissue, Option.some.injEq] at hreply
          subst hreply
          obtain ⟨seen, hseen⟩ := Reply.of_bare_ok ha
          exact ⟨seen.map fun _ => (), by simp [Request.observed?, hissue, hseen, Except.toOption]⟩
  | deleteThenPoll issueOp issue pollOp poll =>
      cases hreply
      obtain ⟨seen, hseen⟩ := Reply.of_bare_ok ha
      exact ⟨_, by rw [Request.observed?, hseen]; rfl⟩

theorem Reads.answered {a : Except Setback Unit} (h : r.Reads q issued stage n a) :
    ∃ answer, q.Answered issued stage n answer := by
  obtain ⟨reading, hreading, -⟩ := h
  cases stage with
  | issue => cases q <;> exact ⟨_, _, rfl, rfl⟩
  | poll =>
      cases q with
      | read | write | delete => cases hreading
      | mutateThenPoll issueOp issue pollOp poll =>
          rw [readings] at hreading
          split at hreading
          · next v hv => exact ⟨_, (poll v n).bare, by rw [Request.replies, hv], rfl⟩
          · cases hreading
      | deleteThenPoll => exact ⟨_, _, rfl, rfl⟩

theorem Reads.cases {a : Except Setback Unit} (h : r.Reads q issued stage n a) :
    (∃ e, q.Answered issued stage n (.error e) ∧ a = r.understands q stage e) ∨
      (stage = .issue ∧ q.Answered issued .issue n (.ok ()) ∧ a = .ok ()) ∨
      ∃ seen, stage = .poll ∧ q.observed? issued n = some seen ∧ a = seen.attempt := by
  obtain ⟨answer, hanswer⟩ := h.answered
  cases answer with
  | error e => exact .inl ⟨e, hanswer, h.unique (reads_error hanswer)⟩
  | ok v =>
      cases stage with
      | issue => exact .inr (.inl ⟨rfl, hanswer, h.unique (reads_ok hanswer)⟩)
      | poll =>
          obtain ⟨seen, hseen⟩ := observed_of_ok hanswer
          exact .inr (.inr ⟨seen, rfl, hseen, h.unique (reads_observed hseen)⟩)

theorem reads_gone {e : RemoteError} (ha : r.errors.lookup e.code = some .absent)
    (hq : q.pattern = .delete ∨ q.pattern = .deleteThenPoll)
    (h : q.Answered issued stage n (.error e)) : r.Reads q issued stage n (.ok ()) := by
  have hread := reads_error (r := r) h
  rwa [understands_absent ha, Request.absence_eq_ok_iff.mpr hq] at hread

/-! ## Calls that issue a change -/

/-- A call is accepted: it succeeds, or a deletion finds that the resource is absent. -/
def Accepts (r : Reconciler σ) (q : Request α) (issued n : Nat) : Prop :=
  q.Answered issued .issue n (.ok ()) ∨
    (q.pattern = .delete ∨ q.pattern = .deleteThenPoll) ∧
      ∃ e, q.Answered issued .issue n (.error e) ∧ r.errors.lookup e.code = some .absent

theorem reads_ok_iff : r.Reads q issued .issue n (.ok ()) ↔ r.Accepts q issued n := by
  constructor
  · intro h
    rcases h.cases with ⟨e, hanswer, hu⟩ | ⟨-, hok, -⟩ | ⟨seen, hstage, -, -⟩
    · obtain ⟨ha, hq⟩ := understands_eq_ok hu.symm
      exact .inr ⟨hq, e, hanswer, ha⟩
    · exact .inl hok
    · cases hstage
  · rintro (hok | ⟨hq, e, hanswer, ha⟩)
    · exact reads_ok hok
    · exact reads_gone ha hq hanswer

/-- A call fails with an error that lets it be made again. -/
def FailsRetryably (r : Reconciler σ) (q : Request α) (issued n : Nat) : Prop :=
  ∃ e, q.Answered issued .issue n (.error e) ∧
    r.errors.judge (q.operation .issue) e = .retryable

/-- Whatever the pattern, absence is no reason to issue a change again. -/
theorem Reads.failsRetryably {cause : Cause}
    (h : r.Reads q issued .issue n (.error (.retryable cause))) : r.FailsRetryably q issued n := by
  rcases h.cases with ⟨e, hanswer, hu⟩ | ⟨-, -, hok⟩ | ⟨seen, hstage, -, -⟩
  · rcases understands_eq_error hu.symm with ⟨hj, -⟩ | ⟨-, hs⟩ | ⟨-, habsence⟩
    · exact ⟨e, hanswer, hj⟩
    · cases hs
    · rcases Request.absence_eq_error habsence with ⟨-, hs⟩ | ⟨-, hs⟩ | ⟨-, hstage, -⟩
      · cases hs
      · cases hs
      · cases hstage
  · cases hok
  · cases hstage

theorem readings_took {reading : Reply (Except Setback Unit)}
    (h : r.readings issued q .issue n = some reading) :
    ∃ reply, q.replies issued .issue n = some reply ∧ reply.took = reading.took := by
  cases q with
  | read | write | delete | mutateThenPoll | deleteThenPoll =>
      obtain rfl := Option.some.inj h
      exact ⟨_, rfl, rfl⟩

end Reconciler

end Settle
