import Settle.Proofs.Reconciler.Request

/-! # Calls that are not replayed

A network failure leaves open whether a call was applied. Where the operation may not be repeated,
such a failure ends the request, whatever else the error table and the policies say. -/

namespace Settle

/-! ## The verdict on a network failure -/

namespace ErrorTable

variable {t : ErrorTable} {op : Operation} {e : RemoteError}

theorem setback_transport (h : t.lookup e.code = some .transport) (hop : op.idempotent = false)
    (absent : Setback) : t.setback op absent e = .fatal (.remote e) := by
  simp [setback, judge, h, hop]

theorem isAbsent_transport (h : t.lookup e.code = some .transport) : t.isAbsent e = false := by
  simp [isAbsent, h]

theorem setback_flag {op' : Operation} (h : op.idempotent = true → op'.idempotent = true)
    (absent : Setback) : t.setback op absent e = t.setback op' absent e ∨
      t.setback op absent e = .fatal (.remote e) := by
  unfold setback judge
  cases t.lookup e.code with
  | none => exact .inl rfl
  | some c =>
      cases c <;> cases hop : op.idempotent <;> simp_all

end ErrorTable

theorem Reply.bare_map {α β ε δ : Type} {reply : Reply (Except ε α)} {e : ε} {s : δ}
    {f : Except ε α → Except δ β} (h : reply.bare.answer = .error e)
    (hf : f (.error e) = .error s) : (reply.map f).bare.answer = .error s := by
  refine bare_error ?_
  rw [map, of_bare_error h, hf]

namespace Reconciler

variable {σ α : Type} {r : Reconciler σ}

section answers

variable {op : Operation} {e : RemoteError} (ht : r.errors.lookup e.code = some .transport)
  (hop : op.idempotent = false)

include ht hop

theorem readAnswer_transport :
    (r.readAnswer op (.error e) : Except Setback α) = .error (.fatal (.remote e)) := by
  rw [readAnswer, ErrorTable.readSetback, ErrorTable.setback_transport ht hop]

theorem writeAnswer_transport :
    (r.writeAnswer op (.error e) : Except Setback α) = .error (.fatal (.remote e)) := by
  rw [writeAnswer, ErrorTable.writeSetback, ErrorTable.setback_transport ht hop]

theorem deleteAnswer_transport :
    r.deleteAnswer op (.error e) = .error (.fatal (.remote e)) := by
  simp [deleteAnswer, ErrorTable.deleteSetback?, ErrorTable.isAbsent_transport ht,
    ErrorTable.writeSetback, ErrorTable.setback_transport ht hop]

theorem pollAnswer_transport :
    (r.pollAnswer op (.error e) : Except Setback α) = .error (.fatal (.remote e)) := by
  rw [pollAnswer, ErrorTable.pollSetback, ErrorTable.setback_transport ht hop]

theorem goneAnswer_transport :
    r.goneAnswer op (.error e) = .error (.fatal (.remote e)) := by
  simp [goneAnswer, ErrorTable.gonePollSetback?, ErrorTable.isAbsent_transport ht,
    ErrorTable.pollSetback, ErrorTable.setback_transport ht hop]

end answers

variable {q : Request α} {w : World σ} {run : Run σ α}

/-- Call number `n` of a stage fails with `e`, which leaves open whether it was applied, under an
operation that may not be repeated. -/
structure Ambiguous (r : Reconciler σ) (q : Request α) (issued : Nat) (stage : Stage) (n : Nat)
    (e : RemoteError) : Prop where
  once : (q.operation stage).idempotent = false
  answer : ∃ reply, q.replies issued stage n = some reply ∧ reply.answer = .error e
  transport : r.errors.lookup e.code = some .transport

/-- Every loop understands an ambiguous failure as final. -/
theorem Ambiguous.reading {issued : Nat} {stage : Stage} {n : Nat} {e : RemoteError}
    (h : r.Ambiguous q issued stage n e) :
    ∃ reading, r.readings issued q stage n = some reading ∧
      reading.answer = .error (.fatal (.remote e)) := by
  obtain ⟨hop, ⟨reply, hreply, ha⟩, ht⟩ := h
  cases stage with
  | issue =>
      cases q with
      | read op script =>
          cases hreply
          exact ⟨_, rfl, Reply.bare_map ha (readAnswer_transport ht hop)⟩
      | write op script | mutateThenPoll op script _ _ =>
          cases hreply
          exact ⟨_, rfl, Reply.bare_map ha (writeAnswer_transport ht hop)⟩
      | delete op script | deleteThenPoll op script _ _ =>
          cases hreply
          exact ⟨_, rfl, Reply.bare_map ha (deleteAnswer_transport ht hop)⟩
  | poll =>
      cases q with
      | read | write | delete => cases hreply
      | mutateThenPoll issueOp issue pollOp poll =>
          rw [Request.replies] at hreply
          rw [readings]
          split at hreply
          · cases hreply
            exact ⟨_, rfl, Reply.bare_map ha (pollAnswer_transport ht hop)⟩
          · cases hreply
      | deleteThenPoll issueOp issue pollOp poll =>
          cases hreply
          exact ⟨_, rfl, Reply.bare_map ha (goneAnswer_transport ht hop)⟩

/-! ## Runs -/

theorem loop_ends {β : Type} {l : Retrier σ} {script : Nat → Reply (Except Setback β)}
    {start : Nanos} {first : Run σ β} {replies : Replies (Except Setback Unit)} {n : Nat}
    {cause : Cause} (hc : l.Course script start 0 w first) (hs : l.Answers script 0 replies)
    (hn : n < first.trace.calls l.stage)
    (h : ∃ reading, replies l.stage n = some reading ∧
      reading.answer = .error (.fatal cause)) :
    first.trace.calls l.stage = n + 1 ∧ first.verdict = .error cause.reason := by
  obtain ⟨reading, hreading, hfatal⟩ := h
  rw [hs, Nat.zero_add] at hreading
  obtain rfl := Option.some.inj hreading
  exact hc.last_of_fatal hn (Reply.of_bare_error hfatal)

theorem Performed.of_ambiguous (h : Performed r q w run) {stage : Stage} {n : Nat}
    {e : RemoteError} (hn : n < run.trace.calls stage)
    (ha : r.Ambiguous q (run.trace.calls .issue) stage n e) :
    run.trace.calls stage = n + 1 ∧ run.verdict = .error (.remote e) ∧
      (stage = .issue → run.trace.calls .poll = 0) := by
  cases h with
  | direct _ hs h =>
      obtain ⟨-, hc⟩ := Retrier.run_course h
      have hpolls : run.trace.calls .poll = 0 := hc.calls_other (by simp)
      cases stage with
      | issue =>
          obtain ⟨hlast, hverdict⟩ := loop_ends hc (hs _) hn ha.reading
          exact ⟨hlast, hverdict, fun _ => hpolls⟩
      | poll =>
          rw [hpolls] at hn
          cases hn
  | @failed β script first action f _ hs h hf =>
      obtain ⟨-, hc⟩ := Retrier.run_course h
      have hpolls : first.trace.calls .poll = 0 := hc.calls_other (by simp)
      rw [calls_unpolled] at hn ha ⊢
      cases stage with
      | issue =>
          obtain ⟨hlast, hverdict⟩ := loop_ends hc (hs _) hn ha.reading
          refine ⟨hlast, ?_, fun _ => by rw [calls_unpolled, hpolls]⟩
          rw [Run.verdict_error hf] at hverdict
          rw [Run.verdict_error rfl, Except.error.inj hverdict]
          rfl
      | poll =>
          rw [hpolls] at hn
          cases hn
  | @polled β script polls first action v second _ hs h hv hp hpoll =>
      obtain ⟨-, hc⟩ := Retrier.run_course h
      obtain ⟨-, hd⟩ := Retrier.run_course hpoll
      cases stage with
      | issue =>
          rw [issue_calls_polled hd] at hn ha
          obtain ⟨-, hverdict⟩ := loop_ends hc (hs _) hn ha.reading
          cases (Run.verdict_ok hv).symm.trans hverdict
      | poll =>
          rw [poll_calls_polled hc] at hn ⊢
          rw [issue_calls_polled hd] at ha
          obtain ⟨hlast, hverdict⟩ := loop_ends hd hp hn ha.reading
          refine ⟨hlast, hverdict, fun hstage => ?_⟩
          cases hstage

/-! ## Flags -/

/-- The second meaning of an answer may only be milder. -/
def Stricter {γ : Type} (f g : γ → Except Setback α) : Prop :=
  ∀ x, f x = g x ∨ ∃ cause, f x = .error (.fatal cause)

theorem writeAnswer_stricter {op op' : Operation}
    (h : op.idempotent = true → op'.idempotent = true) :
    Stricter (r.writeAnswer op : Except RemoteError α → _) (r.writeAnswer op') := by
  intro x
  cases x with
  | ok v => exact .inl rfl
  | error e =>
      rcases ErrorTable.setback_flag (t := r.errors) (e := e) h (.fatal (.remote e)) with hs | hs
      · exact .inl (congrArg Except.error hs)
      · exact .inr ⟨_, congrArg Except.error hs⟩

theorem deleteAnswer_stricter {op op' : Operation}
    (h : op.idempotent = true → op'.idempotent = true) :
    Stricter (r.deleteAnswer op) (r.deleteAnswer op') := by
  intro x
  cases x with
  | ok v => exact .inl rfl
  | error e =>
      cases ha : r.errors.isAbsent e with
      | true => exact .inl (by simp [deleteAnswer, ErrorTable.deleteSetback?, ha])
      | false =>
          have hwrite (o : Operation) : r.deleteAnswer o (.error e) =
              .error (r.errors.setback o (.fatal (.remote e)) e) := by
            simp [deleteAnswer, ErrorTable.deleteSetback?, ha, ErrorTable.writeSetback]
          rw [hwrite op, hwrite op']
          rcases ErrorTable.setback_flag (t := r.errors) (e := e) h (.fatal (.remote e)) with
            hs | hs
          · exact .inl (congrArg Except.error hs)
          · exact .inr ⟨_, congrArg Except.error hs⟩

section accepted

variable {β γ : Type} {l : Retrier σ} {script : Nat → Reply γ} {f g : γ → Except Setback β}
  {first first' : Run σ β} {v v' : β}

/-- A run that succeeds has met no answer that is final, so milder meanings do not change it. -/
theorem run_of_stricter (hfg : Stricter f g)
    (h : l.run (fun n => (script n).map f) w = some first) (hv : first.result = .ok v) :
    l.run (fun n => (script n).map g) w = some first := by
  refine Retrier.run_congr h fun n hn => ?_
  rcases hfg (script n).answer with heq | ⟨cause, hcause⟩
  · simp [Reply.map, heq]
  · have hverdict := ((Retrier.run_course h).2.last_of_fatal hn hcause).2
    cases (Run.verdict_ok hv).symm.trans hverdict

theorem accepted_unique (hfg : Stricter f g ∨ Stricter g f)
    (h : l.run (fun n => (script n).map f) w = some first) (hv : first.result = .ok v)
    (h' : l.run (fun n => (script n).map g) w = some first') (hv' : first'.result = .ok v') :
    first' = first := by
  rcases hfg with hfg | hgf
  · exact Option.some.inj (h'.symm.trans (run_of_stricter hfg h hv))
  · exact Option.some.inj ((run_of_stricter hgf h' hv').symm.trans h)

end accepted

theorem idempotent_total (op op' : Operation) :
    (op.idempotent = true → op'.idempotent = true) ∨
      (op'.idempotent = true → op.idempotent = true) := by
  cases op.idempotent <;> simp

variable {b : Bool} {run' : Run σ α}

/-- Where both runs poll, the flag of the issue has changed nothing. -/
theorem perform_issue_flag (h : r.perform q w = some run) (hp : run.trace.Polls)
    (h' : r.perform (q.withFlag b .issue) w = some run') (hp' : run'.trace.Polls) :
    run' = run := by
  cases q with
  | read | write | delete => exact ((Retrier.run_course h).2.not_polls hp).elim
  | mutateThenPoll op issue pollOp poll =>
      obtain ⟨first, hissue, ⟨f, -, rfl⟩ | ⟨v, second, hv, hpoll, rfl⟩⟩ := twoPhase_eq_some.mp h
      · exact (not_polls_unpolled (Retrier.run_course hissue).2 hp).elim
      obtain ⟨first', hissue', ⟨f, -, rfl⟩ | ⟨v', second', hv', hpoll', rfl⟩⟩ :=
        twoPhase_eq_some.mp h'
      · exact (not_polls_unpolled (Retrier.run_course hissue').2 hp').elim
      obtain rfl := accepted_unique
        ((idempotent_total _ _).imp writeAnswer_stricter writeAnswer_stricter)
        hissue hv hissue' hv'
      obtain rfl := Except.ok.inj (hv.symm.trans hv')
      obtain rfl := Option.some.inj (hpoll.symm.trans hpoll')
      rfl
  | deleteThenPoll op issue pollOp poll =>
      obtain ⟨first, hissue, ⟨f, -, rfl⟩ | ⟨v, second, hv, hpoll, rfl⟩⟩ := twoPhase_eq_some.mp h
      · exact (not_polls_unpolled (Retrier.run_course hissue).2 hp).elim
      obtain ⟨first', hissue', ⟨f, -, rfl⟩ | ⟨v', second', hv', hpoll', rfl⟩⟩ :=
        twoPhase_eq_some.mp h'
      · exact (not_polls_unpolled (Retrier.run_course hissue').2 hp').elim
      obtain rfl := accepted_unique
        ((idempotent_total _ _).imp deleteAnswer_stricter deleteAnswer_stricter)
        hissue hv hissue' hv'
      obtain rfl := Option.some.inj (hpoll.symm.trans hpoll')
      rfl

theorem perform_poll_flag (h : r.perform q w = some run)
    (h' : r.perform (q.withFlag b .poll) w = some run') :
    run'.trace.issuing = run.trace.issuing := by
  cases q with
  | read | write | delete => rw [Option.some.inj (h.symm.trans h')]
  | mutateThenPoll | deleteThenPoll =>
      obtain ⟨first, hissue, hrun⟩ := twoPhase_eq_some.mp h
      obtain ⟨first', hissue', hrun'⟩ := twoPhase_eq_some.mp h'
      obtain rfl := Option.some.inj (hissue.symm.trans hissue')
      have hc := (Retrier.run_course hissue).2
      rcases hrun with ⟨f, hf, rfl⟩ | ⟨v, second, hv, -, rfl⟩
      · rcases hrun' with ⟨f', hf', rfl⟩ | ⟨v', second', hv', -, rfl⟩
        · obtain rfl := Except.error.inj (hf.symm.trans hf')
          rfl
        · cases hf.symm.trans hv'
      · rcases hrun' with ⟨f', hf', rfl⟩ | ⟨v', second', hv', -, rfl⟩
        · cases hv.symm.trans hf'
        · rw [issuing_polled hc, issuing_polled hc]

theorem perform_poll_flag_idle (h : r.perform q w = some run) (hp : ¬ run.trace.Polls) :
    r.perform (q.withFlag b .poll) w = some run := by
  cases q with
  | read | write | delete => exact h
  | mutateThenPoll | deleteThenPoll =>
      obtain ⟨first, hissue, ⟨f, hf, rfl⟩ | ⟨v, second, -, -, rfl⟩⟩ := twoPhase_eq_some.mp h
      · exact twoPhase_eq_some.mpr ⟨first, hissue, .inl ⟨f, hf, rfl⟩⟩
      · exact (hp polls_polled).elim

/-! ## Requests -/

theorem not_ambiguous {β : Type} {stage : Stage} {script : Nat → Reply (Except Setback β)}
    {issued n : Nat} {e : RemoteError}
    (hs : (r.retrier q stage).Answers script 0 (r.readings issued q))
    (h : Retrier.AsksAgain script n) : ¬ r.Ambiguous q issued stage n e := by
  intro ha
  obtain ⟨reading, hreading, hfatal⟩ := ha.reading
  obtain ⟨cause, hcause⟩ := h
  have hn := hs n
  rw [retrier_stage, hreading, Nat.zero_add] at hn
  obtain rfl := Option.some.inj hn
  rw [Reply.bare_error hcause] at hfatal
  cases hfatal

/-- How the runs of a request treat network failures under the flags of its operations. -/
structure ReplaySpec (r : Reconciler σ) (q : Request α) (w : World σ) (run : Run σ α) : Prop where
  ends : ∀ {stage n e}, n < run.trace.calls stage →
    r.Ambiguous q (run.trace.calls .issue) stage n e →
      run.trace.calls stage = n + 1 ∧ run.verdict = .error (.remote e) ∧
        (stage = .issue → run.trace.calls .poll = 0)
  issue_flag : ∀ {b run'}, r.perform (q.withFlag b .issue) w = some run' →
    run.trace.Polls → run'.trace.Polls → run' = run
  poll_flag : ∀ {b run'}, r.perform (q.withFlag b .poll) w = some run' →
    run'.trace.issuing = run.trace.issuing
  poll_flag_idle : ∀ b, ¬ run.trace.Polls → r.perform (q.withFlag b .poll) w = some run
  readings_eq : ∀ b issued,
    r.readings issued (q.withFlag b .issue) .poll = r.readings issued q .poll ∧
      r.readings issued (q.withFlag b .poll) .issue = r.readings issued q .issue

/-- An ambiguous failure is the end of a request: a run makes no call of the stage after it, and
the calls of an unfinished request have met none. -/
theorem perform_replay (r : Reconciler σ) (q : Request α) (w : World σ) :
    (∀ run, r.perform q w = some run → ReplaySpec r q w run) ∧
      (r.perform q w = none → ∃ stage issued start, Unfinished r q w stage issued start ∧
        (∀ n e, n < issued → ¬ r.Ambiguous q issued .issue n e) ∧
        ((r.retrier q stage).HoldsEnd start →
          ∀ n e, n < Retrier.maxAttempts → ¬ r.Ambiguous q issued stage n e)) := by
  refine ⟨fun run h => ?_, fun h => ?_⟩
  · exact
      { ends := fun hn ha => (performed h).of_ambiguous hn ha
        issue_flag := fun h' hp hp' => perform_issue_flag h hp h' hp'
        poll_flag := fun h' => perform_poll_flag h h'
        poll_flag_idle := fun _ hp => perform_poll_flag_idle h hp
        readings_eq := fun _ _ => by cases q <;> exact ⟨rfl, rfl⟩ }
  · obtain ⟨stage, issued, start, hu⟩ := unfinished h
    refine ⟨stage, issued, start, hu, ?_, ?_⟩
    · intro n e hn ha
      cases hu with
      | issuing => cases hn
      | polling hs h hv =>
          have hverdict := (loop_ends (Retrier.run_course h).2 (hs _) hn ha.reading).2
          cases (Run.verdict_ok hv).symm.trans hverdict
    · intro hb n e hn
      cases hu with
      | issuing hs hnone => exact not_ambiguous hs (Retrier.run_eq_none hb hnone n hn)
      | polling _ _ _ hp hpoll => exact not_ambiguous hp (Retrier.run_eq_none hb hpoll n hn)

def unlimited : Reconciler Unit where
  gate := .unlimited

def timeout : RemoteError := ⟨"ClientError.NetworkError.Timeout", "no answer", none⟩

/-- A change that may not be repeated, and whose second call is lost. -/
def attachDisk : Request Unit :=
  .mutateThenPoll ⟨"AttachDisk", false⟩
    (fun n => { answer := .error (if n = 0 then ⟨"ResourceBusy", "busy", none⟩ else timeout) })
    ⟨"GetDisk", true⟩ fun (_ : Unit) _ => { answer := .ok (.ready ()) }

theorem perform_replay_attachDisk : ∃ run,
    unlimited.perform attachDisk ⟨{}, ()⟩ = some run ∧
      1 < run.trace.calls .issue ∧
      unlimited.Ambiguous attachDisk (run.trace.calls .issue) .issue 1 timeout ∧
      ReplaySpec unlimited attachDisk ⟨{}, ()⟩ run := by
  have h : (unlimited.perform attachDisk ⟨{}, ()⟩).map (·.trace.calls .issue) = some 2 := by
    decide +kernel
  have ht : unlimited.errors.lookup timeout.code = some .transport := by decide +kernel
  obtain ⟨run, hrun, hcalls⟩ := Option.map_eq_some_iff.mp h
  refine ⟨run, hrun, ?_, ⟨rfl, ⟨_, rfl, rfl⟩, ht⟩, (perform_replay _ _ _).1 run hrun⟩
  rw [hcalls]
  exact Nat.lt_succ_self 1

end Reconciler

end Settle
