import Settle.Proofs.Retrier.Signal
import Settle.Reconciler

/-! # What a reconciler does with a request

A request is one operation of a reconciler with the answers it will get. It runs one loop, or two
of which the second one polls. -/

namespace Settle

/-- An operation of a reconciler, with the answers of the remote side to its calls. -/
inductive Request : Type → Type 1 where
  | read {α : Type} (op : Operation) (script : Script α) : Request α
  | write {α : Type} (op : Operation) (script : Script α) : Request α
  | delete (op : Operation) (script : Script Unit) : Request Unit
  | mutateThenPoll {α β : Type} (issueOp : Operation) (issue : Script α) (pollOp : Operation)
      (poll : α → Script (Observation β)) : Request β
  | deleteThenPoll (issueOp : Operation) (issue : Script Unit) (pollOp : Operation)
      (poll : Script (Observation Unit)) : Request Unit

namespace Request

variable {α : Type}

/-- The stage whose success is that of the request. -/
def lastStage : Request α → Stage
  | .read .. | .write .. | .delete .. => .issue
  | .mutateThenPoll .. | .deleteThenPoll .. => .poll

/-- The operation that the calls of a stage are made under. -/
def operation : Request α → Stage → Operation
  | .read op _, _ | .write op _, _ | .delete op _, _ => op
  | .mutateThenPoll op _ _ _, .issue | .deleteThenPoll op _ _ _, .issue => op
  | .mutateThenPoll _ _ op _, .poll | .deleteThenPoll _ _ op _, .poll => op

/-- What the remote side replies, without the values. Polls may depend on the value of the last of
the `issued` calls before them. -/
def replies (issued : Nat) : Request α → Replies (Except RemoteError Unit)
  | .read _ script, .issue, n | .write _ script, .issue, n => some (script n).bare
  | .delete _ script, .issue, n => some (script n).bare
  | .mutateThenPoll _ issue _ _, .issue, n => some (issue n).bare
  | .deleteThenPoll _ issue _ _, .issue, n => some (issue n).bare
  | .mutateThenPoll _ issue _ poll, .poll, n =>
    match (issue (issued - 1)).answer with
    | .ok v => some (poll v n).bare
    | .error _ => none
  | .deleteThenPoll _ _ _ poll, .poll, n => some (poll n).bare
  | .read .., .poll, _ | .write .., .poll, _ | .delete .., .poll, _ => none

/-- The same request with another flag on the operation of a stage. -/
def withFlag (b : Bool) : Request α → Stage → Request α
  | .read op script, .issue => .read { op with idempotent := b } script
  | .write op script, .issue => .write { op with idempotent := b } script
  | .delete op script, .issue => .delete { op with idempotent := b } script
  | .mutateThenPoll op issue pollOp poll, .issue =>
    .mutateThenPoll { op with idempotent := b } issue pollOp poll
  | .deleteThenPoll op issue pollOp poll, .issue =>
    .deleteThenPoll { op with idempotent := b } issue pollOp poll
  | .mutateThenPoll issueOp issue op poll, .poll =>
    .mutateThenPoll issueOp issue { op with idempotent := b } poll
  | .deleteThenPoll issueOp issue op poll, .poll =>
    .deleteThenPoll issueOp issue { op with idempotent := b } poll
  | .read op script, .poll => .read op script
  | .write op script, .poll => .write op script
  | .delete op script, .poll => .delete op script

end Request

namespace Reconciler

variable {σ α β : Type}

def perform (r : Reconciler σ) : Request α → World σ → Option (Run σ α)
  | .read op script, w => r.read op script w
  | .write op script, w => r.write op script w
  | .delete op script, w => r.delete op script w
  | .mutateThenPoll issueOp issue pollOp poll, w => r.mutateThenPoll issueOp issue pollOp poll w
  | .deleteThenPoll issueOp issue pollOp poll, w => r.deleteThenPoll issueOp issue pollOp poll w

/-- The note at the end of the polls, if they end. -/
def settling (action : String) : Option (Run σ α) → Trace
  | none => []
  | some second => [.advanced action .polling (.after second.result)]

/-- The events of two loops in a row, as far as they go. -/
def phaseEvents (action : String) (issued : Trace) (issue : Option (Run σ α))
    (polled : α → World σ → Trace) (poll : α → World σ → Option (Run σ β)) : Trace :=
  [.opened action] ++ issued ++
    match issue with
    | none => []
    | some first =>
      match first.result with
      | .error f => [.advanced action .issuing (.ofReason f.reason)]
      | .ok v => [.advanced action .issuing .polling] ++ polled v first.world ++
          settling action (poll v first.world)

/-- The events of a request, also of one that does not come out of a loop. -/
def events (r : Reconciler σ) : Request α → World σ → Trace
  | .read op script, w =>
    (r.issuer r.policies.read op).events (fun n => (script n).map (r.readAnswer op)) w
  | .write op script, w =>
    (r.issuer r.policies.write op).events (fun n => (script n).map (r.writeAnswer op)) w
  | .delete op script, w =>
    (r.issuer r.policies.write op).events (fun n => (script n).map (r.deleteAnswer op)) w
  | .mutateThenPoll issueOp issue pollOp poll, w =>
    phaseEvents issueOp.action
      ((r.issuer r.policies.write issueOp).events
        (fun n => (issue n).map (r.writeAnswer issueOp)) w)
      (r.write issueOp issue w)
      (fun v w => (r.poller pollOp).events (fun n => (poll v n).map (r.pollAnswer pollOp)) w)
      (fun v w => r.awaitReady pollOp (poll v) w)
  | .deleteThenPoll issueOp issue pollOp poll, w =>
    phaseEvents issueOp.action
      ((r.issuer r.policies.write issueOp).events
        (fun n => (issue n).map (r.deleteAnswer issueOp)) w)
      (r.delete issueOp issue w)
      (fun () w => (r.poller pollOp).events (fun n => (poll n).map (r.goneAnswer pollOp)) w)
      (fun () w => r.awaitGone pollOp poll w)

def issuePolicy (r : Reconciler σ) : Request α → Policy
  | .read .. => r.policies.read
  | .write .. | .delete .. | .mutateThenPoll .. | .deleteThenPoll .. => r.policies.write

def retrier (r : Reconciler σ) (q : Request α) : Stage → Retrier σ
  | .issue => r.issuer (r.issuePolicy q) (q.operation .issue)
  | .poll => r.poller (q.operation .poll)

@[simp] theorem retrier_stage (r : Reconciler σ) (q : Request α) (stage : Stage) :
    (r.retrier q stage).stage = stage := by
  cases stage <;> rfl

/-- The replies as the loops understand them. -/
def readings (r : Reconciler σ) (issued : Nat) : Request α → Replies (Except Setback Unit)
  | .read op script, .issue, n => some ((script n).map (r.readAnswer op)).bare
  | .write op script, .issue, n => some ((script n).map (r.writeAnswer op)).bare
  | .delete op script, .issue, n => some ((script n).map (r.deleteAnswer op)).bare
  | .mutateThenPoll op issue _ _, .issue, n => some ((issue n).map (r.writeAnswer op)).bare
  | .deleteThenPoll op issue _ _, .issue, n => some ((issue n).map (r.deleteAnswer op)).bare
  | .mutateThenPoll _ issue op poll, .poll, n =>
    match (issue (issued - 1)).answer with
    | .ok v => some ((poll v n).map (r.pollAnswer op)).bare
    | .error _ => none
  | .deleteThenPoll _ _ op poll, .poll, n => some ((poll n).map (r.goneAnswer op)).bare
  | .read .., .poll, _ | .write .., .poll, _ | .delete .., .poll, _ => none

/-! ## Two loops in a row -/

/-- The run of a pattern whose issue failed. -/
def unpolled (action : String) (first : Run σ α) (f : Failure) : Run σ β where
  result := .error f
  world := first.world
  trace := .opened action :: first.trace ++ [.advanced action .issuing (.ofReason f.reason)]

def polled (action : String) (first : Run σ α) (second : Run σ β) : Run σ β where
  result := second.result
  world := second.world
  trace := .opened action :: first.trace ++ .advanced action .issuing .polling :: second.trace ++
    [.advanced action .polling (.after second.result)]

theorem twoPhase_eq_some {action : String} {issued : Option (Run σ α)}
    {poll : α → World σ → Option (Run σ β)} {run : Run σ β} :
    twoPhase action issued poll = some run ↔ ∃ first, issued = some first ∧
      ((∃ f, first.result = .error f ∧ run = unpolled action first f) ∨
        ∃ v second, first.result = .ok v ∧ poll v first.world = some second ∧
          run = polled action first second) := by
  cases issued with
  | none => simp [twoPhase]
  | some first =>
      cases hresult : first.result with
      | error f => simp [twoPhase, hresult, unpolled, eq_comm]
      | ok v =>
          cases hpoll : poll v first.world with
          | none => simp [twoPhase, hresult, hpoll]
          | some second => simp [twoPhase, hresult, hpoll, polled, eq_comm]

theorem twoPhase_eq_none {action : String} {issued : Option (Run σ α)}
    {poll : α → World σ → Option (Run σ β)} :
    twoPhase action issued poll = none ↔ issued = none ∨
      ∃ first v, issued = some first ∧ first.result = .ok v ∧ poll v first.world = none := by
  cases issued with
  | none => simp [twoPhase]
  | some first =>
      cases hresult : first.result with
      | error f => simp [twoPhase, hresult]
      | ok v => cases hpoll : poll v first.world <;> simp [twoPhase, hresult, hpoll]

theorem phaseEvents_of_polling {action : String} {issued : Trace} {issue : Option (Run σ α)}
    {polled : α → World σ → Trace} {poll : α → World σ → Option (Run σ β)} {first : Run σ α} {v : α}
    (h : issue = some first) (hv : first.result = .ok v) (hpoll : poll v first.world = none) :
    phaseEvents action issued issue polled poll =
      [.opened action] ++ issued ++ [.advanced action .issuing .polling] ++
        polled v first.world := by
  simp [phaseEvents, h, hv, hpoll, settling]

/-! ## Runs of a request -/

/-- How a request comes by its run: from one loop, or from two of which the second one needs the
success of the first. -/
inductive Performed (r : Reconciler σ) (q : Request α) (w : World σ) : Run σ α → Prop where
  | direct {script run} (hq : q.lastStage = .issue)
      (ha : ∀ issued, (r.retrier q .issue).Answers script 0 (r.readings issued q))
      (h : (r.retrier q .issue).run script w = some run) : Performed r q w run
  | failed {β : Type} {script : Nat → Reply (Except Setback β)} {first action f}
      (hq : q.lastStage = .poll)
      (ha : ∀ issued, (r.retrier q .issue).Answers script 0 (r.readings issued q))
      (h : (r.retrier q .issue).run script w = some first) (hf : first.result = .error f) :
      Performed r q w (unpolled action first f)
  | polled {β : Type} {script : Nat → Reply (Except Setback β)} {polls first action v second}
      (hq : q.lastStage = .poll)
      (ha : ∀ issued, (r.retrier q .issue).Answers script 0 (r.readings issued q))
      (h : (r.retrier q .issue).run script w = some first) (hv : first.result = .ok v)
      (hp : (r.retrier q .poll).Answers polls 0 (r.readings (first.trace.calls .issue) q))
      (hpoll : (r.retrier q .poll).run polls first.world = some second) :
      Performed r q w (polled action first second)

variable {r : Reconciler σ} {w : World σ}

section trace

variable {β : Type} {script : Nat → Reply (Except Setback β)}
  {polls : Nat → Reply (Except Setback α)} {q : Request α} {start : Nanos} {made : Nat}
  {action : String} {first : Run σ β} {second : Run σ α} {f : Failure}

theorem unpolled_trace : (unpolled action first f : Run σ α).trace =
    [.opened action] ++ first.trace ++ [.advanced action .issuing (.ofReason f.reason)] := rfl

/-- The polls stand between the events of the issue and the end. -/
theorem polled_trace : (polled action first second).trace =
    ([.opened action] ++ first.trace ++ [.advanced action .issuing .polling]) ++ second.trace ++
      [.advanced action .polling (.after second.result)] := by
  simp [polled]

@[simp] theorem calls_unpolled (stage : Stage) :
    (unpolled action first f : Run σ α).trace.calls stage = first.trace.calls stage := by
  simp [unpolled_trace, Trace.calls_cons, Event.isCall]

theorem calls_polled (stage : Stage) : (polled action first second).trace.calls stage =
    first.trace.calls stage + second.trace.calls stage := by
  simp [polled_trace, Trace.calls_cons, Event.isCall]

theorem issue_calls_polled (h : (r.retrier q .poll).Course polls start made w second) :
    (polled action first second).trace.calls .issue = first.trace.calls .issue := by
  rw [calls_polled, h.calls_other (by simp), Nat.add_zero]

theorem poll_calls_polled (h : (r.retrier q .issue).Course script start made w first) :
    (polled action first second).trace.calls .poll = second.trace.calls .poll := by
  rw [calls_polled, h.calls_other (by simp), Nat.zero_add]

theorem stage_ne_of_course {own other : Stage}
    (h : (r.retrier q own).Course script start made w first) (hs : own ≠ other) :
    ∀ e ∈ first.trace, Event.stage? e ≠ some other := by
  intro e he hstage
  have hown := h.stage_eq he hstage
  rw [retrier_stage] at hown
  exact hs hown.symm

theorem not_polls_unpolled {l : Retrier σ} (h : l.Course script start made w first) :
    ¬ (unpolled action first f : Run σ α).trace.Polls := by
  rintro ⟨e, he, hpolls⟩
  rw [unpolled_trace, List.append_assoc] at he
  rcases List.mem_append.mp he with he | he
  · obtain rfl := List.mem_singleton.mp he
    cases hpolls
  · rcases List.mem_append.mp he with he | he
    · rw [h.polls_eq_false e he] at hpolls
      cases hpolls
    · obtain rfl := List.mem_singleton.mp he
      cases hr : f.reason <;> simp [hr, Phase.ofReason, Event.polls] at hpolls

theorem polls_polled : (polled action first second).trace.Polls :=
  ⟨.advanced action .issuing .polling, by simp [polled], rfl⟩

theorem issuing_polled {l : Retrier σ} (h : l.Course script start made w first) :
    (polled action first second).trace.issuing = .opened action :: first.trace := by
  have hfirst : ∀ e ∈ Event.opened action :: first.trace, (!e.polls) = true := by
    intro e he
    rcases List.mem_cons.mp he with rfl | he
    · rfl
    · rw [h.polls_eq_false e he]
      rfl
  have htrace : (polled action first second).trace = (.opened action :: first.trace) ++
      .advanced action .issuing .polling :: (second.trace ++
        [.advanced action .polling (.after second.result)]) := by
    simp [polled]
  rw [htrace, Trace.issuing, List.takeWhile_append_of_pos hfirst,
    List.takeWhile_cons_of_neg (by simp [Event.polls]), List.append_nil]

end trace

theorem accepted_value {op : Operation} {script : Script α} {first : Run σ α} {v : α}
    (h : r.write op script w = some first) (hv : first.result = .ok v) :
    (script (first.trace.calls .issue - 1)).answer = .ok v := by
  obtain ⟨-, hend⟩ := Retrier.run_ending h
  obtain ⟨n, hn, ha⟩ := (hend.ok_iff v).mp (Run.verdict_ok hv)
  change first.trace.calls .issue = n + 1 at hn
  rw [hn, Nat.add_sub_cancel]
  cases hs : (script n).answer with
  | ok u => simpa [Reply.map, hs, writeAnswer] using ha
  | error e => simp [Reply.map, hs, writeAnswer] at ha

theorem poll_answers {issueOp pollOp : Operation} {issue : Script β}
    {poll : β → Script (Observation α)} {first : Run σ β} {v : β}
    (h : r.write issueOp issue w = some first) (hv : first.result = .ok v) :
    (r.poller pollOp).Answers (fun n => (poll v n).map (r.pollAnswer pollOp)) 0
      (r.readings (first.trace.calls .issue) (.mutateThenPoll issueOp issue pollOp poll)) := by
  refine .of_zero fun n => ?_
  simp [readings, poller, accepted_value h hv]

/-- The loop that leaves a request unfinished: that of a stage, which begins at `start` when
`issued` calls have issued the change. -/
inductive Unfinished (r : Reconciler σ) (q : Request α) (w : World σ) :
    Stage → Nat → Nanos → Prop where
  | issuing {β : Type} {script : Nat → Reply (Except Setback β)}
      (ha : (r.retrier q .issue).Answers script 0 (r.readings 0 q))
      (h : (r.retrier q .issue).run script w = none) :
      Unfinished r q w .issue 0 w.clock.now
  | polling {β : Type} {script : Nat → Reply (Except Setback β)}
      {polls : Nat → Reply (Except Setback α)} {first v}
      (ha : ∀ issued, (r.retrier q .issue).Answers script 0 (r.readings issued q))
      (h : (r.retrier q .issue).run script w = some first) (hv : first.result = .ok v)
      (hp : (r.retrier q .poll).Answers polls 0 (r.readings (first.trace.calls .issue) q))
      (hpoll : (r.retrier q .poll).run polls first.world = none) :
      Unfinished r q w .poll (first.trace.calls .issue) first.world.clock.now

/-! ## Events and runs -/

/-- How the events of a request and its run, if it returns, come from its loops. -/
inductive Unfolds (r : Reconciler σ) (q : Request α) (w : World σ) :
    Trace → Option (Run σ α) → Prop where
  | direct {script} (hq : q.lastStage = .issue)
      (ha : ∀ issued, (r.retrier q .issue).Answers script 0 (r.readings issued q)) :
      Unfolds r q w ((r.retrier q .issue).events script w) ((r.retrier q .issue).run script w)
  | issuing {β : Type} {script : Nat → Reply (Except Setback β)} (hq : q.lastStage = .poll)
      (ha : ∀ issued, (r.retrier q .issue).Answers script 0 (r.readings issued q))
      (h : (r.retrier q .issue).run script w = none) :
      Unfolds r q w
        ([.opened (q.operation .issue).action] ++ (r.retrier q .issue).events script w) none
  | failed {β : Type} {script : Nat → Reply (Except Setback β)} {first f}
      (hq : q.lastStage = .poll)
      (ha : ∀ issued, (r.retrier q .issue).Answers script 0 (r.readings issued q))
      (h : (r.retrier q .issue).run script w = some first) (hf : first.result = .error f) :
      Unfolds r q w (unpolled (q.operation .issue).action first f : Run σ α).trace
        (some (unpolled (q.operation .issue).action first f))
  | polling {β : Type} {script : Nat → Reply (Except Setback β)}
      {polls : Nat → Reply (Except Setback α)} {first v} (hq : q.lastStage = .poll)
      (ha : ∀ issued, (r.retrier q .issue).Answers script 0 (r.readings issued q))
      (h : (r.retrier q .issue).run script w = some first) (hv : first.result = .ok v)
      (hp : (r.retrier q .poll).Answers polls 0 (r.readings (first.trace.calls .issue) q)) :
      Unfolds r q w
        (([.opened (q.operation .issue).action] ++ first.trace ++
          [.advanced (q.operation .issue).action .issuing .polling]) ++
            (r.retrier q .poll).events polls first.world ++
          settling (q.operation .issue).action ((r.retrier q .poll).run polls first.world))
        (((r.retrier q .poll).run polls first.world).map
          (polled (q.operation .issue).action first))

variable {q : Request α} {run : Run σ α}

theorem unfolds_phases {β : Type} {script : Nat → Reply (Except Setback β)}
    {polls : β → Nat → Reply (Except Setback α)} (hq : q.lastStage = .poll)
    (ha : ∀ issued, (r.retrier q .issue).Answers script 0 (r.readings issued q))
    (hp : ∀ first v, (r.retrier q .issue).run script w = some first → first.result = .ok v →
      (r.retrier q .poll).Answers (polls v) 0 (r.readings (first.trace.calls .issue) q)) :
    Unfolds r q w
      (phaseEvents (q.operation .issue).action ((r.retrier q .issue).events script w)
        ((r.retrier q .issue).run script w) (fun v w => (r.retrier q .poll).events (polls v) w)
        (fun v w => (r.retrier q .poll).run (polls v) w))
      (twoPhase (q.operation .issue).action ((r.retrier q .issue).run script w)
        fun v w => (r.retrier q .poll).run (polls v) w) := by
  cases h : (r.retrier q .issue).run script w with
  | none =>
      rw [phaseEvents, List.append_nil]
      exact .issuing hq ha h
  | some first =>
      rw [Retrier.events_of_run h, phaseEvents, twoPhase]
      cases hv : first.result with
      | error f => exact .failed hq ha h hv
      | ok v =>
          have hpolling := Unfolds.polling hq ha h hv (hp first v h hv)
          simp only [List.append_assoc] at hpolling ⊢
          cases hpoll : (r.retrier q .poll).run (polls v) first.world <;>
            simpa [hpoll, polled] using hpolling

theorem unfolds (r : Reconciler σ) (q : Request α) (w : World σ) :
    Unfolds r q w (r.events q w) (r.perform q w) := by
  cases q with
  | read | write | delete => exact .direct rfl fun _ => .of_zero fun _ => rfl
  | mutateThenPoll issueOp issue pollOp poll =>
      exact unfolds_phases rfl (fun _ => .of_zero fun _ => rfl) fun _ _ h hv => poll_answers h hv
  | deleteThenPoll issueOp issue pollOp poll =>
      exact unfolds_phases rfl (fun _ => .of_zero fun _ => rfl) fun _ _ _ _ => .of_zero fun _ => rfl

section unfolds

variable {t : Trace} {returned : Option (Run σ α)}

theorem Unfolds.performed (h : Unfolds r q w t returned) (hrun : returned = some run) :
    Performed r q w run := by
  cases h with
  | direct hq ha => exact .direct hq ha hrun
  | issuing => cases hrun
  | failed hq ha h hf =>
      obtain rfl := Option.some.inj hrun
      exact .failed hq ha h hf
  | polling hq ha h hv hp =>
      obtain ⟨second, hpoll, rfl⟩ := Option.map_eq_some_iff.mp hrun
      exact .polled hq ha h hv hp hpoll

theorem Unfolds.trace_eq (h : Unfolds r q w t returned) (hrun : returned = some run) :
    t = run.trace := by
  cases h with
  | direct => exact Retrier.events_of_run hrun
  | issuing => cases hrun
  | failed =>
      obtain rfl := Option.some.inj hrun
      rfl
  | polling =>
      obtain ⟨second, hpoll, rfl⟩ := Option.map_eq_some_iff.mp hrun
      rw [Retrier.events_of_run hpoll, hpoll, polled_trace]
      rfl

theorem Unfolds.unfinished (h : Unfolds r q w t returned) (hrun : returned = none) :
    ∃ stage issued start, Unfinished r q w stage issued start := by
  cases h with
  | direct _ ha => exact ⟨_, _, _, .issuing (ha 0) hrun⟩
  | issuing _ ha h => exact ⟨_, _, _, .issuing (ha 0) h⟩
  | failed => cases hrun
  | polling _ ha h hv hp =>
      exact ⟨_, _, _, .polling ha h hv hp (Option.map_eq_none_iff.mp hrun)⟩

end unfolds

theorem performed (h : r.perform q w = some run) : Performed r q w run :=
  (unfolds r q w).performed h

/-- The events of a request that returns are those of its run. -/
theorem events_of_perform (h : r.perform q w = some run) : r.events q w = run.trace :=
  (unfolds r q w).trace_eq h

theorem unfinished (h : r.perform q w = none) :
    ∃ stage issued start, Unfinished r q w stage issued start := (unfolds r q w).unfinished h

end Reconciler

end Settle
