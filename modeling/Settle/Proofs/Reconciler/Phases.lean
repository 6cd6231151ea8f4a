import Mathlib.Data.List.Chain
import Settle.Proofs.Reconciler.Reading

/-! # The phases of a run

A run that polls notes each phase that it goes to. Every note leaves the phase that the run is in
by an edge of the phase machine, so the run settles only after it has polled, and nothing follows
its final phase. -/

namespace Settle

/-! ## Edges -/

namespace Phase

theorem canAdvance_of_final {p next : Phase} (h : p.isFinal = true) :
    p.canAdvance next = false := by
  cases p <;> cases next <;> simp_all [isFinal, canAdvance]

/-- Only polling settles. -/
theorem eq_polling_of_settled {p : Phase} (h : p.canAdvance .settled = true) : p = .polling := by
  cases p <;> simp_all [canAdvance]

theorem isFinal_ofReason (reason : Reason) : (ofReason reason).isFinal = true := by
  cases reason <;> rfl

theorem isFinal_after {α : Type} (result : Except Failure α) : (after result).isFinal = true := by
  cases result with
  | ok v => rfl
  | error f => exact isFinal_ofReason f.reason

theorem issuing_canAdvance_ofReason (reason : Reason) :
    Phase.issuing.canAdvance (ofReason reason) = true := by
  cases reason <;> rfl

theorem polling_canAdvance_after {α : Type} (result : Except Failure α) :
    Phase.polling.canAdvance (after result) = true := by
  cases result with
  | ok v => rfl
  | error f => cases h : f.reason <;> simp [after, ofReason, h, canAdvance]

theorem ofReason_ne_polling (reason : Reason) : ofReason reason ≠ .polling := by
  cases reason <;> simp [ofReason]

end Phase

/-! ## Walks through the phases -/

namespace Event

/-- The phase that a note enters. -/
def phase? : Event → Option Phase
  | .opened _ => some .issuing
  | .advanced _ _ target => some target
  | _ => none

end Event

namespace Trace

/-- The phases that are entered, in order. -/
def phases (t : Trace) : List Phase := t.filterMap Event.phase?

@[simp] theorem phases_append (s t : Trace) : phases (s ++ t) = phases s ++ phases t :=
  List.filterMap_append

theorem phases_eq_nil {t : Trace} (h : ∀ e ∈ t, e.phase? = none) : t.phases = [] :=
  List.filterMap_eq_nil_iff.mpr h

/-- The notes of a trace go from one phase to another: each leaves the phase that the run is in and
takes an edge. -/
inductive Walk : Phase → Trace → Phase → Prop where
  | done (p : Phase) : Walk p [] p
  | stay {p last e t} (he : e.phase? = none) (rest : Walk p t last) : Walk p (e :: t) last
  | advance {p target last action t} (hedge : p.canAdvance target = true)
      (rest : Walk target t last) : Walk p (.advanced action p target :: t) last

variable {p last : Phase} {s t : Trace}

theorem Walk.of_quiet (h : ∀ e ∈ t, e.phase? = none) : Walk p t p := by
  induction t with
  | nil => exact .done p
  | cons e t ih => exact .stay (h e (by simp)) (ih fun x hx => h x (by simp [hx]))

theorem Walk.append {mid : Phase} (hs : Walk p s mid) (ht : Walk mid t last) :
    Walk p (s ++ t) last := by
  induction hs with
  | done => exact ht
  | stay he _ ih => exact .stay he (ih ht)
  | advance hedge _ ih => exact .advance hedge (ih ht)

theorem Walk.isChain (h : Walk p t last) :
    (p :: t.phases).IsChain fun here next => here.canAdvance next = true := by
  induction h with
  | done => exact .singleton _
  | stay he _ ih =>
      rw [phases, List.filterMap_cons_none he]
      exact ih
  | advance hedge _ ih => exact .cons_cons hedge ih

/-- A walk to a final phase enters just that one. -/
theorem Walk.filter_final (h : Walk p t last) (hlast : last.isFinal = true) :
    (p :: t.phases).filter Phase.isFinal = [last] := by
  induction h with
  | done => simp [phases, hlast]
  | stay he _ ih =>
      rw [phases, List.filterMap_cons_none he]
      exact ih hlast
  | @advance p target last action t hedge rest ih =>
      have hp : ¬ p.isFinal = true := by
        intro hp
        rw [Phase.canAdvance_of_final hp] at hedge
        cases hedge
      rw [List.filter_cons_of_neg hp]
      exact ih hlast

theorem Walk.settled (h : Walk p t last) {before after : List Phase}
    (hphases : p :: t.phases = before ++ .settled :: after) (hbefore : before ≠ []) :
    ∃ earlier, before = earlier ++ [.polling] := by
  -- The phase right before leads to the settled one by an edge, and only polling has that edge.
  obtain ⟨earlier, here, rfl⟩ := (List.eq_nil_or_concat' before).resolve_left hbefore
  have hchain := h.isChain
  rw [hphases, List.append_assoc, List.singleton_append] at hchain
  have hedge := (List.isChain_append.mp hchain).2.1
  rw [List.isChain_cons_cons] at hedge
  exact ⟨earlier, by rw [Phase.eq_polling_of_settled hedge.1]⟩

end Trace

/-! ## Runs -/

namespace Retrier

variable {σ α : Type} {r : Retrier σ} {script : Nat → Reply (Except Setback α)} {start : Nanos}
  {made : Nat} {w : World σ} {run : Run σ α}

theorem Course.phase?_eq_none (h : r.Course script start made w run) :
    ∀ e ∈ run.trace, e.phase? = none := by
  induction h with
  | withdrawn | interrupted | succeeded | refused | exhausted =>
      simp [opening, booking, Event.phase?]
  | retried _ _ _ _ _ ih => simpa [opening, booking, Event.phase?] using ih

theorem Endless.phase?_eq_none {fuel : Nat} {t : Trace}
    (h : r.Endless script start fuel made w t) : ∀ e ∈ t, e.phase? = none := by
  induction h with
  | counted => nofun
  | again _ _ _ _ _ ih => simpa [opening, booking, Event.phase?] using ih

theorem phase?_events : ∀ e ∈ r.events script w, e.phase? = none := by
  rcases events_cases r script w with ⟨run, -, hc, hevents⟩ | ⟨-, hendless | hevents⟩
  · rw [hevents]
    exact hc.phase?_eq_none
  · exact hendless.phase?_eq_none
  · rw [hevents]
    exact nofun

end Retrier

namespace Reconciler

variable {σ α β : Type}

/-- The issue of a pattern that polls succeeds. -/
def IssueSucceeds (r : Reconciler σ) (w : World σ) : Request α → Prop
  | .mutateThenPoll op issue _ _ =>
    ∃ first v, r.write op issue w = some first ∧ first.result = .ok v
  | .deleteThenPoll op issue _ _ =>
    ∃ first v, r.delete op issue w = some first ∧ first.result = .ok v
  | .read .. | .write .. | .delete .. => False

variable {r : Reconciler σ} {q : Request α} {w : World σ} {run : Run σ α} {action : String}

/-- The phases that a run goes through: they start with the issue and are joined by edges, polling
is among them exactly if the issue succeeded, and they end with that of the result. -/
structure PhaseSpec (r : Reconciler σ) (q : Request α) (w : World σ) (run : Run σ α) : Prop where
  walk : ∃ rest, run.trace = .opened (q.operation .issue).action :: rest ∧
    Trace.Walk .issuing rest (.after run.result)
  isChain : run.trace.phases.IsChain fun here next => here.canAdvance next = true
  polling_iff : .polling ∈ run.trace.phases ↔ r.IssueSucceeds w q
  settled : ∀ {before after}, run.trace.phases = before ++ .settled :: after →
    ∃ earlier, before = earlier ++ [.polling]
  final : run.trace.phases.filter Phase.isFinal = [.after run.result]
  last : ∃ earlier source,
    run.trace = earlier ++ [.advanced (q.operation .issue).action source (.after run.result)]

/-- The phases so far of a request that does not return: they start with the issue, polling is among
them exactly if the issue succeeded, and none of them is final. -/
structure PhasesSoFar (r : Reconciler σ) (q : Request α) (w : World σ) (t : Trace) : Prop where
  walk : ∃ rest last, t = .opened (q.operation .issue).action :: rest ∧
    Trace.Walk .issuing rest last ∧ last.isFinal = false
  isChain : t.phases.IsChain fun here next => here.canAdvance next = true
  polling_iff : .polling ∈ t.phases ↔ r.IssueSucceeds w q
  unsettled : ∀ p ∈ t.phases, p.isFinal = false

/-- A note of the issue and a walk to a final phase give the phases of a run. -/
theorem phaseSpec_of_walk (rest : Trace)
    (htrace : run.trace = .opened (q.operation .issue).action :: rest)
    (hwalk : Trace.Walk .issuing rest (.after run.result))
    (hpolling : .polling ∈ run.trace.phases ↔ r.IssueSucceeds w q)
    (hlast : ∃ earlier source,
      run.trace = earlier ++ [.advanced (q.operation .issue).action source (.after run.result)]) :
    PhaseSpec r q w run := by
  have hphases : run.trace.phases = .issuing :: rest.phases := by
    rw [htrace]
    rfl
  refine
    { walk := ⟨rest, htrace, hwalk⟩
      isChain := by rw [hphases]; exact hwalk.isChain
      polling_iff := hpolling
      settled := ?_
      final := by rw [hphases]; exact hwalk.filter_final (Phase.isFinal_after _)
      last := hlast }
  intro before after hsplit
  rw [hphases] at hsplit
  refine hwalk.settled hsplit ?_
  rintro rfl
  simp at hsplit

theorem not_succeeded {issued : Option (Run σ β)} {first : Run σ β} {f : Failure}
    (h : issued = some first) (hf : first.result = .error f) :
    ¬ ∃ first v, issued = some first ∧ first.result = .ok v := by
  rintro ⟨other, v, hother, hv⟩
  obtain rfl := Option.some.inj (h.symm.trans hother)
  rw [hf] at hv
  cases hv

section trace

variable {l m : Retrier σ} {script : Nat → Reply (Except Setback β)}
  {polls : Nat → Reply (Except Setback α)} {start mid : Nanos} {w' : World σ} {first : Run σ β}
  {second : Run σ α}

theorem phasesSoFar_issuing {events : Trace} (hquiet : ∀ e ∈ events, e.phase? = none)
    (haction : action = (q.operation .issue).action) (hissue : ¬ r.IssueSucceeds w q) :
    PhasesSoFar r q w ([.opened action] ++ events) := by
  subst haction
  have hwalk : Trace.Walk .issuing events .issuing := .of_quiet hquiet
  have hphases : Trace.phases ([.opened (q.operation .issue).action] ++ events) = [.issuing] := by
    rw [Trace.phases_append, Trace.phases_eq_nil hquiet]
    rfl
  refine
    { walk := ⟨events, .issuing, rfl, hwalk, rfl⟩
      isChain := ?_
      polling_iff := ?_
      unsettled := ?_ } <;> rw [hphases]
  · exact .singleton _
  · simp [hissue]
  · simp [Phase.isFinal]

theorem phasesSoFar_polling {issued events : Trace} (hissued : ∀ e ∈ issued, e.phase? = none)
    (hquiet : ∀ e ∈ events, e.phase? = none) (haction : action = (q.operation .issue).action)
    (hissue : r.IssueSucceeds w q) :
    PhasesSoFar r q w ([.opened action] ++ issued ++ [.advanced action .issuing .polling] ++
      events) := by
  subst haction
  have hwalk : Trace.Walk .issuing
      (issued ++ .advanced (q.operation .issue).action .issuing .polling :: events) .polling :=
    (Trace.Walk.of_quiet hissued).append (.advance rfl (.of_quiet hquiet))
  have hphases : Trace.phases ([.opened (q.operation .issue).action] ++ issued ++
      [.advanced (q.operation .issue).action .issuing .polling] ++ events) =
        [.issuing, .polling] := by
    simp only [Trace.phases_append, Trace.phases_eq_nil hissued, Trace.phases_eq_nil hquiet]
    rfl
  refine
    { walk := ⟨_, .polling, by simp, hwalk, rfl⟩
      isChain := ?_
      polling_iff := ?_
      unsettled := ?_ } <;> rw [hphases]
  · exact .cons_cons rfl (.singleton _)
  · simp [hissue]
  · simp [Phase.isFinal]

theorem phaseSpec_unpolled (hc : l.Course script start 0 w first) (f : Failure)
    (haction : action = (q.operation .issue).action) (hissue : ¬ r.IssueSucceeds w q) :
    PhaseSpec r q w (unpolled action first f) := by
  have hquiet := hc.phase?_eq_none
  refine phaseSpec_of_walk
    (first.trace ++ [.advanced action .issuing (.ofReason f.reason)]) ?_ ?_ ?_ ?_
  · rw [unpolled_trace, haction]
    rfl
  · refine (Trace.Walk.of_quiet hquiet).append ?_
    exact .advance (Phase.issuing_canAdvance_ofReason _) (.done _)
  · have hphases : (unpolled action first f : Run σ α).trace.phases =
        [.issuing, .ofReason f.reason] := by
      rw [unpolled_trace, Trace.phases_append, Trace.phases_append, Trace.phases_eq_nil hquiet]
      rfl
    have hend := Phase.ofReason_ne_polling f.reason
    simp [hphases, hissue, hend.symm]
  · rw [unpolled_trace, haction]
    exact ⟨_, .issuing, rfl⟩

theorem phaseSpec_polled (hc : l.Course script start 0 w first)
    (hd : m.Course polls mid 0 w' second) (haction : action = (q.operation .issue).action)
    (hissue : r.IssueSucceeds w q) : PhaseSpec r q w (polled action first second) := by
  have hquiet := hc.phase?_eq_none
  have hpolls := hd.phase?_eq_none
  refine phaseSpec_of_walk (first.trace ++ .advanced action .issuing .polling ::
    (second.trace ++ [.advanced action .polling (.after second.result)])) ?_ ?_ ?_ ?_
  · rw [polled_trace, haction]
    simp
  · refine (Trace.Walk.of_quiet hquiet).append (.advance rfl ?_)
    refine (Trace.Walk.of_quiet hpolls).append ?_
    exact .advance (Phase.polling_canAdvance_after _) (.done _)
  · have hentered : .polling ∈ (polled action first second).trace.phases := by
      rw [polled_trace]
      simp [Trace.phases, Event.phase?]
    exact iff_of_true hentered hissue
  · rw [polled_trace, haction]
    exact ⟨_, .polling, rfl⟩

end trace

theorem phaseSpec_of_perform (hq : q.pattern.polls = true) (h : r.perform q w = some run) :
    PhaseSpec r q w run := by
  cases q with
  | read | write | delete => cases hq
  | mutateThenPoll | deleteThenPoll =>
      obtain ⟨first, hissue, ⟨f, hf, rfl⟩ | ⟨v, second, hv, hpoll, rfl⟩⟩ := twoPhase_eq_some.mp h
      · obtain ⟨-, hc⟩ := Retrier.run_course hissue
        exact phaseSpec_unpolled hc f rfl (not_succeeded hissue hf)
      · obtain ⟨-, hc⟩ := Retrier.run_course hissue
        obtain ⟨-, hd⟩ := Retrier.run_course hpoll
        exact phaseSpec_polled hc hd rfl ⟨first, v, hissue, hv⟩

theorem phasesSoFar_of_perform (hq : q.pattern.polls = true) (h : r.perform q w = none) :
    PhasesSoFar r q w (r.events q w) := by
  cases q with
  | read | write | delete => cases hq
  | mutateThenPoll | deleteThenPoll =>
      rcases twoPhase_eq_none.mp h with hissue | ⟨first, v, hissue, hv, hpoll⟩
      · rw [events, hissue, phaseEvents, List.append_nil]
        refine phasesSoFar_issuing Retrier.phase?_events rfl ?_
        rintro ⟨first, v, hfirst, -⟩
        rw [hissue] at hfirst
        cases hfirst
      · rw [events, phaseEvents_of_polling hissue hv hpoll]
        exact phasesSoFar_polling Retrier.phase?_events Retrier.phase?_events rfl
          ⟨first, v, hissue, hv⟩

/-- The phases of a request follow the phase machine to the phase of its result, or as far as it
goes if it does not return. -/
theorem perform_phases (hq : q.pattern.polls = true) (w : World σ) :
    (∀ run, r.perform q w = some run → PhaseSpec r q w run) ∧
      (r.perform q w = none → PhasesSoFar r q w (r.events q w)) :=
  ⟨fun _ h => phaseSpec_of_perform hq h, fun h => phasesSoFar_of_perform hq h⟩

def patient : Reconciler Unit where
  gate := .unlimited
  policies := .uniform ⟨.seconds 1, .seconds 1, .seconds 60, 2, false⟩

/-- A disk that is ready at the second look. -/
def createDisk : Request Unit :=
  .mutateThenPoll ⟨"CreateDisk", false⟩ (fun _ => { answer := .ok () }) ⟨"GetDisk", true⟩
    fun _ n => { answer := .ok (if n = 0 then .pending "creating" else .ready ()) }

theorem perform_phases_createDisk : ∃ run,
    createDisk.pattern.polls = true ∧ patient.perform createDisk ⟨{}, ()⟩ = some run ∧
      run.trace.phases = [.issuing, .polling, .settled] ∧
      PhaseSpec patient createDisk ⟨{}, ()⟩ run := by
  have h : (patient.perform createDisk ⟨{}, ()⟩).map (·.trace.phases) =
      some [.issuing, .polling, .settled] := by
    decide +kernel
  obtain ⟨run, hrun, hphases⟩ := Option.map_eq_some_iff.mp h
  exact ⟨run, rfl, hrun, hphases, (perform_phases rfl _).1 run hrun⟩

end Reconciler

end Settle
