import Settle.CommandLine.Answer
import Settle.Proofs.Reconciler.Outcome

/-! # What is foretold of an error

The command line tells what will follow an error at a kind of call. A run of this kind does as
told whenever a call gets the error, as long as it has time left and is not withdrawn. -/

namespace Settle

/-! ## Outlooks -/

/-- What follows an error that is read in this way, while there is time left. -/
def Outlook.ofReading : Except Setback Unit → Outlook
  | .ok () => .alreadyDeleted
  | .error s => s.outlook

theorem Outlook.text_inj {o o' : Outlook} : o.text = o'.text ↔ o = o' := by
  refine ⟨fun h => ?_, congrArg text⟩
  cases o <;> cases o' <;> first | rfl | exact absurd h (by decide)

theorem Setback.outlook_retryable (cause : Cause) :
    (Setback.retryable cause).outlook = .backoff ∨
      (Setback.retryable cause).outlook = .notVisibleYet := by
  cases cause with
  | missing => exact .inr rfl
  | remote | status => exact .inl rfl

/-- What it means to a kind of call that the resource is absent. -/
def CallKind.absence (e : RemoteError) : CallKind → Except Setback Unit
  | .read => .error (.fatal (.missing e))
  | .write => .error (.fatal (.remote e))
  | .poll => .error (.retryable (.missing e))
  | .delete => .ok ()

namespace ErrorTable

variable (t : ErrorTable) {op op' : Operation} (kind : CallKind) {e e' : RemoteError}

theorem outlook_eq (op : Operation) (e : RemoteError) :
    t.outlook op kind e = .ofReading (t.meaning op (kind.absence e) e) := by
  cases kind with
  | read | write | poll =>
      rw [CallKind.absence, meaning_setback]
      rfl
  | delete =>
      rw [CallKind.absence, meaning_ok t op (.fatal (.remote e)) e, outlook, deleteSetback?]
      cases t.isAbsent e <;> rfl

/-- Of an error and its operation only the code and the flag count. -/
theorem outlook_congr (hop : op.idempotent = op'.idempotent) (he : e.code = e'.code) :
    t.outlook op kind e = t.outlook op' kind e' := by
  have hjudge : t.judge op e = t.judge op' e' := by simp only [judge, hop, he]
  rw [outlook_eq, outlook_eq, meaning, meaning, hjudge]
  cases t.judge op' e' with
  | retryable | fatal => rfl
  | absent => cases kind <;> rfl

end ErrorTable

namespace CommandLine

variable {s : Settings} {kind : CallKind} {o : Outlook}

theorem labelled_inj {name a b : String} : labelled name a = labelled name b ↔ a = b := by
  simp [labelled, ← String.toList_inj]

theorem classification_eq (s : Settings) (op : Operation) (kind : CallKind) (e : RemoteError) :
    classification s e.code op.idempotent kind =
      [labelled "code" e.code,
        labelled "class" (className ((ErrorTable.configured s.errorCodes).lookup e.code)),
        labelled "idempotent" (truth op.idempotent),
        labelled "verdict" ((ErrorTable.configured s.errorCodes).judge op e).text,
        labelled ("as " ++ kind.key)
          ((ErrorTable.configured s.errorCodes).outlook op kind e).text] := by
  have hshown : (ErrorTable.configured s.errorCodes).outlook ⟨"classify", op.idempotent⟩ kind
      ⟨e.code, "", none⟩ = (ErrorTable.configured s.errorCodes).outlook op kind e :=
    ErrorTable.outlook_congr _ kind rfl rfl
  rw [← hshown]
  rfl

/-- The command line tells, in the last line about an error code, that this will follow. -/
def Foretells (s : Settings) (code : String) (idempotent : Bool) (kind : CallKind)
    (o : Outlook) : Prop :=
  (classification s code idempotent kind).getLast? = some (labelled ("as " ++ kind.key) o.text)

theorem foretells_iff {op : Operation} {e : RemoteError} :
    Foretells s e.code op.idempotent kind o ↔
      (ErrorTable.configured s.errorCodes).outlook op kind e = o := by
  rw [Foretells, classification_eq]
  simp only [List.getLast?_cons_cons, List.getLast?_singleton, Option.some.injEq, labelled_inj,
    Outlook.text_inj]

end CommandLine

namespace Request

variable {α : Type}

/-- The kind of call that a request repeats in the stage that has its result. Polls for the end of
a resource are of no such kind. -/
def kind? : Request α → Stage → Option CallKind
  | .read .., .issue => some .read
  | .write .., .issue => some .write
  | .delete .., .issue => some .delete
  | .mutateThenPoll .., .poll => some .poll
  | _, _ => none

variable {q : Request α} {stage : Stage} {kind : CallKind}

theorem lastStage_of_kind (h : q.kind? stage = some kind) : q.lastStage = stage := by
  cases q <;> cases stage <;> first | rfl | cases h

theorem absence_of_kind (h : q.kind? stage = some kind) (e : RemoteError) :
    q.absence e stage = kind.absence e := by
  cases q <;> cases stage <;> cases h <;> rfl

end Request

namespace Reconciler

open CommandLine

variable {σ α : Type} {r : Reconciler σ} {q : Request α} {w : World σ} {run : Run σ α}
  {stage : Stage} {kind : CallKind} {before after : Trace} {e : RemoteError} {o : Outlook}

theorem understands_outlook (hk : q.kind? stage = some kind) :
    Outlook.ofReading (r.understands q stage e) = r.errors.outlook (q.operation stage) kind e := by
  rw [ErrorTable.outlook_eq, understands, Request.absence_of_kind hk]

/-! ## Runs -/

/-- The call between these events gets an error, and ends before the budget of its stage does. -/
inductive FailsInTime (r : Reconciler σ) (q : Request α) (run : Run σ α) (stage : Stage) :
    Trace → Trace → RemoteError → Prop where
  | intro {before after : Trace} {t start : Nanos} {reply : Reply (Except RemoteError Unit)}
      {e : RemoteError} (htrace : run.trace = before ++ .called stage t :: after)
      (hreply : q.replies (run.trace.calls .issue) stage (before.calls stage) = some reply)
      (he : reply.answer = .error e) (hbegun : run.trace.begun? stage = some start)
      (hleft : ((t + reply.took : Nanos) : Instant) < (r.retrier q stage).budgetEnd start) :
      FailsInTime r q run stage before after e

/-- How a run ends by an error that is not retried, for each thing that may follow it. -/
def EndsBy (run : Run σ α) (e : RemoteError) : Outlook → Prop
  | .notFound => run.verdict = .error (.notFound e)
  | .alreadyDeleted => ∃ v, run.verdict = .ok v
  | .fatal => run.verdict = .error (.remote e)
  | .backoff | .notVisibleYet => False

theorem EndsBy.unique {o' : Outlook} (h : EndsBy run e o) (h' : EndsBy run e o') : o = o' := by
  cases o <;> cases o' <;> simp_all [EndsBy]

/-- What follows a call that got an error: another one, or the end of the run by this call. -/
inductive Followed (run : Run σ α) (stage : Stage) (after : Trace) (e : RemoteError)
    (o : Outlook) : Prop where
  | again (ho : o = .backoff ∨ o = .notVisibleYet) (hcalls : 0 < after.calls stage)
  | ended (hcalls : after.calls stage = 0) (hend : EndsBy run e o)

theorem Followed.again_iff (h : Followed run stage after e o) :
    0 < after.calls stage ↔ o = .backoff ∨ o = .notVisibleYet := by
  cases h with
  | again ho hcalls => exact iff_of_true hcalls ho
  | ended hcalls hend =>
      rw [hcalls]
      refine iff_of_false (Nat.lt_irrefl 0) ?_
      rintro (rfl | rfl) <;> exact hend

theorem Followed.ended_iff (h : Followed run stage after e o) (o' : Outlook)
    (ho' : ¬ (o' = .backoff ∨ o' = .notVisibleYet)) :
    (after.calls stage = 0 ∧ EndsBy run e o') ↔ o = o' := by
  cases h with
  | again ho hcalls =>
      refine iff_of_false (fun hended => Nat.ne_of_gt hcalls hended.1) ?_
      rintro rfl
      exact ho' ho
  | ended hcalls hend =>
      refine ⟨fun hended => hend.unique hended.2, ?_⟩
      rintro rfl
      exact ⟨hcalls, hend⟩

theorem Performed.lastCall_of_reads (h : Performed r q w run) {t : Nanos}
    {answer : Except Setback Unit}
    (htrace : run.trace = before ++ .called q.lastStage t :: after)
    (hread : r.Reads q (run.trace.calls .issue) q.lastStage (before.calls q.lastStage) answer)
    (ha : ∀ cause, answer ≠ .error (.retryable cause)) :
    run.trace.LastCall q.lastStage (before.calls q.lastStage) ∧ after.calls q.lastStage = 0 := by
  have hcalls : run.trace.calls q.lastStage =
      before.calls q.lastStage + 1 + after.calls q.lastStage := by
    rw [htrace, Trace.calls_called]
  have hlast := h.last_of_reads (by omega) hread ha
  refine ⟨⟨hlast, fun hissue => h.calls_poll_eq_zero fun hpolls => ?_⟩, by omega⟩
  rw [h.lastStage_of_polls hpolls] at hissue
  cases hissue

/-- A call that gets an error in time is followed by what the error table has in store. -/
theorem Performed.followed (h : Performed r q w run) (hk : q.kind? stage = some kind)
    (hv : run.verdict ≠ .error .cancelled) (hf : r.FailsInTime q run stage before after e) :
    Followed run stage after e (r.errors.outlook (q.operation stage) kind e) := by
  obtain rfl := Request.lastStage_of_kind hk
  obtain ⟨htrace, hreply, he, hbegun, hleft⟩ := hf
  obtain ⟨reading, hreading, htook, hanswer⟩ := reading_of_error (r := r) hreply he
  rw [← understands_outlook hk]
  have hread : r.Reads q (run.trace.calls .issue) q.lastStage (before.calls q.lastStage)
      (r.understands q q.lastStage e) := ⟨reading, hreading, hanswer⟩
  rcases hu : r.understands q q.lastStage e with (cause | cause) | v
  · refine .again (Setback.outlook_retryable cause) ?_
    have hpos : 0 < run.trace.calls q.lastStage := by
      rw [htrace, Trace.calls_called]
      omega
    obtain ⟨first, hloop⟩ := h.loops.of_last hpos
    have hstart := Option.some.inj ((hloop.begun hpos).symm.trans hbegun)
    refine hloop.again ?_ htrace hreading (hanswer.trans hu) (by rwa [htook, hstart])
    rw [Run.verdict_outcome]
    exact fun hcancelled => hv (verdict_eq_cancelled hcancelled)
  · rw [hu] at hread
    obtain ⟨hlast, hnone⟩ := h.lastCall_of_reads htrace hread (by simp)
    have hverdict := h.concluded.of_fatal hlast hread
    rcases understands_eq_error hu with ⟨-, hs⟩ | ⟨-, hs⟩ | ⟨-, habsence⟩
    · cases hs
    · cases hs
      exact .ended hnone hverdict
    · rcases Request.absence_eq_error habsence with ⟨-, hs⟩ | ⟨-, hs⟩ | ⟨-, -, hs⟩
      · cases hs
        exact .ended hnone hverdict
      · cases hs
        exact .ended hnone hverdict
      · cases hs
  · rw [hu] at hread
    obtain ⟨hlast, hnone⟩ := h.lastCall_of_reads htrace hread (by simp)
    exact .ended hnone (h.concluded.of_success hlast hread rfl)

/-! ## What is told comes true -/

/-- What the command line tells about an error, and what the run makes of it. -/
structure ForecastSpec (s : Settings) (r : Reconciler σ) (q : Request α) (run : Run σ α)
    (stage : Stage) (kind : CallKind) (after : Trace) (e : RemoteError) : Prop where
  lines_eq : classification s e.code (q.operation stage).idempotent kind =
    [labelled "code" e.code,
      labelled "class" (className (r.errors.lookup e.code)),
      labelled "idempotent" (truth (q.operation stage).idempotent),
      labelled "verdict" (r.errors.judge (q.operation stage) e).text,
      labelled ("as " ++ kind.key) (r.errors.outlook (q.operation stage) kind e).text]
  again_iff : 0 < after.calls stage ↔
    Foretells s e.code (q.operation stage).idempotent kind .backoff ∨
      Foretells s e.code (q.operation stage).idempotent kind .notVisibleYet
  notFound_iff : (after.calls stage = 0 ∧ run.verdict = .error (.notFound e)) ↔
    Foretells s e.code (q.operation stage).idempotent kind .notFound
  alreadyDeleted_iff : (after.calls stage = 0 ∧ ∃ v, run.verdict = .ok v) ↔
    Foretells s e.code (q.operation stage).idempotent kind .alreadyDeleted
  fatal_iff : (after.calls stage = 0 ∧ run.verdict = .error (.remote e)) ↔
    Foretells s e.code (q.operation stage).idempotent kind .fatal

/-- Under the error table of the settings, a run makes of an error what the command line tells. A
request that is left unfinished has met no errors of its kind but those for which it tells a
retry. -/
theorem perform_foretold {s : Settings} (hr : r.errors = .configured s.errorCodes)
    (hk : q.kind? stage = some kind) (w : World σ) :
    (∀ run, r.perform q w = some run → run.verdict ≠ .error .cancelled →
        ∀ before after e, r.FailsInTime q run stage before after e →
          ForecastSpec s r q run stage kind after e) ∧
      (r.perform q w = none → ∃ own issued start, Unfinished r q w own issued start ∧
        (own = stage → (r.retrier q stage).HoldsEnd start →
          ∀ n e, n < Retrier.maxAttempts → q.Answered issued stage n (.error e) →
            Foretells s e.code (q.operation stage).idempotent kind .backoff ∨
              Foretells s e.code (q.operation stage).idempotent kind .notVisibleYet)) := by
  refine ⟨fun run h hv before after e hf => ?_, fun h => ?_⟩
  · have hfollowed := (performed h).followed hk hv hf
    rw [hr] at hfollowed
    exact
      { lines_eq := by rw [hr]; exact classification_eq s _ kind e
        again_iff := by rw [foretells_iff, foretells_iff]; exact hfollowed.again_iff
        notFound_iff := by rw [foretells_iff]; exact hfollowed.ended_iff .notFound (by simp)
        alreadyDeleted_iff := by
          rw [foretells_iff]
          exact hfollowed.ended_iff .alreadyDeleted (by simp)
        fatal_iff := by rw [foretells_iff]; exact hfollowed.ended_iff .fatal (by simp) }
  · obtain ⟨own, issued, start, hu⟩ := unfinished h
    refine ⟨own, issued, start, hu, ?_⟩
    rintro rfl hb n e hn hanswer
    obtain ⟨cause, hread⟩ := hu.asks hb hn
    have hreading := hread.unique (reads_error hanswer)
    rw [foretells_iff, foretells_iff, ← hr, ← understands_outlook hk, ← hreading]
    exact Setback.outlook_retryable cause

/-- Settings under which two families of codes have classes of their own. -/
def extraCodes : Settings where
  errorCodes := { absent := ["NoSuchDisk"], fatal := ["ResourceBusy.Broken"] }

def forewarned : Reconciler Unit where
  gate := .unlimited
  errors := .configured extraCodes.errorCodes
  policies := .uniform ⟨.seconds 5, .seconds 1, .seconds 2, 2, false⟩

def diskHidden : RemoteError := ⟨"NoSuchDisk.Yet", "not yet", none⟩

def diskBroken : RemoteError := ⟨"ResourceBusy.Broken.Fan", "no cooling", none⟩

/-- A disk that is not visible at first, and then turns out to be broken. -/
def brokenDisk : Request Unit :=
  .mutateThenPoll ⟨"CreateDisk", false⟩ (fun _ => { answer := .ok () }) ⟨"GetDisk", true⟩
    fun _ n => { answer := .error (if n = 0 then diskHidden else diskBroken) }

theorem perform_foretold_brokenDisk : ∃ run before after,
    forewarned.errors = .configured extraCodes.errorCodes ∧
      brokenDisk.kind? .poll = some .poll ∧
      forewarned.perform brokenDisk ⟨{}, ()⟩ = some run ∧
      run.verdict ≠ .error .cancelled ∧
      forewarned.FailsInTime brokenDisk run .poll before after diskBroken ∧
      ForecastSpec extraCodes forewarned brokenDisk run .poll .poll after diskBroken := by
  let before : Trace :=
    [.opened "CreateDisk", .reserved .issue "CreateDisk" 0 0 false, .called .issue 0,
      .succeeded "CreateDisk" 1 0, .advanced "CreateDisk" .issuing .polling,
      .reserved .poll "GetDisk" 0 0 false, .called .poll 0,
      .retrying "GetDisk" 1 0 (.seconds 1) (.missing diskHidden),
      .reserved .poll "GetDisk" (.seconds 1) 0 false]
  let after : Trace :=
    [.refused "GetDisk" 2 (.remote diskBroken), .advanced "CreateDisk" .polling .failed]
  have h : (forewarned.perform brokenDisk ⟨{}, ()⟩).map (fun run =>
      (run.trace, match run.verdict with | .error reason => some reason | _ => none)) =
      some (before ++ .called .poll (.seconds 1) :: after, some (.remote diskBroken)) := by
    decide +kernel
  obtain ⟨run, hrun, hends⟩ := Option.map_eq_some_iff.mp h
  obtain ⟨htrace, hreason⟩ := Prod.mk.inj hends
  have hverdict : run.verdict ≠ .error .cancelled := by
    intro hcancelled
    simp [hcancelled] at hreason
  have hfails : forewarned.FailsInTime brokenDisk run .poll before after diskBroken := by
    have hreply : brokenDisk.replies (run.trace.calls .issue) .poll (before.calls .poll) =
        some { answer := .error diskBroken } := by
      rw [htrace]
      rfl
    have hbegun : run.trace.begun? .poll = some 0 := by
      rw [htrace]
      rfl
    exact .intro htrace hreply rfl hbegun (by decide +kernel)
  exact ⟨run, before, after, rfl, rfl, hrun, hverdict, hfails,
    (perform_foretold rfl rfl _).1 run hrun hverdict before after diskBroken hfails⟩

end Reconciler

end Settle
