import CoreWarden.Proofs.Controller.Failure
import CoreWarden.Proofs.Controller.Mirror
import CoreWarden.Proofs.Controller.Told

/-!
Calls that are refused, and delayed or periodic work that is given up because something is going on. What
is turned away leaves no trace but a notice: a skipped tick that is counted, or an error that is shown.
Afterwards everything happens as if it had not been asked for. Work that has begun is told the words of a
refusal only where a collaborator has used them.
-/
namespace CoreWarden

open Controller (Hears Refusal Mirrors Reflects Source)

namespace Result

def error? : Result → Option Error
  | switch (.error e) | reload (.error e) | recover (.error e) | refetch (.error e) => some e
  | _ => none

/-- Whether a result says that nothing was done. -/
def refuses : Result → Bool
  | switch (.ok (.unchanged _)) | switch (.error (.badRequest _)) | switch (.error (.busy _)) => true
  | reload (.error (.busy _)) => true
  | recover (.ok .alreadyRecovering) | recover (.error (.busy _))
    | recover (.error (.recoveryExhausted _)) => true
  | reconcile .skipped => true
  | _ => false

end Result

/-- What is left to be seen of something that was turned away. -/
structure Notice where
  skips : UInt64
  error : Option Error

namespace Notice

def none : Notice := ⟨0, .none⟩

def skipped : Notice := ⟨1, .none⟩

end Notice

/-- The notice of a refusal: a skipped tick is counted, and the end of all recoveries is shown. -/
def Result.notice : Result → Notice
  | reconcile .skipped => .skipped
  | recover (.error (.recoveryExhausted attempts)) => ⟨0, some (.recoveryExhausted attempts)⟩
  | _ => .none

/-- The snapshot with a notice, and otherwise the same. -/
def Snapshot.notified (s : Snapshot) (notice : Notice) : Snapshot :=
  { s with
    skippedTicks := s.skippedTicks + notice.skips
    switchError := (notice.error.map Error.message).or s.switchError }

theorem SyncState.Skewed.notified {s s' : SyncState} {skips : UInt64} (h : s.Skewed skips False s') :
    s'.snapshot = s.snapshot.notified ⟨skips, none⟩ := by
  obtain ⟨error, hs, hfalse | rfl⟩ := h.snapshot
  · exact hfalse.elim
  · rw [hs]
    rfl

theorem SyncState.notified_setError (s : SyncState) (e : Error) :
    (s.setError (some e.message)).snapshot = s.snapshot.notified ⟨0, some e⟩ := by
  rw [snapshot_setError]
  simp [Snapshot.notified]

theorem Controller.startTick_of_busy (c : Controller) {origin : Origin} (hb : c.state.activity ≠ .idle)
    (ho : ∀ awaits, origin ≠ .caller awaits) :
    c.startTick origin = (c.onState .recordSkippedTick, []) := by
  rw [startTick, SyncState.enter_of_ne_idle _ _ hb]
  cases origin with
  | caller awaits => exact absurd rfl (ho awaits)
  | debounce | visibility | reconciler | poller => rfl

theorem Switch.badRequest_of_idFault? {id : String} {e : Error} (h : idFault? id = some e) :
    ∃ detail, e = .badRequest detail := by
  unfold idFault? at h
  split at h
  · exact ⟨_, (Option.some.inj h).symm⟩
  · split at h
    · cases h
    · exact ⟨_, (Option.some.inj h).symm⟩

namespace Turn

def Rejects (t : Turn) (n : Nat) (result : Result) : Prop :=
  (∃ call, t.event = .call call) ∧ .ended n result ∈ t.outputs

/-- A turn leaves nothing but a notice. It begins no call; the cache, the work that goes on and the timers
are those of the controller `rest`; and whatever happens to it from then on, it does the same, and stays
the same but for the notice, as `rest` does if the same happens to it. -/
structure Inert (t : Turn) (rest : Controller) (σ : Renumbering rest.nextId) (notice : Notice) :
    Prop where
  calls : ∀ n slot request, .ask n slot request ∉ t.outputs
  cache : t.after.cache = rest.cache
  running : t.after.running = rest.running
  timers : ∀ timer, t.after.due? timer = rest.due? timer
  snapshot : t.after.snapshot = rest.snapshot.notified notice
  numbers : ∀ r ∈ rest.running, σ.number r.id = r.id
  onward : ∀ es, Reflects σ notice.skips (notice.error.isSome = true) (rest.later.run es)
    (t.after.run (es.map σ.event))

/-- A call is refused: it is told so, with the activity that goes on if that is the reason, and leaves
nothing but the notice. -/
structure Refuses (t : Turn) (result : Result) : Prop where
  told : result.refuses = true
  busy : ∀ activity, result.error? = some (.busy activity) →
    t.before.state.activity ≠ .idle ∧ activity = t.before.state.activity.label
  inert : t.Inert t.before (.skip t.before.nextId) result.notice

end Turn

/-- Something that comes by itself finds another activity going on and is given up; without it the
controller would be `rest`. -/
inductive Dismissal (c : Controller) : Event → Controller → Notice → Prop
  | debounce {due} (hd : c.due? .debounce = some due) (hn : due ≤ c.now) (hb : c.state.activity ≠ .idle) :
      Dismissal c (.wake .debounce) { c with debounce := .empty } .none
  | visibility {due} (hd : c.due? .visibility = some due) (hn : due ≤ c.now)
      (hb : c.state.activity ≠ .idle) :
      Dismissal c (.wake .visibility) { c with visibility := .empty } .skipped
  | reconciler {due ticker} (hd : c.due? .reconciler = some due) (hn : due ≤ c.now)
      (hb : c.state.activity ≠ .idle) (ht : c.background.bind Background.reconciler = some ticker) :
      Dismissal c (.wake .reconciler) (c.setReconciler (ticker.take c.now)) .skipped
  /-- A reconciliation due at once takes the place of one that is under way. -/
  | atOnce (hv : c.shared.timings.visibilityDelay.toNat = 0) (hr : c.isRunning .visibility = true) :
      Dismissal c (.visibility true) { c.abort .visibility with visibility := .empty } .skipped

namespace Turn

variable {timings : Timings} {t : Turn} {n : Nat} {result : Result}

theorem inert_of_state {rest : Controller} {σ : Renumbering rest.nextId} {notice : Notice}
    {state : SyncState} (hids : ∀ r ∈ rest.running, σ.number r.id = r.id)
    (hstate : rest.state.Skewed notice.skips (notice.error.isSome = true) state)
    (hsnapshot : state.snapshot = rest.snapshot.notified notice)
    (hafter : t.after = { rest.later with
      shared := { rest.later.shared with state }
      nextId := σ.number rest.nextId })
    (hcalls : ∀ n slot request, .ask n slot request ∉ t.outputs) : t.Inert rest σ notice where
  calls := hcalls
  cache := by
    rw [hafter]
    rfl
  running := by
    rw [hafter]
    rfl
  timers timer := by
    rw [hafter]
    cases timer with
    | reset => exact congrArg TimerSlot.due? hstate.reset
    | debounce | visibility | reconciler | poller | work => rfl
  snapshot := by
    rw [hafter]
    exact hsnapshot
  numbers := hids
  onward es := by
    have hrunning : rest.running.map σ.running = rest.running := by
      refine (List.map_congr_left fun r hr => ?_).trans (List.map_id _)
      rw [Renumbering.running, hids r hr, id]
    have hmirrors : Mirrors σ notice.skips (notice.error.isSome = true) rest.later t.after := by
      refine ⟨Nat.le_refl _, state, hstate, hafter.trans ?_⟩
      rw [Renumbering.controller, show rest.later.running = rest.running from rfl, hrunning]
      rfl
    exact hmirrors.run es

/-! ### Calls that are answered at once -/

theorem inert_of_answerAtOnce {notice : Notice} {state : SyncState} (hn : t.before.Numbered)
    (hstate : t.before.state.Skewed notice.skips (notice.error.isSome = true) state)
    (hsnapshot : state.snapshot = t.before.snapshot.notified notice)
    (hstep : t.before.step t.event =
      (t.before.later.onState fun _ => state).answerAtOnce result) :
    t.Inert t.before (.skip t.before.nextId) notice := by
  refine inert_of_state (fun r hr => Renumbering.skip_of_lt (hn.ids_lt r hr)) hstate hsnapshot ?_ ?_
  · rw [after, hstep, Renumbering.skip_self]
    rfl
  · intro m slot request hm
    rw [outputs, hstep] at hm
    cases List.mem_singleton.mp hm

theorem refuses_of_refusal {call : Call} (hn : t.before.Numbered)
    (h : Refusal t.before.later call result)
    (hstep : t.before.step t.event = t.before.later.answerAtOnce result) : t.Refuses result := by
  have hskewed : t.before.state.Skewed 0 False t.before.state := .refl _
  have hinert : t.Inert t.before (.skip t.before.nextId) .none :=
    inert_of_answerAtOnce hn (hskewed.mono False.elim) hskewed.notified hstep
  cases h with
  | idFault hf =>
    obtain ⟨detail, rfl⟩ := Switch.badRequest_of_idFault? hf
    exact ⟨rfl, by simp [Result.error?], hinert⟩
  | current => exact ⟨rfl, by simp [Result.error?], hinert⟩
  | switchBusy hb | reloadBusy hb | recoverBusy hb =>
    refine ⟨rfl, ?_, hinert⟩
    intro activity hbusy
    cases hbusy
    exact ⟨hb, rfl⟩
  | recovering => exact ⟨rfl, by simp [Result.error?], hinert⟩

theorem refuses_of_rejects (hn : t.before.Numbered) (h : t.Rejects n result) : t.Refuses result := by
  obtain ⟨⟨call, he⟩, hm⟩ := h
  have hact := Controller.act_step t.before t.event
  rw [outputs] at hm
  generalize hstep : t.before.step t.event = out at hact hm
  rw [he] at hact
  cases hact with
  | refused hrefusal =>
    cases List.mem_singleton.mp hm
    exact refuses_of_refusal hn hrefusal hstep
  | exhausted hmax =>
    cases List.mem_singleton.mp hm
    refine ⟨rfl, by simp [Result.error?], ?_⟩
    have hskewed := t.before.state.skewed_setError
    exact inert_of_answerAtOnce hn ((hskewed _).mono fun _ => rfl)
      (t.before.state.notified_setError _) hstep
  | skippedCall hb =>
    cases List.mem_singleton.mp hm
    refine ⟨rfl, by simp [Result.error?], ?_⟩
    have hskewed := t.before.state.skewed_recordSkippedTick
    exact inert_of_answerAtOnce hn (hskewed.mono False.elim) hskewed.notified hstep
  | nothing | skippedTick => cases hm
  | begins | joins => exact absurd hm Controller.not_ended_mem_asks
  | resumed hears => cases hears

/-! ### What comes by itself and is given up -/

theorem inert_of_step {rest : Controller} {skips : UInt64} {state : SyncState}
    (hstate : rest.state.Skewed skips False state)
    (hstep : t.before.step t.event =
      ({ rest.later with shared := { rest.later.shared with state } }, [])) :
    t.Inert rest (.keep rest.nextId) ⟨skips, none⟩ := by
  refine inert_of_state (fun _ _ => rfl) (hstate.mono False.elim) hstate.notified ?_ ?_
  · rw [after, hstep]
    rfl
  · intro n slot request hm
    rw [outputs, hstep] at hm
    cases hm

theorem inert_of_dismissal {rest : Controller} {notice : Notice}
    (h : Dismissal t.before t.event rest notice) : t.Inert rest (.keep rest.nextId) notice := by
  generalize he : t.event = e at h
  cases h with
  | debounce hd hn hb =>
    refine inert_of_step (.refl _) ?_
    rw [he, Controller.step_wake hd hn]
    change t.before.later.startDebounced = _
    have henter : { t.before.later with debounce := .empty }.state.enter .reconciling = _ :=
      SyncState.enter_of_ne_idle _ _ hb
    unfold Controller.startDebounced
    dsimp only
    rw [henter]
    rfl
  | visibility hd hn hb =>
    refine inert_of_step (SyncState.skewed_recordSkippedTick _) ?_
    rw [he, Controller.step_wake hd hn]
    exact Controller.startTick_of_busy { t.before.later with visibility := .empty } hb (by simp)
  | @reconciler due ticker hd hn hb ht =>
    have hticker : t.before.later.background.bind Background.reconciler = some ticker := ht
    refine inert_of_step (SyncState.skewed_recordSkippedTick _) ?_
    rw [he, Controller.step_wake hd hn, Controller.fire, hticker]
    exact (t.before.later.setReconciler (ticker.take t.before.now)).startTick_of_busy hb (by simp)
  | atOnce hv hr =>
    have hskewed := t.before.state.skewed_recordSkippedTick.foldl_leave
      ((t.before.running.filter (·.origin == .visibility)).filterMap (·.work.activity?))
    refine inert_of_step hskewed ?_
    have hat : (t.before.later.shared.timings.visibilityDelay.toNat = 0 &&
        t.before.later.isRunning .visibility) = true :=
      (Bool.and_eq_true _ _).mpr ⟨decide_eq_true hv, hr⟩
    rw [he]
    change (t.before.later.changeVisibility true, []) = _
    rw [Controller.changeVisibility, if_pos rfl]
    dsimp only
    rw [if_pos hat]
    rfl

end Turn

/-! ### Errors of collaborators -/

namespace Switch

variable {s s' : Shared} {id : String} {phase : Switch} {signal : Signal} {e : Error}

theorem error_of_probed {progress : Progress Probe (Except Error Unit)} {asks : List (Nat × Request)}
    (h : probed s id progress = (s', .waiting (.reporting e) asks)) : progress = .done (.error e) := by
  revert h
  fun_cases probed s id progress <;> intro h <;> cases h
  rfl

theorem of_reporting {asks : List (Nat × Request)}
    (h : resume s id phase signal = (s', .waiting (.reporting e) asks)) :
    phase = .reporting e ∨ phase = .switching ∧ signal = .answer 0 (.switch (.error e)) ∨
      e.IsUnhealthy := by
  revert h
  fun_cases resume s id phase signal <;> intro h
  case case7 =>
    cases h
    exact .inr (.inl ⟨rfl, rfl⟩)
  case case8 => exact absurd (error_of_probed h) (by simp [Probe.start, Probe.ask])
  case case9 probe => exact .inr (.inr (Probe.isUnhealthy_of_done (error_of_probed h)))
  case case12 =>
    unfold refreshed at h
    split at h <;> cases h
  all_goals cases h
  case case14 => exact .inl rfl

theorem reporting_of_done (h : resume s id phase signal = (s', .done (.error e))) :
    phase = .reporting e := by
  have hprobed : ∀ progress, (probed s id progress).2 ≠ .done (.error e) := by
    intro progress
    fun_cases probed s id progress <;> simp [fail]
  revert h
  fun_cases resume s id phase signal <;> intro h
  case case8 | case9 => exact absurd (congrArg Prod.snd h) (hprobed _)
  case case12 =>
    unfold refreshed at h
    split at h <;> cases h
  all_goals cases h
  rfl

end Switch

theorem Tick.outcome_ne_skipped (observed : Option GroupShape) (state : SyncState)
    (profiles : Except Error ProfileList) (proxies : Except Error ProxySnapshot) :
    (finding observed state profiles proxies).outcome ≠ .skipped := by
  unfold finding
  split
  · dsimp only
    split <;> simp
  · simp
  · simp

/-- Work is told the error with which a collaborator has answered its order to switch or to restart. -/
def PassedOn (turns : List Turn) (n : Nat) : Result → Prop
  | .switch (.error e) => ∃ u ∈ turns, ∃ id, u.Answers n (.switch id) (.switch (.error e))
  | .reload (.error e) | .recover (.error e) => ∃ u ∈ turns, u.Answers n .restart (.restart (.error e))
  | _ => False

namespace Controller

variable {timings : Timings} {past : List Turn} {t : Turn}

/-- The error that a switch is about to report is the answer of the core, or that of its health wait. -/
def Reported (past : List Turn) (c : Controller) : Prop :=
  ∀ r ∈ c.running, ∀ id e, r.work = .switch id (.reporting e) →
    PassedOn past r.id (.switch (.error e)) ∨ e.IsUnhealthy

theorem reported_turn (hs : t.before.Sound timings) (h : t.before.Reported past) :
    t.after.Reported (past ++ [t]) := by
  intro r hr id e hw
  have hkept : ∀ n, PassedOn past n (.switch (.error e)) →
      PassedOn (past ++ [t]) n (.switch (.error e)) := by
    rintro n ⟨u, hu, hanswers⟩
    exact ⟨u, List.mem_append_left _ hu, hanswers⟩
  have hsource := source_of_turn hs hr
  generalize t.outputs = outputs at hsource
  cases hsource with
  | @kept r₀ _ _ hr₀ => exact (h r₀ hr₀ id e hw).imp_left (hkept _)
  | opened onset hi hopening =>
    generalize t.event = event at hopening
    cases hopening <;> cases hw
  | joined onset haside =>
    generalize t.event = event at haside
    cases haside <;> cases hw
  | @advanced r₀ signal s' work asks hears ha =>
    have hr₀ : r₀ ∈ t.before.running := mem_of_find? hears.find?
    generalize hw₀ : r₀.work = w at ha
    cases ha with
    | switch hresume =>
      cases hw
      rcases Switch.of_reporting hresume with rfl | ⟨rfl, rfl⟩ | hunhealthy
      · exact (h r₀ hr₀ _ _ hw₀).imp_left (hkept _)
      · obtain ⟨request, hrequest, hanswers⟩ := hears.answers
        rw [hw₀] at hrequest
        cases List.mem_singleton.mp hrequest
        exact .inl ⟨t, by simp, _, hanswers⟩
      · exact .inr hunhealthy
    | reload | recover | reconcile | refresh => cases hw

theorem reported_run (timings : Timings) (currentConfig : Option String) (es : List Event) :
    let c := initial timings currentConfig
    (c.run es).1.Sound timings ∧ (c.run es).1.Reported (c.turns es) := by
  refine turns_induction (P := fun past c => c.Sound timings ∧ c.Reported past) ?_ ?_ es
  · exact ⟨sound_initial timings currentConfig, by simp [Reported, initial]⟩
  · rintro past t ⟨hs, hreported⟩
    exact ⟨hs.step t.event, reported_turn hs hreported⟩

end Controller

theorem Controller.error_of_reloadEnded {step : Shared × Reload.Step} {s' : Shared} {e : Error}
    (h : reloadEnded step = (s', .done (.error e))) : step.2 = .done (.error e) := by
  obtain ⟨s, progress⟩ := step
  match progress with
  | .waiting phase asks => cases h
  | .done (.ok ()) => cases h
  | .done (.error e') =>
    cases h
    rfl

namespace Turn

variable {timings : Timings} {past : List Turn} {t : Turn} {n : Nat} {result : Result} {e : Error}

theorem answers_of_restart {r : Running} {signal : Signal} (hears : Hears t.before.later r t.event signal)
    (hawaits : r.work.awaits = [(0, .restart)]) (hsignal : signal = .answer 0 (.restart (.error e))) :
    ∃ u ∈ past ++ [t], u.Answers r.id .restart (.restart (.error e)) := by
  subst hsignal
  obtain ⟨request, hrequest, hanswers⟩ := hears.answers
  rw [hawaits] at hrequest
  cases List.mem_singleton.mp hrequest
  exact ⟨t, by simp, hanswers⟩

/-- Work that ends with a refusal passes on the error of a collaborator. -/
theorem passedOn_of_ending (hreported : t.before.Reported past) {r : Running} {signal : Signal}
    {s' : Shared} (hears : Hears t.before.later r t.event signal)
    (hending : r.work.Ending t.before.later.shared signal s' (some result))
    (hrefuses : result.refuses = true) : PassedOn (past ++ [t]) r.id result := by
  have hr : r ∈ t.before.running := Controller.mem_of_find? hears.find?
  generalize hw : r.work = w at hending
  cases hending with
  | @switch id phase _ _ outcome hresume =>
    cases outcome with
    | ok outcome =>
      have heffect := (Switch.effect hresume).1
      generalize s'.state = state at heffect
      cases heffect with
      | none hnone | check _ hnone => exact absurd rfl (hnone outcome)
      | success => cases hrefuses
    | error e =>
      obtain rfl := Switch.reporting_of_done hresume
      rcases hreported r hr id e hw with ⟨u, hu, hanswers⟩ | rfl | ⟨waited, rfl⟩
      · exact ⟨u, List.mem_append_left _ hu, hanswers⟩
      · cases hrefuses
      · cases hrefuses
  | @reload phase _ _ outcome hresume =>
    cases outcome with
    | ok => cases hrefuses
    | error e =>
      have hdone := Controller.error_of_reloadEnded hresume
      rcases Reload.error_of_done (Prod.ext rfl hdone) with ⟨rfl, hsignal⟩ | rfl | ⟨waited, rfl⟩
      · exact answers_of_restart hears (by rw [hw]; rfl) hsignal
      · cases hrefuses
      · cases hrefuses
  | @recover attempt phase _ _ outcome hresume =>
    cases outcome with
    | ok outcome =>
      have heffect := (Recovery.effect hresume).1
      generalize s'.state = state at heffect
      cases heffect <;> cases hrefuses
    | error e =>
      rcases Recovery.error_of_done hresume with ⟨rfl, hsignal⟩ | rfl | ⟨waited, rfl⟩
      · exact answers_of_restart hears (by rw [hw]; rfl) hsignal
      · cases hrefuses
      · cases hrefuses
  | check | refetched | notRefetched => cases hrefuses

theorem rejects_or_passedOn (hreported : t.before.Reported past) (hm : .ended n result ∈ t.outputs)
    (hrefuses : result.refuses = true) :
    t.Rejects n result ∨ PassedOn (past ++ [t]) n result := by
  have htold := Controller.told_of_turn hm
  generalize he : t.event = event at htold
  cases htold with
  | refused | exhausted | skipped => exact .inl ⟨⟨_, he⟩, hm⟩
  | ended ho hears hending => exact .inr (passedOn_of_ending hreported (he ▸ hears) hending hrefuses)
  | @concluded _ r signal tick profiles proxies =>
    have hskipped := Tick.outcome_ne_skipped t.before.later.observedShape t.before.later.state profiles
      proxies
    cases houtcome : (Tick.finding t.before.later.observedShape t.before.later.state profiles
      proxies).outcome with
    | skipped => exact absurd houtcome hskipped
    | unchanged | changed | fetchFailed =>
      rw [houtcome] at hrefuses
      cases hrefuses
  | @collapsed r =>
    cases hw : r.work <;> simp [hw, Controller.collapsed, Result.refuses] at hrefuses

end Turn

namespace Controller

/-- In every run: a caller is told a refusal in the event of his call, or by work that passes on the error
of a collaborator. A call that is answered in its own event is refused; it is told of the activity
that goes on if that is the reason, and leaves nothing but its notice. The same is so of whatever comes by
itself and is given up because another activity goes on. -/
theorem refusals_are_inert (timings : Timings) (currentConfig : Option String) (es : List Event)
    (e : Event) :
    let c := initial timings currentConfig
    let t : Turn := ⟨(c.run es).1, e⟩
    (∀ n result, .ended n result ∈ t.outputs → result.refuses = true →
      t.Rejects n result ∨ PassedOn (c.turns (es ++ [e])) n result) ∧
    (∀ n result, t.Rejects n result → t.Refuses result) ∧
    ∀ rest notice, Dismissal t.before t.event rest notice → t.Inert rest (.keep rest.nextId) notice := by
  intro c t
  obtain ⟨hs, hreported⟩ : t.before.Sound timings ∧ t.before.Reported (c.turns es) :=
    reported_run timings currentConfig es
  refine ⟨?_, fun n result => Turn.refuses_of_rejects hs.toNumbered,
    fun rest notice => Turn.inert_of_dismissal⟩
  intro n result hm hrefuses
  rw [turns_snoc]
  exact Turn.rejects_or_passedOn hreported hm hrefuses

/-- The second reload finds the first one going on. -/
theorem second_reload_is_refused :
    let c := initial Timings.standard none
    let t : Turn := ⟨(c.run [.call .reload]).1, .call .reload⟩
    t.outputs = [.ended 1 (.reload (.error (.busy Activity.reloading.label)))] ∧
      t.Refuses (.reload (.error (.busy Activity.reloading.label))) := by
  intro c t
  have houtputs : t.outputs = [.ended 1 (.reload (.error (.busy Activity.reloading.label)))] := rfl
  have hm : .ended 1 (.reload (.error (.busy Activity.reloading.label))) ∈ t.outputs :=
    houtputs ▸ List.mem_singleton.mpr rfl
  obtain ⟨-, hrefuses, -⟩ := refusals_are_inert Timings.standard none [.call .reload] (.call .reload)
  exact ⟨houtputs, hrefuses 1 _ ⟨⟨.reload, rfl⟩, hm⟩⟩

def switchAtFault : List Event :=
  [.call (.switch "b"), .answer 0 0 (.status (.error .notConfigured)),
    .answer 0 0 (.switch (.error (.badRequest "no")))]

/-- The switch has made calls and is in the history, and is told that the request was at fault. -/
theorem switch_at_fault_leaves_traces :
    let c := initial Timings.standard (some "a")
    let t : Turn := ⟨(c.run switchAtFault).1, .answer 0 0 (.status (.error .notConfigured))⟩
    (c.run switchAtFault).2 = [.ask 0 0 .status, .ask 0 0 (.switch "b"), .ask 0 0 .status] ∧
      t.outputs = [.ended 0 (.switch (.error (.badRequest "no")))] ∧
      t.after.snapshot.history.length = 1 ∧ c.snapshot.history = [] :=
  ⟨rfl, rfl, rfl, rfl⟩

end Controller

end CoreWarden
