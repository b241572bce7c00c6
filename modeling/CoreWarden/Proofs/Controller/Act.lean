import CoreWarden.Controller.Step
import CoreWarden.Proofs.SyncState.Operations

/-!
All that an event can do to a controller. `act_step` puts every event of every controller under one
of the cases of `Act`; what goes on in a piece of work is said by `Work.Advance` and `Work.Ending`.
-/
namespace CoreWarden

namespace Work

/-- What a signal makes of a piece of work that goes on, with the calls that it begins. -/
inductive Advance (s : Shared) : Work → Signal → Shared → Work → List (Nat × Request) → Prop
  | switch {id phase signal s' phase' asks}
      (h : Switch.resume s id phase signal = (s', .waiting phase' asks)) :
      Advance s (.switch id phase) signal s' (.switch id phase') asks
  | reload {phase signal s' phase' asks}
      (h : Reload.resume s phase signal = (s', .waiting phase' asks)) :
      Advance s (.reload phase) signal s' (.reload phase') asks
  | recover {attempt phase signal s' phase' asks}
      (h : Recovery.resume s attempt phase signal = (s', .waiting phase' asks)) :
      Advance s (.recover attempt phase) signal s' (.recover attempt phase') asks
  | reconcile {tick signal} (h : (Tick.resume tick signal).results? = none) :
      Advance s (.reconcile tick) signal s (.reconcile (tick.resume signal)) []
  | refresh {refresh signal refresh' s'} (h : s.resumeRefresh refresh signal = (refresh', s'))
      (hd : refresh'.isDone = false) :
      Advance s (.refresh refresh) signal s' (.refresh refresh') []

inductive Ending (s : Shared) : Work → Signal → Shared → Option Result → Prop
  | switch {id phase signal s' result} (h : Switch.resume s id phase signal = (s', .done result)) :
      Ending s (.switch id phase) signal s' (some (.switch result))
  | reload {phase signal s' result}
      (h : Controller.reloadEnded (Reload.resume s phase signal) = (s', .done result)) :
      Ending s (.reload phase) signal s' (some (.reload result))
  | recover {attempt phase signal s' result}
      (h : Recovery.resume s attempt phase signal = (s', .done result)) :
      Ending s (.recover attempt phase) signal s' (some (.recover result))
  | check (result) : Ending s .check (.answer 0 (.status result)) (s.check result).2
      (some (.check (s.check result).1))
  | refetched {key answer value} (h : Answer.fetched? answer = some (.ok value)) :
      Ending s (.refetch key) (.answer 0 answer) { s with cache := s.cache.set key value s.wall }
        (some (.refetch (.ok value)))
  | notRefetched {key answer e} (h : Answer.fetched? answer = some (.error e)) :
      Ending s (.refetch key) (.answer 0 answer) s (some (.refetch (.error e)))
  | refresh {refresh signal refresh' s'} (h : s.resumeRefresh refresh signal = (refresh', s'))
      (hd : refresh'.isDone = true) : Ending s (.refresh refresh) signal s' none

end Work

namespace Controller

inductive Resumed (c : Controller) (r : Running) (signal : Signal) : Controller × List Output → Prop
  | nothing : Resumed c r signal (c, [])
  | advance {s' work asks} (h : r.work.Advance c.shared signal s' work asks) :
      Resumed c r signal ({ c with shared := s' }.replaceWork r.id work,
        asks.map fun a => .ask r.id a.1 a.2)
  | ending {s' result} (h : r.work.Ending c.shared signal s' result) :
      Resumed c r signal
        ({ c with shared := s' }.drop (·.id == r.id), result.toList.flatMap (report r))
  | conclusion {tick profiles proxies} (hw : r.work = .reconcile tick)
      (h : (tick.resume signal).results? = some (profiles, proxies)) :
      Resumed c r signal
        ((c.conclude (Tick.finding c.observedShape c.state profiles proxies)).drop (·.id == r.id),
          report r (.reconcile (Tick.finding c.observedShape c.state profiles proxies).outcome))

theorem Resumed.finish {c : Controller} {r : Running} {signal : Signal} {s' : Shared}
    {result : Result} (h : r.work.Ending c.shared signal s' (some result)) :
    Resumed c r signal ({ c with shared := s' }.finish r result) := by
  simpa [Controller.finish] using Resumed.ending h

theorem resumed_proceed {c : Controller} {r : Running} {signal : Signal} {point : φ → Work}
    {result : ρ → Result} {step : Shared × Progress φ ρ}
    (hw : ∀ s' phase asks, step = (s', .waiting phase asks) →
      r.work.Advance c.shared signal s' (point phase) asks)
    (hd : ∀ s' value, step = (s', .done value) →
      r.work.Ending c.shared signal s' (some (result value))) :
    Resumed c r signal (c.proceed r point result step) := by
  obtain ⟨s', progress⟩ := step
  cases progress with
  | waiting phase asks => exact .advance (hw s' phase asks rfl)
  | done value => exact .finish (hd s' value rfl)

theorem resume_of_reloadEnded {step : Shared × Reload.Step} {s' : Shared} {phase : Reload}
    {asks : List (Nat × Request)} (h : reloadEnded step = (s', .waiting phase asks)) :
    step = (s', .waiting phase asks) := by
  unfold reloadEnded at h
  split at h
  · simp at h
  · exact h

theorem resumed_resume (c : Controller) (r : Running) (signal : Signal) :
    Resumed c r signal (c.resume r signal) := by
  fun_cases resume c r signal with
  | case1 signal id phase hr =>
    apply resumed_proceed
    · intro s' phase' asks h
      exact hr ▸ .switch h
    · intro s' value h
      exact hr ▸ .switch h
  | case2 signal phase hr =>
    apply resumed_proceed
    · intro s' phase' asks h
      exact hr ▸ .reload (resume_of_reloadEnded h)
    · intro s' value h
      exact hr ▸ .reload h
  | case3 signal attempt phase hr =>
    apply resumed_proceed
    · intro s' phase' asks h
      exact hr ▸ .recover h
    · intro s' value h
      exact hr ▸ .recover h
  | case4 hr result found shared h =>
    have hc := Work.Ending.check (s := c.shared) result
    rw [h, ← hr] at hc
    exact .finish hc
  | case6 signal tick hr tick' profiles proxies h f => exact .conclusion hr h
  | case7 signal tick hr tick' h =>
    have ha := Work.Advance.reconcile (s := c.shared) h
    rw [← hr] at ha
    exact .advance ha
  | case8 key hr answer value h =>
    have he : (Work.refetch key).Ending c.shared (.answer 0 answer) _ _ := .refetched h
    rw [← hr] at he
    exact .finish he
  | case9 key hr answer e h =>
    have he : (Work.refetch key).Ending c.shared (.answer 0 answer) _ _ := .notRefetched h
    rw [← hr] at he
    exact .finish he
  | case12 signal refresh hr refresh' shared h c' hd =>
    have he := Work.Ending.refresh h hd
    rw [← hr] at he
    exact .ending he
  | case13 signal refresh hr refresh' shared h c' hd =>
    have ha := Work.Advance.refresh h (by simpa using hd)
    rw [← hr] at ha
    exact .advance ha
  | case5 | case10 | case11 => exact .nothing

/-! ### What conclusions and changes of visibility are made of -/

theorem conclude_induction {P : Controller → Prop} {c : Controller} {f : Tick.Finding}
    (start : P { c with observedShape := f.shape.or c.observedShape })
    (adopt : ∀ (c : Controller) id, P c → P (c.onState (·.adopt id)))
    (schedule : ∀ c : Controller, P c → P c.scheduleRefresh)
    (record : ∀ (c : Controller) wall, P c → P (c.onState (·.recordReconcile wall))) :
    P (c.conclude f) := by
  obtain ⟨shape, reported, outcome⟩ := f
  apply record
  cases outcome with
  | changed | fetchFailed =>
    apply schedule
    cases reported with
    | none => exact start
    | some id => exact adopt _ id start
  | skipped | unchanged =>
    cases reported with
    | none => exact start
    | some id => exact adopt _ id start

/-- A change of visibility calls off the one before; at most it counts a skipped tick. -/
theorem changeVisibility_eq (c : Controller) (visible : Bool) :
    ∃ c₁ slot, (c₁ = c ∨ c₁ = c.onState .recordSkippedTick) ∧
      c.changeVisibility visible = { c₁.abort .visibility with visibility := slot } := by
  unfold changeVisibility
  split
  · dsimp only
    split
    · exact ⟨_, _, .inr rfl, rfl⟩
    · exact ⟨_, _, .inl rfl, rfl⟩
  · exact ⟨_, _, .inl rfl, rfl⟩

/-! ### What an event can do -/

/-- Who begins work in an event, and the controller once the timer behind it is taken. -/
inductive Onset (c : Controller) : Event → Origin → Controller → Prop
  | call (call) : Onset c (.call call) (.caller true) c
  | debounce : Onset c (.wake .debounce) .debounce { c with debounce := .empty }
  | visibility : Onset c (.wake .visibility) .visibility { c with visibility := .empty }
  | reconciler {t} (hb : c.background.bind Background.reconciler = some t) :
      Onset c (.wake .reconciler) .reconciler (c.setReconciler (t.take c.now))
  | poller {t} (hb : c.background.bind Background.poller = some t) :
      Onset c (.wake .poller) .poller (c.setPoller (t.take c.now))

theorem Onset.frame {c c' : Controller} {e : Event} {origin : Origin} (h : Onset c e origin c') :
    c'.shared = c.shared ∧ c'.running = c.running ∧ c'.nextId = c.nextId ∧
      c'.observedShape = c.observedShape := by
  cases h <;> exact ⟨rfl, rfl, rfl, rfl⟩

/-- Work that needs the activity: how it stands at its start, and what it does to what is shared
beyond taking the activity. -/
inductive Opening (s : Shared) : Event → Work → Shared → Prop
  | switch {id} (hf : Switch.idFault? id = none) (hc : s.state.snapshot.currentConfig ≠ some id) :
      Opening s (.call (.switch id)) (.switch id .checking)
        (s.onState fun s => (s.modify (·.withActivity .switching)).setError none)
  | reload : Opening s (.call .reload) (.reload .restarting)
        (s.onState fun s => (s.modify (·.withActivity .reloading)).setError none)
  | recover (ha : s.state.snapshot.recoveryAttempts < s.timings.maxRecoveryAttempts) :
      Opening s (.call .recover) (.recover (s.state.snapshot.recoveryAttempts + 1) .checking)
        (s.onState fun s => (s.modify (·.withActivity .recovering)).incrementAttempts)
  | tick (e : Event) :
      Opening s e (.reconcile .start) (s.onState (·.modify (·.withActivity .reconciling)))
  | refresh : Opening s (.wake .debounce)
        (.refresh (s.onState (·.modify (·.withActivity .reconciling))).startRefresh.1)
        (s.onState (·.modify (·.withActivity .reconciling))).startRefresh.2

inductive Aside : Event → Work → Prop
  | check : Aside (.call .check) .check
  | poll : Aside (.wake .poller) .check
  | refetch (key) : Aside (.call (.refetch key)) (.refetch key)

/-- A call that is answered without work and without a trace. -/
inductive Refusal (c : Controller) : Call → Result → Prop
  | idFault {id e} (h : Switch.idFault? id = some e) : Refusal c (.switch id) (.switch (.error e))
  | current {id} (h : c.snapshot.currentConfig = some id) :
      Refusal c (.switch id) (.switch (.ok (.unchanged id)))
  | switchBusy {id} (h : c.state.activity ≠ .idle) :
      Refusal c (.switch id) (.switch (.error (.busy c.state.activity.label)))
  | reloadBusy (h : c.state.activity ≠ .idle) :
      Refusal c .reload (.reload (.error (.busy c.state.activity.label)))
  | recovering (h : c.state.activity = .recovering) :
      Refusal c .recover (.recover (.ok .alreadyRecovering))
  | recoverBusy (h : c.state.activity ≠ .idle) :
      Refusal c .recover (.recover (.error (.busy c.state.activity.label)))

theorem id_of_find? {c : Controller} {id : Nat} {r : Running} (h : c.find? id = some r) :
    r.id = id := by
  simpa using List.find?_some h

theorem mem_of_find? {c : Controller} {id : Nat} {r : Running} (h : c.find? id = some r) :
    r ∈ c.running :=
  List.mem_of_find?_eq_some h

/-- The work that an event lets go on, and what it hears. -/
inductive Hears (c : Controller) (r : Running) : Event → Signal → Prop
  | answer {slot request answer} (hr : c.find? r.id = some r) (ha : (slot, request) ∈ r.work.awaits)
      (hc : answer ≠ .collapsed) : Hears c r (.answer r.id slot answer) (.answer slot answer)
  | timeUp {due} (hr : c.find? r.id = some r) (hd : r.work.due? = some due) (hn : due ≤ c.now) :
      Hears c r (.wake (.work r.id)) .timeUp

theorem Hears.find? {c : Controller} {r : Running} {e : Event} {signal : Signal}
    (h : Hears c r e signal) : c.find? r.id = some r := by
  cases h <;> assumption

def detach (c : Controller) (id : Nat) : Controller :=
  { c with running := c.running.map fun r : Running =>
      if r.id == id then { r with origin := .caller false } else r }

/-- All that an event can do to a controller. -/
inductive Act (c : Controller) : Event → Controller × List Output → Prop
  | nothing (e) : Act c e (c, [])
  | refused {call result} (h : Refusal c call result) : Act c (.call call) (c.answerAtOnce result)
  | exhausted (h : c.shared.timings.maxRecoveryAttempts ≤ c.snapshot.recoveryAttempts) :
      Act c (.call .recover) ((c.onState (·.setError (some
        (Error.recoveryExhausted c.snapshot.recoveryAttempts).message))).answerAtOnce
          (.recover (.error (.recoveryExhausted c.snapshot.recoveryAttempts))))
  | skippedCall (h : c.state.activity ≠ .idle) :
      Act c (.call .reconcile) ((c.onState .recordSkippedTick).answerAtOnce (.reconcile .skipped))
  | skippedTick {e origin c'} (ho : Onset c e origin c') (h : c.state.activity ≠ .idle) :
      Act c e (c'.onState .recordSkippedTick, [])
  | droppedRefresh (h : c.state.activity ≠ .idle) :
      Act c (.wake .debounce) ({ c with debounce := .empty }, [])
  | begins {e origin c' work s'} (ho : Onset c e origin c') (h : c.state.activity = .idle)
      (hw : Opening c.shared e work s') :
      Act c e ({ c' with shared := s' }.launch origin work work.awaits)
  | joins {e origin c' work} (ho : Onset c e origin c') (hw : Aside e work) :
      Act c e (c'.launch origin work work.awaits)
  | resumed {e r signal out} (hs : Hears c r e signal) (h : Resumed c r signal out) : Act c e out
  | collapsed {r slot request} (hr : c.find? r.id = some r) (ha : (slot, request) ∈ r.work.awaits) :
      Act c (.answer r.id slot .collapsed) (c.collapse r)
  | detached (id) : Act c (.abandon id) (c.detach id, [])
  | abandoned {r} (hr : c.find? r.id = some r) (hd : r.work.isDetached = false) :
      Act c (.abandon r.id) (c.drop (·.id == r.id), [])
  | started : Act c .start (c.startBackground, [])
  | shutDown : Act c .shutdown (c.shutdown, [])
  | visibility (visible) : Act c (.visibility visible) (c.changeVisibility visible, [])
  | expired {due} (hd : c.state.reset.due? = some due) (hn : due ≤ c.now) :
      Act c (.wake .reset) (c.onState (·.expire c.now), [])
  | passed (ms) : Act c (.pass ms) (c.onShared fun s => { s with now := s.now + c.span ms }, [])

theorem act_startTick {c c' : Controller} {e : Event} {origin : Origin} (ho : Onset c e origin c')
    (hs : c'.shared = c.shared)
    (hc : e = .call .reconcile ∨ origin = .visibility ∨ origin = .reconciler) :
    Act c e (c'.startTick origin) := by
  have hstate : c'.state = c.state := congrArg Shared.state hs
  by_cases hi : c.state.activity = .idle
  · rw [startTick, hstate, SyncState.enter_of_idle _ _ hi, hs]
    exact .begins ho hi (.tick e)
  · rw [startTick, hstate, SyncState.enter_of_ne_idle _ _ hi]
    rcases hc with rfl | rfl | rfl
    · cases ho
      exact .skippedCall hi
    · exact .skippedTick ho hi
    · exact .skippedTick ho hi

theorem act_startSwitch (c : Controller) (id : String) :
    Act c (.call (.switch id)) (c.startSwitch id) := by
  unfold startSwitch
  split
  · next e hf => exact .refused (.idFault hf)
  · next hf =>
    split
    · next hc => exact .refused (.current hc)
    · next hc =>
      by_cases hi : c.state.activity = .idle
      · rw [SyncState.enter_of_idle _ _ hi]
        exact .begins (.call _) hi (.switch hf hc)
      · rw [SyncState.enter_of_ne_idle _ _ hi]
        exact .refused (.switchBusy hi)

theorem act_startReload (c : Controller) : Act c (.call .reload) c.startReload := by
  unfold startReload
  by_cases hi : c.state.activity = .idle
  · rw [SyncState.enter_of_idle _ _ hi]
    exact .begins (.call _) hi .reload
  · rw [SyncState.enter_of_ne_idle _ _ hi]
    exact .refused (.reloadBusy hi)

theorem act_startRecovery (c : Controller) : Act c (.call .recover) c.startRecovery := by
  unfold startRecovery
  split
  · next hr => exact .refused (.recovering hr)
  · split
    · next ha => exact .exhausted ha
    · next ha =>
      by_cases hi : c.state.activity = .idle
      · rw [SyncState.enter_of_idle _ _ hi]
        exact .begins (.call _) hi (.recover (UInt32.not_le.mp ha))
      · rw [SyncState.enter_of_ne_idle _ _ hi]
        exact .refused (.recoverBusy hi)

theorem act_startDebounced (c : Controller) : Act c (.wake .debounce) c.startDebounced := by
  unfold startDebounced
  dsimp only
  by_cases hi : c.state.activity = .idle
  · have he : { c with debounce := .empty }.state.enter .reconciling = _ :=
      SyncState.enter_of_idle _ _ hi
    rw [he]
    exact .begins .debounce hi .refresh
  · have he : { c with debounce := .empty }.state.enter .reconciling = _ :=
      SyncState.enter_of_ne_idle _ _ hi
    rw [he]
    exact .droppedRefresh hi

theorem act_startCall (c : Controller) (call : Call) : Act c (.call call) (c.startCall call) := by
  cases call with
  | switch id => exact act_startSwitch c id
  | reload => exact act_startReload c
  | recover => exact act_startRecovery c
  | check => exact .joins (.call _) .check
  | reconcile => exact act_startTick (.call _) rfl (.inl rfl)
  | refetch key => exact .joins (.call _) (.refetch key)

theorem act_takeAnswer (c : Controller) (id slot : Nat) (answer : Answer) :
    Act c (.answer id slot answer) (c.takeAnswer id slot answer) := by
  unfold takeAnswer
  split
  · exact .nothing _
  · next r hr =>
    obtain rfl := id_of_find? hr
    split
    · next ha =>
      obtain ⟨⟨n, request⟩, hm, hn⟩ := List.any_eq_true.mp ha
      obtain rfl : n = slot := by simpa using hn
      split
      · exact .collapsed hr hm
      · next hc => exact .resumed (.answer hr hm hc) (resumed_resume c r _)
    · exact .nothing _

theorem act_abandon (c : Controller) (id : Nat) : Act c (.abandon id) (c.abandon id, []) := by
  unfold abandon
  split
  · next work hr =>
    obtain rfl := id_of_find? hr
    split
    · exact .detached _
    · next hd => exact .abandoned hr (by simpa using hd)
  · exact .nothing _

theorem act_fire {c : Controller} {timer : Timer} {due : Nat} (hd : c.due? timer = some due)
    (hn : due ≤ c.now) : Act c (.wake timer) (c.fire timer) := by
  cases timer with
  | reset => exact .expired hd hn
  | debounce => exact act_startDebounced c
  | visibility => exact act_startTick .visibility rfl (.inr (.inl rfl))
  | reconciler =>
    simp only [fire]
    split
    · next t hb => exact act_startTick (.reconciler hb) rfl (.inr (.inr rfl))
    · exact .nothing _
  | poller =>
    simp only [fire]
    split
    · next t hb => exact .joins (.poller hb) .poll
    · exact .nothing _
  | work id =>
    obtain ⟨r, hr, hw⟩ : ∃ r, c.find? id = some r ∧ r.work.due? = some due := by
      simpa [due?, Option.bind_eq_some_iff] using hd
    obtain rfl := id_of_find? hr
    rw [fire, hr]
    exact .resumed (.timeUp hr hw hn) (resumed_resume c r _)

/-- The controller as an event meets it: the clock on the wall has gone on. -/
def later (c : Controller) : Controller := c.onShared fun s => { s with wall := s.wall.later }

theorem act_step (c : Controller) (e : Event) : Act c.later e (c.step e) := by
  unfold step
  cases e with
  | call call => exact act_startCall _ call
  | abandon id => exact act_abandon _ id
  | start => exact .started
  | shutdown => exact .shutDown
  | visibility visible => exact .visibility visible
  | answer id slot answer => exact act_takeAnswer _ id slot answer
  | wake timer =>
    dsimp only
    split
    · next due hd =>
      split
      · next hn => exact act_fire hd hn
      · exact .nothing _
    · exact .nothing _
  | pass ms => exact .passed ms

theorem run_induction {P : Controller → Prop} {c : Controller} (start : P c)
    (step : ∀ (c : Controller) e, P c → P (c.step e).1) (es : List Event) : P (c.run es).1 := by
  induction es generalizing c with
  | nil => exact start
  | cons e es ih => exact ih (step c e start)

theorem due?_later (c : Controller) (timer : Timer) : c.later.due? timer = c.due? timer := by
  cases timer <;> rfl

theorem step_wake {c : Controller} {timer : Timer} {due : Nat} (hd : c.due? timer = some due)
    (hn : due ≤ c.now) : c.step (.wake timer) = c.later.fire timer := by
  have hlater : c.later.due? timer = some due := (c.due?_later timer).trans hd
  unfold step
  dsimp only
  split
  · next due' hd' =>
    obtain rfl : due = due' := Option.some.inj (hlater.symm.trans hd')
    exact if_pos hn
  · next hnone => exact absurd (hlater.symm.trans hnone) (Option.some_ne_none due)

theorem step_of_not_due {c : Controller} {timer : Timer}
    (h : ∀ due, c.due? timer = some due → ¬ due ≤ c.now) : c.step (.wake timer) = (c.later, []) := by
  unfold step
  dsimp only
  split
  · next due hd => exact if_neg (h due ((c.due?_later timer).symm.trans hd))
  · rfl

theorem step_of_hears {c : Controller} {r : Running} {e : Event} {signal : Signal}
    (h : Hears c.later r e signal) : c.step e = c.later.resume r signal := by
  cases h with
  | @answer slot request answer hr ha hc =>
    have hany : r.work.awaits.any (·.1 == slot) = true := List.any_eq_true.mpr ⟨_, ha, by simp⟩
    change c.later.takeAnswer r.id slot answer = _
    unfold takeAnswer
    rw [hr]
    simp only [hany, if_true]
  | @timeUp due hr hd hn =>
    have hdue : c.due? (.work r.id) = some due := by
      have hf : c.find? r.id = some r := hr
      simp [due?, hf, hd]
    rw [step_wake hdue hn, fire, hr]

theorem step_of_collapsed {c : Controller} {r : Running} {slot : Nat} {request : Request}
    (hr : c.find? r.id = some r) (ha : (slot, request) ∈ r.work.awaits) :
    c.step (.answer r.id slot .collapsed) = c.later.collapse r := by
  have hany : r.work.awaits.any (·.1 == slot) = true := List.any_eq_true.mpr ⟨_, ha, by simp⟩
  have hf : c.later.find? r.id = some r := hr
  change c.later.takeAnswer r.id slot .collapsed = _
  unfold takeAnswer
  rw [hf]
  simp only [hany, if_true]

end Controller
end CoreWarden
