import CoreWarden.Controller.Basic

/-!
How a controller takes an event. `Controller.step` is defined for every controller and every event:
an answer to a call that nobody waits for and the waking of something whose time has not come change
nothing, and time never passes a moment that something waits for.
-/
namespace CoreWarden

namespace Controller

def onShared (f : Shared → Shared) (c : Controller) : Controller := { c with shared := f c.shared }

def onState (f : SyncState → SyncState) (c : Controller) : Controller :=
  c.onShared (·.onState f)

/-- Ends pieces of work: each gives back the activity it held. -/
def drop (c : Controller) (p : Running → Bool) : Controller :=
  let activities := (c.running.filter p).filterMap (·.work.activity?)
  { c with running := c.running.filter (!p ·) }.onState fun s => activities.foldl .leave s

def abort (c : Controller) (origin : Origin) : Controller := c.drop (·.origin == origin)

def replaceWork (c : Controller) (id : Nat) (work : Work) : Controller :=
  { c with running := c.running.map fun r => if r.id == id then { r with work } else r }

def launch (c : Controller) (origin : Origin) (work : Work) (asks : List (Nat × Request)) :
    Controller × List Output :=
  ({ c with running := c.running ++ [⟨c.nextId, origin, work⟩], nextId := c.nextId + 1 },
    asks.map fun a => .ask c.nextId a.1 a.2)

def report (r : Running) (result : Result) : List Output :=
  match r.origin with
  | .caller true => [.ended r.id result]
  | _ => []

def finish (c : Controller) (r : Running) (result : Result) : Controller × List Output :=
  (c.drop (·.id == r.id), report r result)

def answerAtOnce (c : Controller) (result : Result) : Controller × List Output :=
  ({ c with nextId := c.nextId + 1 }, [.ended c.nextId result])

/-- Arms the refresh that follows a change; one that was armed or is under way is called off. -/
def scheduleRefresh (c : Controller) : Controller :=
  let c := c.abort .debounce
  { c with debounce :=
      c.debounce.replace c.now c.shared.timings.invalidateDebounce.toNat () }

def conclude (c : Controller) (f : Tick.Finding) : Controller :=
  let c := { c with observedShape := f.shape.or c.observedShape }
  let c := match f.reported with
    | some id => c.onState (·.adopt id)
    | none => c
  let c := match f.outcome with
    | .changed | .fetchFailed => c.scheduleRefresh
    | _ => c
  c.onState (·.recordReconcile c.shared.wall)

/-- Begins a reconciliation, or counts one that is skipped because something is going on. -/
def startTick (c : Controller) (origin : Origin) : Controller × List Output :=
  match c.state.enter .reconciling with
  | .ok state => { c with shared.state := state }.launch origin (.reconcile .start) Tick.start.awaits
  | .error _ =>
    let c := c.onState .recordSkippedTick
    match origin with
    | .caller _ => c.answerAtOnce (.reconcile .skipped)
    | _ => (c, [])

/-- A call of `switch`: what is refused or needless is answered at once. -/
def startSwitch (c : Controller) (id : String) : Controller × List Output :=
  match Switch.idFault? id with
  | some e => c.answerAtOnce (.switch (.error e))
  | none =>
    if c.snapshot.currentConfig = some id then c.answerAtOnce (.switch (.ok (.unchanged id)))
    else match c.state.enter .switching with
      | .error active => c.answerAtOnce (.switch (.error (.busy active.label)))
      | .ok state =>
        match Switch.start { c.shared with state } with
        | (shared, .waiting phase asks) =>
          { c with shared }.launch (.caller true) (.switch id phase) asks
        | (shared, .done result) => { c with shared }.answerAtOnce (.switch result)

def startReload (c : Controller) : Controller × List Output :=
  match c.state.enter .reloading with
  | .error active => c.answerAtOnce (.reload (.error (.busy active.label)))
  | .ok state =>
    match Reload.start { c.shared with state := state.setError none } with
    | (shared, .waiting phase asks) => { c with shared }.launch (.caller true) (.reload phase) asks
    | (shared, .done result) => { c with shared }.answerAtOnce (.reload result)

/-- A call of `recover`: one recovery at a time, and not more of them than are allowed. -/
def startRecovery (c : Controller) : Controller × List Output :=
  if c.state.activity = .recovering then c.answerAtOnce (.recover (.ok .alreadyRecovering))
  else if c.shared.timings.maxRecoveryAttempts ≤ c.snapshot.recoveryAttempts then
    let e := Error.recoveryExhausted c.snapshot.recoveryAttempts
    (c.onState (·.setError (some e.message))).answerAtOnce (.recover (.error e))
  else match c.state.enter .recovering with
    | .error active => c.answerAtOnce (.recover (.error (.busy active.label)))
    | .ok state =>
      let state := state.incrementAttempts
      match Recovery.start { c.shared with state } with
      | (shared, .waiting phase asks) =>
        { c with shared }.launch (.caller true) (.recover state.snapshot.recoveryAttempts phase) asks
      | (shared, .done result) => { c with shared }.answerAtOnce (.recover result)

def startCall (c : Controller) : Call → Controller × List Output
  | .switch id => c.startSwitch id
  | .reload => c.startReload
  | .recover => c.startRecovery
  | .check => c.launch (.caller true) .check [(0, .status)]
  | .reconcile => c.startTick (.caller true)
  | .refetch key => c.launch (.caller true) (.refetch key) [(0, key.request)]

def proceed (c : Controller) (r : Running) (point : φ → Work) (result : ρ → Result) :
    Shared × Progress φ ρ → Controller × List Output
  | (shared, .waiting phase asks) =>
    ({ c with shared }.replaceWork r.id (point phase), asks.map fun a => .ask r.id a.1 a.2)
  | (shared, .done value) => { c with shared }.finish r (result value)

/-- A reload on its own records its failure. -/
def reloadEnded : Shared × Reload.Step → Shared × Reload.Step
  | (s, .done (.error e)) => (s.onState (·.recordFailure e.message), .done (.error e))
  | step => step

def resume (c : Controller) (r : Running) (signal : Signal) : Controller × List Output :=
  match r.work with
  | .switch id phase => c.proceed r (.switch id) .switch (phase.resume c.shared id signal)
  | .reload phase => c.proceed r .reload .reload (reloadEnded (phase.resume c.shared signal))
  | .recover attempt phase =>
    c.proceed r (.recover attempt) .recover (phase.resume c.shared attempt signal)
  | .check =>
    match signal with
    | .answer 0 (.status result) =>
      let (found, shared) := c.shared.check result
      { c with shared }.finish r (.check found)
    | _ => (c, [])
  | .reconcile tick =>
    let tick := tick.resume signal
    match tick.results? with
    | some (profiles, proxies) =>
      let f := Tick.finding c.observedShape c.state profiles proxies
      (c.conclude f).finish r (.reconcile f.outcome)
    | none => (c.replaceWork r.id (.reconcile tick), [])
  | .refetch key =>
    match signal with
    | .answer 0 answer =>
      match answer.fetched? with
      | some (.ok value) =>
        (c.onShared fun s => { s with cache := s.cache.set key value s.wall }).finish r
          (.refetch (.ok value))
      | some (.error e) => c.finish r (.refetch (.error e))
      | none => (c, [])
    | _ => (c, [])
  | .refresh refresh =>
    let (refresh, shared) := c.shared.resumeRefresh refresh signal
    let c := { c with shared }
    if refresh.isDone then (c.drop (·.id == r.id), [])
    else (c.replaceWork r.id (.refresh refresh), [])

/-- The result of work that a collaborator took along when it broke down. -/
def collapsed : Work → Result
  | .switch .. => .switch (.error (.internal "切换配置任务异常退出"))
  | .reload _ => .reload (.error (.internal "重载内核任务异常退出"))
  | .recover .. => .recover (.error (.internal "错误恢复任务异常退出"))
  | _ => .collapsed

/-- A ticker whose run broke down does not tick again. -/
def stopTicker (c : Controller) : Origin → Controller
  | .reconciler => { c with background := c.background.map ({ · with reconciler := none }) }
  | .poller => { c with background := c.background.map ({ · with poller := none }) }
  | _ => c

def collapse (c : Controller) (r : Running) : Controller × List Output :=
  ((c.stopTicker r.origin).drop (·.id == r.id), report r (collapsed r.work))

def takeAnswer (c : Controller) (id slot : Nat) (answer : Answer) : Controller × List Output :=
  match c.find? id with
  | none => (c, [])
  | some r =>
    if r.work.awaits.any (·.1 == slot) then
      match answer with
      | .collapsed => c.collapse r
      | answer => c.resume r (.answer slot answer)
    else (c, [])

/-- The periodic work begins; it is not begun twice. -/
def startBackground (c : Controller) : Controller :=
  match c.background with
  | some _ => c
  | none =>
    let t := c.shared.timings
    { c with background := some {
        reconciler := Ticker.start? t.reconcileInterval.toNat (c.now + t.reconcileInterval.toNat)
        poller := Ticker.start? t.conflictPollInterval.toNat c.now } }

/-- All periodic and delayed work ends; what callers have begun goes on. -/
def shutdown (c : Controller) : Controller :=
  let c := ((((c.abort .reconciler).abort .poller).abort .debounce).abort .visibility)
  { c with background := none, debounce := c.debounce.cancel, visibility := c.visibility.cancel }.onState
    .shutdown

/-- A window that becomes visible asks for a reconciliation some time later; any change of
visibility calls off the one before, even if it is under way. A reconciliation due at once still
meets the one it takes the place of, and is skipped. -/
def changeVisibility (c : Controller) (visible : Bool) : Controller :=
  if visible then
    let delay := c.shared.timings.visibilityDelay.toNat
    if delay = 0 && c.isRunning .visibility then
      { (c.onState .recordSkippedTick).abort .visibility with visibility := .empty }
    else
      let c := c.abort .visibility
      { c with visibility := c.visibility.replace c.now delay () }
  else { c.abort .visibility with visibility := c.visibility.cancel }

def setReconciler (c : Controller) (t : Ticker) : Controller :=
  { c with background := c.background.map ({ · with reconciler := some t }) }

def setPoller (c : Controller) (t : Ticker) : Controller :=
  { c with background := c.background.map ({ · with poller := some t }) }

/-- A debounced refresh begins if nothing is going on, and is dropped otherwise. -/
def startDebounced (c : Controller) : Controller × List Output :=
  let c := { c with debounce := .empty }
  match c.state.enter .reconciling with
  | .error _ => (c, [])
  | .ok state =>
    let (refresh, shared) := { c.shared with state }.startRefresh
    { c with shared }.launch .debounce (.refresh refresh) refresh.asks

def fire (c : Controller) : Timer → Controller × List Output
  | .reset => (c.onState (·.expire c.now), [])
  | .debounce => c.startDebounced
  | .visibility => { c with visibility := .empty }.startTick .visibility
  | .reconciler =>
    match c.background.bind Background.reconciler with
    | some t => (c.setReconciler (t.take c.now)).startTick .reconciler
    | none => (c, [])
  | .poller =>
    match c.background.bind Background.poller with
    | some t => (c.setPoller (t.take c.now)).launch .poller .check [(0, .status)]
    | none => (c, [])
  | .work id =>
    match c.find? id with
    | some r => c.resume r .timeUp
    | none => (c, [])

def abandon (c : Controller) (id : Nat) : Controller :=
  match c.find? id with
  | some ⟨_, .caller _, work⟩ =>
    if work.isDetached then
      { c with running := c.running.map fun r =>
          if r.id == id then { r with origin := .caller false } else r }
    else c.drop (·.id == id)
  | _ => c

/-- How far time can pass: not beyond a moment that something waits for. -/
def span (c : Controller) (ms : Nat) : Nat := c.dues.foldl (fun n due => min n (due - c.now)) ms

def step (c : Controller) (event : Event) : Controller × List Output :=
  let c := c.onShared fun s => { s with wall := s.wall.later }
  match event with
  | .call call => c.startCall call
  | .abandon id => (c.abandon id, [])
  | .start => (c.startBackground, [])
  | .shutdown => (c.shutdown, [])
  | .visibility visible => (c.changeVisibility visible, [])
  | .answer id slot answer => c.takeAnswer id slot answer
  | .wake timer =>
    match c.due? timer with
    | some due => if due ≤ c.now then c.fire timer else (c, [])
    | none => (c, [])
  | .pass ms => (c.onShared fun s => { s with now := s.now + c.span ms }, [])

def run (c : Controller) : List Event → Controller × List Output
  | [] => (c, [])
  | e :: es =>
    let (c, out) := c.step e
    let (c, rest) := c.run es
    (c, out ++ rest)

end Controller

end CoreWarden
