import CoreWarden.Http.Route
import CoreWarden.World

/-!
Rehearsals: a controller in a scripted world, on a clock that jumps to the next moment at which
something is due when nothing else is left to do. A call that answers at once does not let anything
else come in between; of what is due at one moment the answers come before the timers.
-/
namespace CoreWarden

structure Logged where
  time : Nat
  request : Request

structure Flight where
  id : Nat
  slot : Nat
  request : Request
  behavior : Behavior
  due : Nat

inductive Response where
  | result (result : Result)
  | http (response : Http.Response)
  | invalidKey (name : String)
  /-- A collaborator broke down in work that the caller did himself. -/
  | collapsed
  /-- What was asked for makes no sense. -/
  | unusable

/-- What a caller asks for. -/
inductive Entry where
  | call (call : Call)
  | http (request : Http.Request)
  | invalidKey (name : String)
  | unusable

inductive Caller where
  | waiting (id : Nat)
  | answered (response : Response)

structure Rehearsal where
  world : World
  controller : Controller
  flights : List Flight
  /-- The calls made since the last report, the latest first. -/
  log : List Logged
  /-- The methods of the HTTP requests that began a piece of work. -/
  purposes : List (Nat × String)
  responses : List (Nat × Response)
  callers : List (String × Caller)

namespace Rehearsal

def initial (world : World) (timings : Timings) (currentConfig : Option String) : Rehearsal where
  world := world
  controller := .initial timings currentConfig
  flights := []
  log := []
  purposes := []
  responses := []
  callers := []

def now (r : Rehearsal) : Nat := r.controller.now

/-- What remains to be done at the present moment, before anything else. -/
inductive Chore where
  | ask (id slot : Nat) (request : Request)
  | answer (id slot : Nat) (answer : Answer)
  /-- Timers of work that has just moved: a wait of no time is over at once. -/
  | follow (timers : List Timer)

def respond (r : Rehearsal) (id : Nat) (result : Result) : Response :=
  match result, (r.purposes.find? (·.1 == id)).map (·.2) with
  | .collapsed, _ => .collapsed
  | result, some method =>
    match Http.Route.resultReply? r.controller result with
    | some reply => .http (.ofReply method reply)
    | none => .result result
  | result, none => .result result

def take (r : Rehearsal) (event : Event) : Rehearsal × List Chore :=
  let (controller, outputs) := r.controller.step event
  let r := { r with controller }
  let r := { r with responses := r.responses ++ outputs.filterMap fun
    | .ended id result => some (id, r.respond id result)
    | .ask .. => none }
  (r, outputs.filterMap fun
    | .ask id slot request => some (.ask id slot request)
    | .ended .. => none)

def isAwaited (r : Rehearsal) (id slot : Nat) : Bool :=
  match r.controller.find? id with
  | some running => running.work.awaits.any (·.1 == slot)
  | none => false

/-- The timers that belong to a piece of work: its own, and the ticker that began it. -/
def timersOf (r : Rehearsal) (id : Nat) : List Timer :=
  .work id :: match (r.controller.find? id).map Running.origin with
    | some .reconciler => [.reconciler]
    | some .poller => [.poller]
    | _ => []

def isDue (r : Rehearsal) (timer : Timer) : Bool :=
  match r.controller.due? timer with
  | some due => due ≤ r.now
  | none => false

/-- Makes a call: it is logged, and answered at once or put under way. A call whose work has ended
in the meantime is not made. -/
def place (r : Rehearsal) (id slot : Nat) (request : Request) : Rehearsal × List Chore :=
  if r.isAwaited id slot then
    let r := { r with log := ⟨r.now, request⟩ :: r.log }
    let (behavior, world) := r.world.place r.now request
    let r := { r with world }
    if behavior.pause = 0 then
      match r.world.answer? request behavior with
      | some (answer, world) => ({ r with world }, [.answer id slot answer])
      | none => (r, [])
    else ({ r with flights := r.flights ++ [⟨id, slot, request, behavior, r.now + behavior.pause⟩] }, [])
  else (r, [])

def doChore (r : Rehearsal) : Chore → Rehearsal × List Chore
  | .ask id slot request => r.place id slot request
  | .answer id slot answer =>
    let timers := r.timersOf id
    let (r, chores) := r.take (.answer id slot answer)
    (r, chores ++ [.follow timers])
  | .follow timers =>
    match timers.find? r.isDue with
    | some timer =>
      let (r, chores) := r.take (.wake timer)
      (r, chores ++ [.follow timers])
    | none => (r, [])

/-- The first call whose answer is due; calls that nobody waits for any more are forgotten. -/
def nextAnswer? (r : Rehearsal) : Option (Flight × Rehearsal) :=
  let flights := r.flights.filter fun f => r.isAwaited f.id f.slot
  match flights.find? (·.due ≤ r.now) with
  | some f => some (f, { r with flights := flights.eraseP fun g => g.id == f.id && g.slot == f.slot })
  | none => none

def nextChores? (r : Rehearsal) : Option (Rehearsal × List Chore) :=
  match r.nextAnswer? with
  | some (f, r) =>
    match r.world.answer? f.request f.behavior with
    | some (answer, world) => some ({ r with world }, [.answer f.id f.slot answer])
    | none => some (r, [])
  | none =>
    match r.controller.timers.find? r.isDue with
    | some timer =>
      let timers := match timer with
        | .work id => r.timersOf id
        | timer => [timer]
      let (r, chores) := r.take (.wake timer)
      some (r, chores ++ [.follow timers])
    | none => none

def nextMoment? (r : Rehearsal) : Option Nat :=
  (r.controller.dues ++ (r.flights.filter fun f => r.isAwaited f.id f.slot).map Flight.due).min?

inductive Goal where
  | settled
  | time (moment : Nat)
  | response (id : Nat)

def hasResponse (r : Rehearsal) (id : Nat) : Bool := r.responses.any (·.1 == id)

def wait? (r : Rehearsal) : Goal → Option Nat
  | .settled => none
  | .time moment =>
    if moment ≤ r.now then none else some ((r.nextMoment?.getD moment).min moment - r.now)
  | .response id =>
    if r.hasResponse id then none else r.nextMoment?.map (· - r.now)

def go (goal : Goal) : Nat → Rehearsal → List Chore → Rehearsal
  | 0, r, _ => r
  | fuel + 1, r, chore :: chores =>
    let (r, more) := r.doChore chore
    go goal fuel r (more ++ chores)
  | fuel + 1, r, [] =>
    match r.nextChores? with
    | some (r, chores) => go goal fuel r chores
    | none =>
      match r.wait? goal with
      | some ms => go goal fuel (r.take (.pass ms)).1 []
      | none => r

/-- More steps than any rehearsal takes that comes to an end. -/
def patience : Nat := 100000000

def advance (r : Rehearsal) (goal : Goal) (chores : List Chore) : Rehearsal := go goal patience r chores

def perform (r : Rehearsal) (event : Event) : Rehearsal :=
  let (r, chores) := r.take event
  r.advance .settled chores

/-! ### Callers -/

def enter (r : Rehearsal) : Entry → Caller × Rehearsal × List Chore
  | .call call =>
    let id := r.controller.nextId
    let (r, chores) := r.take (.call call)
    (.waiting id, r, chores)
  | .invalidKey name => (.answered (.invalidKey name), r, [])
  | .unusable => (.answered .unusable, r, [])
  | .http request =>
    match Http.Route.ofRequest request with
    | .error status => (.answered (.http ⟨status, none⟩), r, [])
    | .ok route =>
      let id := r.controller.nextId
      let (r, chores) := match route.event? with
        | some event => { r with purposes := (id, request.method) :: r.purposes }.take event
        | none => (r, [])
      if route.awaitsResult then (.waiting id, r, chores)
      else (.answered (.http (.ofReply request.method (route.reply r.controller))), r, chores)

def response? (r : Rehearsal) : Caller → Option Response
  | .answered response => some response
  | .waiting id => (r.responses.find? (·.1 == id)).map (·.2)

def await (r : Rehearsal) (caller : Caller) (chores : List Chore) : Option Response × Rehearsal :=
  let goal := match caller with
    | .waiting id => Goal.response id
    | .answered _ => .settled
  let r := r.advance goal chores
  (r.response? caller, r)

def caller? (r : Rehearsal) (name : String) : Option Caller :=
  (r.callers.find? (·.1 == name)).map (·.2)

def forget (r : Rehearsal) (name : String) : Rehearsal :=
  { r with callers := r.callers.filter (·.1 != name) }

/-! ### Scripts -/

inductive Step where
  | call (entry : Entry)
  | spawn (name : String) (entry : Entry)
  | poll (name : String)
  | join (name : String)
  | abandon (name : String)
  | advance (ms : Nat)
  | start
  | shutdown
  | visibility (visible : Bool)
  | observe
  | cache
  | invalidate (key : CacheKey)
  | world (change : World.Change)
  /-- A step that makes no sense, or that names an unknown caller. -/
  | unusable

inductive Outcome where
  | nothing
  | response (response : Response)
  | pending
  | unusable
  | existed (found : Bool)
  | observed (snapshot : Snapshot)
  | entries (cache : Cache)

def ofResponse? : Option Response → Outcome
  | some response => .response response
  | none => .pending

def takeStep (r : Rehearsal) : Step → Outcome × Rehearsal
  | .call entry =>
    let (caller, r, chores) := r.enter entry
    let (response, r) := r.await caller chores
    (ofResponse? response, r)
  | .spawn name entry =>
    let (caller, r, chores) := r.enter entry
    (.nothing, { r.forget name with callers := (r.forget name).callers ++ [(name, caller)] }.advance
      .settled chores)
  | .poll name =>
    match r.caller? name with
    | none => (.unusable, r)
    | some caller =>
      match r.response? caller with
      | some response => (.response response, r.forget name)
      | none => (.pending, r)
  | .join name =>
    match r.caller? name with
    | none => (.unusable, r)
    | some caller =>
      let (response, r) := (r.forget name).await caller []
      (ofResponse? response, r)
  | .abandon name =>
    match r.caller? name with
    | none => (.unusable, r)
    | some (.waiting id) => (.nothing, (r.forget name).perform (.abandon id))
    | some (.answered _) => (.nothing, r.forget name)
  | .advance ms => (.nothing, r.advance (.time (Time.pauseEnd r.now ms)) [])
  | .start => (.nothing, r.perform .start)
  | .shutdown => (.nothing, r.perform .shutdown)
  | .visibility visible => (.nothing, r.perform (.visibility visible))
  | .observe => (.observed r.controller.snapshot, r)
  | .cache => (.entries r.controller.cache, r)
  | .invalidate key =>
    (.existed (r.controller.cache.find? key).isSome,
      { r with controller :=
          r.controller.onShared fun s => { s with cache := s.cache.invalidate key } })
  | .world change => (.nothing, { r with world := r.world.change r.now change })
  | .unusable => (.unusable, r)

structure Report where
  time : Nat
  outcome : Outcome
  calls : List Logged
  notified : Bool
  before : Snapshot
  after : Snapshot

def reportStep (r : Rehearsal) (step : Step) : Report × Rehearsal :=
  let before := r.controller.state
  let (outcome, r) := r.takeStep step
  let after := r.controller.state
  (⟨r.now, outcome, r.log.reverse, before.revision != after.revision, before.snapshot,
    after.snapshot⟩, { r with log := [] })

def reports (r : Rehearsal) : List Step → List Report
  | [] => []
  | step :: steps =>
    let (report, r) := r.reportStep step
    report :: reports r steps

end Rehearsal

end CoreWarden
