import CoreWarden.Controller.Recovery
import CoreWarden.Controller.Switch
import CoreWarden.Controller.Tick
import CoreWarden.Controller.Ticker

/-!
The controller: the shared state, the work that goes on, the delayed work that waits for its time
and the periodic work. A piece of work that is active holds the activity from its start to its end,
whichever way it ends; `guards` lists the activities held.
-/
namespace CoreWarden

inductive Work where
  | switch (configId : String) (phase : Switch)
  | reload (phase : Reload)
  | recover (attempt : UInt32) (phase : Recovery)
  | check
  | reconcile (tick : Tick)
  | refetch (key : CacheKey)
  /-- The refresh that follows a change some time after it. -/
  | refresh (refresh : Refresh)

namespace Work

def activity? : Work → Option Activity
  | switch .. => some .switching
  | reload _ => some .reloading
  | recover .. => some .recovering
  | reconcile _ | refresh _ => some .reconciling
  | check | refetch _ => none

def due? : Work → Option Nat
  | switch _ phase => phase.due?
  | reload phase => phase.due?
  | recover _ phase => phase.due?
  | _ => none

/-- The calls whose answers a piece of work waits for, by number. -/
def awaits : Work → List (Nat × Request)
  | switch id phase => phase.awaits id
  | reload phase => phase.awaits
  | recover _ phase => phase.awaits
  | check => [(0, .status)]
  | reconcile tick => tick.awaits
  | refetch key => [(0, key.request)]
  | refresh r => r.asks

/-- A workflow goes on without its caller; other work ends with it. -/
def isDetached : Work → Bool
  | switch .. | reload _ | recover .. => true
  | _ => false

end Work

/-- Who began a piece of work. -/
inductive Origin where
  /-- A caller, who waits for the result unless he has gone. -/
  | caller (awaits : Bool)
  | debounce
  | visibility
  | reconciler
  | poller
  deriving DecidableEq

/-- A piece of work under way. Its number is never given to another one. -/
structure Running where
  id : Nat
  origin : Origin
  work : Work

/-- The periodic work; a ticker that has broken down is gone. -/
structure Background where
  reconciler : Option Ticker
  poller : Option Ticker
  deriving DecidableEq

structure Controller where
  shared : Shared
  running : List Running
  nextId : Nat
  /-- The shape of the groups at the last reconciliation that fetched the proxies. -/
  observedShape : Option GroupShape
  debounce : TimerSlot Unit
  visibility : TimerSlot Unit
  background : Option Background

inductive Call where
  | switch (configId : String)
  | reload
  | recover
  | check
  | reconcile
  | refetch (key : CacheKey)
  deriving DecidableEq

inductive Result where
  | switch (result : Except Error SwitchOutcome)
  | reload (result : Except Error Unit)
  | recover (result : Except Error RecoveryOutcome)
  | check (report : ConflictReport)
  | reconcile (outcome : TickOutcome)
  | refetch (result : Except Error Json.Value)
  /-- A collaborator broke down in work that the caller did himself. -/
  | collapsed

inductive Timer where
  | reset
  | debounce
  | visibility
  | reconciler
  | poller
  | work (id : Nat)
  deriving DecidableEq

inductive Event where
  | call (call : Call)
  /-- The caller of a piece of work goes away. -/
  | abandon (id : Nat)
  | start
  | shutdown
  | visibility (visible : Bool)
  /-- A call begun by a piece of work is answered. -/
  | answer (id slot : Nat) (answer : Answer)
  /-- Something whose time has come goes on. -/
  | wake (timer : Timer)
  /-- Time passes, up to the next moment that something waits for. -/
  | pass (ms : Nat)

inductive Output where
  | ask (id slot : Nat) (request : Request)
  | ended (id : Nat) (result : Result)

namespace Controller

def initial (timings : Timings) (currentConfig : Option String) : Controller where
  shared := .initial timings currentConfig
  running := []
  nextId := 0
  observedShape := none
  debounce := .empty
  visibility := .empty
  background := none

def now (c : Controller) : Nat := c.shared.now

def state (c : Controller) : SyncState := c.shared.state

def snapshot (c : Controller) : Snapshot := c.state.snapshot

def cache (c : Controller) : Cache := c.shared.cache

/-- The activities held by the work that goes on. -/
def guards (c : Controller) : List Activity := c.running.filterMap (·.work.activity?)

def find? (c : Controller) (id : Nat) : Option Running := c.running.find? (·.id == id)

/-- Whether periodic, debounced or visibility work is going on. -/
def isRunning (c : Controller) (origin : Origin) : Bool := c.running.any (·.origin == origin)

/-- The moment that a timer waits for; a ticker waits only between its runs. -/
def due? (c : Controller) : Timer → Option Nat
  | .reset => c.state.reset.due?
  | .debounce => c.debounce.due?
  | .visibility => c.visibility.due?
  | .reconciler =>
    if c.isRunning .reconciler then none
    else (c.background.bind Background.reconciler).map Ticker.due
  | .poller =>
    if c.isRunning .poller then none else (c.background.bind Background.poller).map Ticker.due
  | .work id => (c.find? id).bind (·.work.due?)

def timers (c : Controller) : List Timer :=
  [.reset, .debounce, .visibility, .reconciler, .poller] ++ c.running.map fun r => .work r.id

def dues (c : Controller) : List Nat := c.timers.filterMap c.due?

end Controller

end CoreWarden
