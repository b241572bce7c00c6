import CoreWarden.Call
import CoreWarden.Time.Pause

/-!
A world for rehearsals: collaborators that behave as a script says. How a call behaves is settled
when it is made; what it answers is read off the world at the moment it is answered.
-/
namespace CoreWarden

open Json (Value)

/-- How a call behaves: it takes its time, and then it breaks down, or is never heard of again, or
fails, or succeeds. -/
structure Behavior where
  delay : Nat := 0
  collapses : Bool := false
  hangs : Bool := false
  error : Option Error := none
  deriving Inhabited

def Behavior.pause (b : Behavior) : Nat := min b.delay Time.longestPause

inductive Target where
  | version
  | switch
  | proxies
  | config
  | status
  | restart
  | list
  | store
  deriving DecidableEq

namespace Target

def all : List Target := [version, switch, proxies, config, status, restart, list, store]

def name : Target → String
  | version => "version"
  | switch => "switch"
  | proxies => "proxies"
  | config => "config"
  | status => "status"
  | restart => "restart"
  | list => "list"
  | store => "store"

def ofName? (s : String) : Option Target := all.find? (·.name == s)

end Target

namespace Request

def target : Request → Target
  | version => .version
  | switch _ => .switch
  | proxies => .proxies
  | config => .config
  | status => .status
  | restart => .restart
  | list => .list
  | store _ => .store

def argument? : Request → Option String
  | switch id | store id => some id
  | _ => none

def failed (e : Error) : Request → Answer
  | version => .version (.error e)
  | switch _ => .switch (.error e)
  | proxies => .proxies (.error e)
  | config => .config (.error e)
  | status => .status (.error e)
  | restart => .restart (.error e)
  | list => .list (.error e)
  | store _ => .store (.error e)

end Request

structure World where
  profiles : ProfileList
  instances : List Instance
  runMode : RunMode
  proxies : ProxySnapshot
  config : Value
  /-- The processes there are after a restart, if a restart changes them. -/
  onRestart : Option (List Instance)
  /-- The core refuses version requests before this moment. -/
  downUntil : Nat
  /-- Behaviors for the next calls, used up one by one. -/
  scripts : Target → List Behavior
  /-- The behavior of calls without a script. -/
  behaviors : Target → Behavior

namespace World

def standard : World where
  profiles := ⟨some "a", [⟨"a", "A"⟩, ⟨"b", "B"⟩]⟩
  instances := [⟨1000, "core", none, true⟩]
  runMode := .sidecar
  proxies := ⟨⟨[("GLOBAL", ⟨"GLOBAL", "Selector", some "hk", some ["hk", "jp"]⟩)]⟩⟩
  config := .object [("mode", .string "rule")]
  onRestart := none
  downUntil := 0
  scripts := fun _ => []
  behaviors := fun _ => {}

def setScript (w : World) (target : Target) (script : List Behavior) : World :=
  { w with scripts := fun t => if t = target then script else w.scripts t }

def setBehavior (w : World) (target : Target) (behavior : Behavior) : World :=
  { w with behaviors := fun t => if t = target then behavior else w.behaviors t }

def nextBehavior (w : World) (target : Target) : Behavior × World :=
  match w.scripts target with
  | b :: rest => (b, w.setScript target rest)
  | [] => (w.behaviors target, w)

/-- The answer of a call that succeeds, and what it does to the world. -/
def succeed (w : World) : Request → Answer × World
  | .version => (.version (.ok ⟨"v1", true⟩), w)
  | .switch _ => (.switch (.ok ()), w)
  | .proxies => (.proxies (.ok w.proxies), w)
  | .config => (.config (.ok w.config), w)
  | .status => (.status (.ok ⟨w.instances, .null, w.runMode⟩), w)
  | .restart => (.restart (.ok ()), { w with instances := w.onRestart.getD w.instances })
  | .list => (.list (.ok w.profiles), w)
  | .store id =>
    match w.profiles.setCurrent id with
    | .ok profiles => (.store (.ok ()), { w with profiles })
    | .error e => (.store (.error e), w)

def answer? (w : World) (request : Request) (b : Behavior) : Option (Answer × World) :=
  if b.collapses then some (.collapsed, w)
  else if b.hangs then none
  else match b.error with
    | some e => some (request.failed e, w)
    | none => some (w.succeed request)

def refused : Error := .network "connection refused"

/-- How a call that is made now will behave. -/
def place (w : World) (now : Nat) (request : Request) : Behavior × World :=
  if request = .version ∧ now < w.downUntil then ({ error := some refused }, w)
  else w.nextBehavior request.target

/-! ### Changes from outside -/

inductive Change where
  /-- What is scripted for something that is never called changes nothing. -/
  | behave (target : Option Target) (script : Option (List Behavior)) (behavior : Option Behavior)
  | downFor (ms : Nat)
  | instances (instances : List Instance)
  | onRestart (instances : Option (List Instance))
  | runMode (mode : RunMode)
  | proxies (proxies : ProxySnapshot)
  | config (config : Value)
  | profiles (profiles : ProfileList)

def change (w : World) (now : Nat) : Change → World
  | .behave none _ _ => w
  | .behave (some target) script behavior =>
    let w := match script with
      | some script => w.setScript target script
      | none => w
    match behavior with
    | some behavior => w.setBehavior target behavior
    | none => w
  | .downFor ms => { w with downUntil := now + ms }
  | .instances instances => { w with instances }
  | .onRestart instances => { w with onRestart := instances }
  | .runMode runMode => { w with runMode }
  | .proxies proxies => { w with proxies }
  | .config config => { w with config }
  | .profiles profiles => { w with profiles }

end World

end CoreWarden
