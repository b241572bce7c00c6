import CoreWarden.Call
import CoreWarden.Time.Pause

/-!
The health wait: the core is asked for its version at fixed intervals until it answers or the time
allowed is over. No request may take longer than what is left of that time; an answer that comes
just at its end still counts.
-/
namespace CoreWarden

open Time (pauseEnd)

/-- The request under way has the number `attempt`, and so has the last one during a rest. The number is
not bounded: the service counts its requests in 32 bits, but only its log shows the count. -/
inductive Probe where
  /-- A request is under way, which is given up at `limit`. -/
  | asking (started attempt limit : Nat)
  /-- The next request is made at `wake`. -/
  | resting (started attempt wake : Nat)
  deriving DecidableEq

namespace Probe

/-- The interval between requests and the time allowed, in milliseconds. -/
structure Pace where
  interval : Nat
  maxWait : Nat

/-- Begins a request; it is given up when the time allowed is over, at once if it is already. -/
def ask (pace : Pace) (started attempt now : Nat) : Progress Probe (Except Error Unit) :=
  .waiting (.asking started attempt (pauseEnd now (started + pace.maxWait - now))) [(attempt, .version)]

def start (pace : Pace) (now : Nat) : Progress Probe (Except Error Unit) := ask pace now 1 now

def due : Probe → Nat
  | asking _ _ limit => limit
  | resting _ _ wake => wake

def awaits : Probe → List (Nat × Request)
  | asking _ attempt _ => [(attempt, .version)]
  | resting .. => []

/-- After a failed request: without a control address there is nothing to wait for; when the time
allowed is over the wait has failed; otherwise there is another request after the interval. -/
def failed (pace : Pace) (started attempt now : Nat) :
    Error → Progress Probe (Except Error Unit)
  | .notConfigured => .done (.error .notConfigured)
  | _ =>
    if pace.maxWait ≤ now - started then .done (.error (.timeout (now - started)))
    else .waiting (.resting started attempt (pauseEnd now pace.interval)) []

/-- The failure of a request that was given up. -/
def givenUp : Error := .network "版本查询未在等待预算内返回"

def resume (pace : Pace) (now : Nat) : Probe → Signal → Progress Probe (Except Error Unit)
  | asking started attempt limit, .answer slot (.version result) =>
    if slot = attempt then
      match result with
      | .ok _ => .done (.ok ())
      | .error e => failed pace started attempt now e
    else .waiting (.asking started attempt limit) []
  | asking started attempt _, .timeUp => failed pace started attempt now givenUp
  | resting started attempt _, .timeUp => ask pace started (attempt + 1) now
  | probe, _ => .waiting probe []

end Probe

end CoreWarden
