import CoreWarden.Controller.Shared

/-!
Reloading the core: a restart, a pause, the health wait, a refresh of the cache. A failure of the
restart or of the health wait is not tried again; what the refresh fetches does not matter.
-/
namespace CoreWarden

open Time (pauseEnd)

inductive Reload where
  | restarting
  | pausing (wake : Nat)
  | probing (probe : Probe)
  | refreshing (refresh : Refresh)

namespace Reload

abbrev Step := Progress Reload (Except Error Unit)

def start (s : Shared) : Shared × Step := (s, .waiting .restarting [(0, .restart)])

def due? : Reload → Option Nat
  | pausing wake => some wake
  | probing probe => some probe.due
  | _ => none

def awaits : Reload → List (Nat × Request)
  | restarting => [(0, .restart)]
  | pausing _ => []
  | probing probe => probe.awaits
  | refreshing refresh => refresh.asks

/-- A healthy core is followed by the refresh. -/
def probed (s : Shared) : Progress Probe (Except Error Unit) → Shared × Step
  | .waiting probe asks => (s, .waiting (.probing probe) asks)
  | .done (.error e) => (s, .done (.error e))
  | .done (.ok ()) =>
    let (refresh, s) := s.startRefresh
    (s, .waiting (.refreshing refresh) refresh.asks)

/-- A refresh that is done makes the reload a success. -/
def refreshed (s : Shared) (refresh : Refresh) : Shared × Step :=
  if refresh.isDone then (s.recordSuccess, .done (.ok ())) else (s, .waiting (.refreshing refresh) [])

def resume (s : Shared) : Reload → Signal → Shared × Step
  | restarting, .answer 0 (.restart (.ok ())) =>
    (s, .waiting (.pausing (pauseEnd s.now s.timings.restartWait.toNat)) [])
  | restarting, .answer 0 (.restart (.error e)) => (s, .done (.error e))
  | pausing _, .timeUp => probed s (Probe.start s.pace s.now)
  | probing probe, signal => probed s (probe.resume s.pace s.now signal)
  | refreshing refresh, signal =>
    let (refresh, s) := s.resumeRefresh refresh signal
    refreshed s refresh
  | phase, _ => (s, .waiting phase [])

end Reload

end CoreWarden
