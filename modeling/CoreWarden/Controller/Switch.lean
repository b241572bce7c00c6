import CoreWarden.Controller.Shared
import CoreWarden.Outcome
import CoreWarden.Text.Blank

/-!
Switching to a profile: a conflict check (with one restart if there is a conflict), the switch
itself, a pause, the health wait, another check, the note to the profile store, a refresh of the
cache, and the commit. Only the switch and the health wait can make it fail; then there is one more
check, so that the conflict shown is the one after the failure. The commit comes after the proof
that the core is healthy, never before.
-/
namespace CoreWarden

open Time (pauseEnd)

inductive Switch where
  | checking
  | restarting
  | resolving (wake : Nat)
  | rechecking
  | switching
  | pausing (wake : Nat)
  | probing (probe : Probe)
  | confirming
  | storing (conflictRemaining : Bool)
  | refreshing (conflictRemaining : Bool) (refresh : Refresh)
  | reporting (error : Error)

namespace Switch

abbrev Step := Progress Switch (Except Error SwitchOutcome)

/-- Why a profile id cannot be switched to; `none` if it can. -/
def idFault? (id : String) : Option Error :=
  if id = "" then some (.badRequest "配置ID不能为空")
  else if Text.isTrimmed id then none
  else some (.badRequest "配置ID不能包含首尾空白")

def start (s : Shared) : Shared × Step :=
  (s.onState (·.setError none), .waiting .checking [(0, .status)])

def due? : Switch → Option Nat
  | resolving wake | pausing wake => some wake
  | probing probe => some probe.due
  | _ => none

def awaits (id : String) : Switch → List (Nat × Request)
  | checking | rechecking | confirming | reporting _ => [(0, .status)]
  | restarting => [(0, .restart)]
  | resolving _ | pausing _ => []
  | switching => [(0, .switch id)]
  | probing probe => probe.awaits
  | storing _ => [(0, .store id)]
  | refreshing _ refresh => refresh.asks

def request (s : Shared) (id : String) : Shared × Step :=
  (s, .waiting .switching [(0, .switch id)])

/-- The failure is recorded before the check that follows it. -/
def fail (s : Shared) (id : String) (e : Error) : Shared × Step :=
  (s.onState (·.recordSwitchFailure id e.message s.wall), .waiting (.reporting e) [(0, .status)])

def probed (s : Shared) (id : String) : Progress Probe (Except Error Unit) → Shared × Step
  | .waiting probe asks => (s, .waiting (.probing probe) asks)
  | .done (.error e) => fail s id e
  | .done (.ok ()) => (s, .waiting .confirming [(0, .status)])

def commit (s : Shared) (id : String) : Shared :=
  (s.onState (·.commitSwitch id s.wall)).recordSuccess

def refreshed (s : Shared) (id : String) (conflictRemaining : Bool) (refresh : Refresh) :
    Shared × Step :=
  if refresh.isDone then (commit s id, .done (.ok (.switched id conflictRemaining)))
  else (s, .waiting (.refreshing conflictRemaining refresh) [])

def resume (s : Shared) (id : String) : Switch → Signal → Shared × Step
  | checking, .answer 0 (.status result) =>
    let (report, s) := s.check result
    if report.hasConflict then (s, .waiting .restarting [(0, .restart)]) else request s id
  | restarting, .answer 0 (.restart _) =>
    (s, .waiting (.resolving (pauseEnd s.now s.timings.conflictResolutionWait.toNat)) [])
  | resolving _, .timeUp => (s, .waiting .rechecking [(0, .status)])
  | rechecking, .answer 0 (.status result) => request (s.check result).2 id
  | switching, .answer 0 (.switch (.ok ())) =>
    (s, .waiting (.pausing (pauseEnd s.now s.timings.switchGrace.toNat)) [])
  | switching, .answer 0 (.switch (.error e)) => fail s id e
  | pausing _, .timeUp => probed s id (Probe.start s.pace s.now)
  | probing probe, signal => probed s id (probe.resume s.pace s.now signal)
  | confirming, .answer 0 (.status result) =>
    let (report, s) := s.check result
    (s, .waiting (.storing report.hasConflict) [(0, .store id)])
  | storing conflictRemaining, .answer 0 (.store _) =>
    let (refresh, s) := s.startRefresh
    (s, .waiting (.refreshing conflictRemaining refresh) refresh.asks)
  | refreshing conflictRemaining refresh, signal =>
    let (refresh, s) := s.resumeRefresh refresh signal
    refreshed s id conflictRemaining refresh
  | reporting e, .answer 0 (.status result) => ((s.check result).2, .done (.error e))
  | phase, _ => (s, .waiting phase [])

end Switch

end CoreWarden
