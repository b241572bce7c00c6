import CoreWarden.Controller.Reload
import CoreWarden.Outcome

/-!
Recovering from an error: a conflict check; with a conflict the steps of a reload and another check,
without one a refresh of the cache. Only the reload steps can make it fail.
-/
namespace CoreWarden

inductive Recovery where
  | checking
  | reloading (reload : Reload)
  | rechecking
  | refreshing (refresh : Refresh)

namespace Recovery

abbrev Step := Progress Recovery (Except Error RecoveryOutcome)

def start (s : Shared) : Shared × Step := (s, .waiting .checking [(0, .status)])

def due? : Recovery → Option Nat
  | reloading reload => reload.due?
  | _ => none

def awaits : Recovery → List (Nat × Request)
  | checking | rechecking => [(0, .status)]
  | reloading reload => reload.awaits
  | refreshing refresh => refresh.asks

def succeed (s : Shared) (attempt : UInt32) (reloaded : Bool) : Shared × Step :=
  ((s.onState (·.setError none)).recordSuccess, .done (.ok (.recovered attempt reloaded)))

def fail (s : Shared) (e : Error) : Shared × Step :=
  (s.onState (·.recordFailure e.message), .done (.error e))

def reloaded : Shared × Reload.Step → Shared × Step
  | (s, .waiting reload asks) => (s, .waiting (.reloading reload) asks)
  | (s, .done (.ok ())) => (s, .waiting .rechecking [(0, .status)])
  | (s, .done (.error e)) => fail s e

def refreshed (s : Shared) (attempt : UInt32) (refresh : Refresh) : Shared × Step :=
  if refresh.isDone then succeed s attempt false else (s, .waiting (.refreshing refresh) [])

def resume (s : Shared) (attempt : UInt32) : Recovery → Signal → Shared × Step
  | checking, .answer 0 (.status result) =>
    let (report, s) := s.check result
    if report.hasConflict then reloaded (Reload.start s)
    else
      let (refresh, s) := s.startRefresh
      (s, .waiting (.refreshing refresh) refresh.asks)
  | reloading reload, signal => reloaded (reload.resume s signal)
  | rechecking, .answer 0 (.status result) => succeed (s.check result).2 attempt true
  | refreshing refresh, signal =>
    let (refresh, s) := s.resumeRefresh refresh signal
    refreshed s attempt refresh
  | phase, _ => (s, .waiting phase [])

end Recovery

end CoreWarden
