import CoreWarden.Snapshot
import CoreWarden.TimerSlot
import CoreWarden.Timings

/-!
The observable state of the controller and every way in which it changes. Observers are notified of
a change by a new revision. `enter` is the only way out of `idle`; the reset timer clears the
recovery attempts some time after a success, unless a failure comes in between.
-/
namespace CoreWarden

open Time (Timestamp pauseEnd)

structure SyncState where
  snapshot : Snapshot
  /-- How many times observers have been notified. -/
  revision : Nat
  historyLimit : Nat
  attemptReset : Nat
  reset : TimerSlot Unit

namespace SyncState

def initial (timings : Timings) (currentConfig : Option String) : SyncState where
  snapshot := .initial currentConfig
  revision := 0
  historyLimit := timings.historyLimit.toNat
  attemptReset := timings.attemptReset.toNat
  reset := .empty

def modify (f : Snapshot → Snapshot) (s : SyncState) : SyncState :=
  { s with snapshot := f s.snapshot, revision := s.revision + 1 }

def activity (s : SyncState) : Activity := s.snapshot.activity

def resetPending (s : SyncState) : Bool := s.reset.isPending

/-- From `idle` to another activity; otherwise the activity that is going on is the answer. -/
def enter (s : SyncState) (target : Activity) : Except Activity SyncState :=
  if s.activity = .idle then .ok (s.modify (·.withActivity target)) else .error s.activity

def leave (s : SyncState) (activity : Activity) : SyncState :=
  if s.activity = activity then s.modify (·.withActivity .idle) else s

def setError (s : SyncState) (error : Option String) : SyncState :=
  if s.snapshot.switchError = error then s else s.modify ({ · with switchError := error })

def cancelReset (s : SyncState) : SyncState := { s with reset := s.reset.cancel }

/-- A failure also calls off the clearing of the attempts. -/
def recordFailure (s : SyncState) (error : String) : SyncState := s.cancelReset.setError (some error)

/-- A success lets the attempts be cleared once it has lasted. -/
def recordSuccess (s : SyncState) (now : Nat) (wall : Timestamp) : SyncState :=
  let s := s.modify ({ · with lastSuccess := some wall })
  { s with reset := s.reset.replace now s.attemptReset () }

def resetAttempts (s : SyncState) : SyncState :=
  if s.snapshot.recoveryAttempts = 0 then s else s.modify ({ · with recoveryAttempts := 0 })

def incrementAttempts (s : SyncState) : SyncState :=
  s.modify fun p => { p with recoveryAttempts := p.recoveryAttempts + 1 }

def applyConflict (s : SyncState) (report : ConflictReport) : SyncState :=
  s.modify ({ · with
    multiCoreWarning := report.hasConflict
    conflict := report.status
    runningCores := report.instances })

def commitSwitch (s : SyncState) (configId : String) (wall : Timestamp) : SyncState :=
  s.modify fun p => { p with currentConfig := some configId }.pushHistory ⟨configId, wall, true⟩
    s.historyLimit

def recordSwitchFailure (s : SyncState) (configId error : String) (wall : Timestamp) : SyncState :=
  s.cancelReset.modify fun p => { p with switchError := some error }.pushHistory
    ⟨configId, wall, false⟩ s.historyLimit

/-- Whether a profile is not the current one. -/
def differs (s : SyncState) (configId : String) : Bool := s.snapshot.currentConfig ≠ some configId

/-- Takes over a profile that was made current elsewhere. -/
def adopt (s : SyncState) (configId : String) : SyncState :=
  if s.differs configId then s.modify ({ · with currentConfig := some configId }) else s

def recordReconcile (s : SyncState) (wall : Timestamp) : SyncState :=
  s.modify ({ · with lastReconcile := some wall })

def recordSkippedTick (s : SyncState) : SyncState :=
  s.modify fun p => { p with skippedTicks := p.skippedTicks + 1 }

def shutdown (s : SyncState) : SyncState := s.cancelReset

/-- Lets the reset timer act by the time `now`. -/
def expire (s : SyncState) (now : Nat) : SyncState :=
  match s.reset.expire now with
  | (some _, reset) => { s with reset }.resetAttempts
  | (none, reset) => { s with reset }

/-! ### States through time -/

inductive Operation where
  | enter (target : Activity)
  | leave (activity : Activity)
  | setError (error : Option String)
  | recordFailure (error : String)
  | recordSuccess
  | resetAttempts
  | incrementAttempts
  | applyConflict (report : ConflictReport)
  | commitSwitch (configId : String)
  | recordSwitchFailure (configId error : String)
  | adopt (configId : String)
  | recordReconcile
  | recordSkippedTick
  | shutdown
  | advance (ms : Nat)

structure Timeline where
  now : Nat
  wall : Timestamp
  state : SyncState

namespace Timeline

def start (timings : Timings) (currentConfig : Option String) : Timeline :=
  ⟨0, .epoch, .initial timings currentConfig⟩

def settle (t : Timeline) : Timeline := { t with state := t.state.expire t.now }

def apply (t : Timeline) (op : Operation) : Timeline :=
  let s := t.state
  match op with
  | .advance ms => { t with now := pauseEnd t.now ms }
  | .enter target => { t with state := match s.enter target with | .ok s => s | .error _ => s }
  | .leave activity => { t with state := s.leave activity }
  | .setError error => { t with state := s.setError error }
  | .recordFailure error => { t with state := s.recordFailure error }
  | .recordSuccess => { t with state := s.recordSuccess t.now t.wall }
  | .resetAttempts => { t with state := s.resetAttempts }
  | .incrementAttempts => { t with state := s.incrementAttempts }
  | .applyConflict report => { t with state := s.applyConflict report }
  | .commitSwitch id => { t with state := s.commitSwitch id t.wall }
  | .recordSwitchFailure id error => { t with state := s.recordSwitchFailure id error t.wall }
  | .adopt id => { t with state := s.adopt id }
  | .recordReconcile => { t with state := s.recordReconcile t.wall }
  | .recordSkippedTick => { t with state := s.recordSkippedTick }
  | .shutdown => { t with state := s.shutdown }

/-- One operation, with everything that is due by the end of it. No two operations find the same
time on the wall. -/
def step (t : Timeline) (op : Operation) : Timeline :=
  ({ t with wall := t.wall.later }.apply op).settle

def run (t : Timeline) (ops : List Operation) : Timeline := ops.foldl step t

end Timeline

end SyncState

end CoreWarden
