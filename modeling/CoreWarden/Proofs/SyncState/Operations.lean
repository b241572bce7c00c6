import CoreWarden.SyncState

/-!
What each operation makes of the snapshot and of the reset timer. A snapshot is written as the one
before with some fields replaced, also where the operation leaves it alone because nothing changes.
-/
namespace CoreWarden

open Time (Timestamp)

namespace Snapshot

/-- The activity with the two flags that go with it. -/
def mode (s : Snapshot) : Activity × Bool × Bool := (s.activity, s.isSwitching, s.isRecovering)

/-- The flags say what the activity says. -/
def Coherent (s : Snapshot) : Prop :=
  (s.isSwitching = true ↔ s.activity = .switching ∨ s.activity = .reloading) ∧
    (s.isRecovering = true ↔ s.activity = .recovering)

theorem coherent_withActivity (s : Snapshot) (a : Activity) : (s.withActivity a).Coherent := by
  simp [Coherent, withActivity]

theorem coherent_initial (currentConfig : Option String) : (initial currentConfig).Coherent := by
  simp [Coherent, initial]

theorem Coherent.of_mode {s t : Snapshot} (h : s.Coherent) (hm : t.mode = s.mode) : t.Coherent := by
  simp only [mode, Prod.mk.injEq] at hm
  obtain ⟨ha, hs, hr⟩ := hm
  unfold Coherent
  rw [ha, hs, hr]
  exact h

theorem activity_of_mode {s t : Snapshot} (hm : t.mode = s.mode) : t.activity = s.activity :=
  congrArg Prod.fst hm

@[simp] theorem mode_pushHistory (s : Snapshot) (e : HistoryEntry) (limit : Nat) :
    (s.pushHistory e limit).mode = s.mode := rfl

@[simp] theorem currentConfig_pushHistory (s : Snapshot) (e : HistoryEntry) (limit : Nat) :
    (s.pushHistory e limit).currentConfig = s.currentConfig := rfl

@[simp] theorem recoveryAttempts_pushHistory (s : Snapshot) (e : HistoryEntry) (limit : Nat) :
    (s.pushHistory e limit).recoveryAttempts = s.recoveryAttempts := rfl

@[simp] theorem activity_withActivity (s : Snapshot) (a : Activity) :
    (s.withActivity a).activity = a := rfl

@[simp] theorem currentConfig_withActivity (s : Snapshot) (a : Activity) :
    (s.withActivity a).currentConfig = s.currentConfig := rfl

@[simp] theorem recoveryAttempts_withActivity (s : Snapshot) (a : Activity) :
    (s.withActivity a).recoveryAttempts = s.recoveryAttempts := rfl

end Snapshot

namespace SyncState

variable (s : SyncState)

@[simp] theorem snapshot_modify (f : Snapshot → Snapshot) : (s.modify f).snapshot = f s.snapshot := rfl
@[simp] theorem reset_modify (f : Snapshot → Snapshot) : (s.modify f).reset = s.reset := rfl

theorem enter_of_idle (target : Activity) (h : s.activity = .idle) :
    s.enter target = .ok (s.modify (·.withActivity target)) := by
  simp [enter, h]

theorem enter_of_ne_idle (target : Activity) (h : s.activity ≠ .idle) :
    s.enter target = .error s.activity := by
  simp [enter, h]

theorem Timeline.state_apply_enter (t : Timeline) (target : Activity) :
    (t.apply (.enter target)).state =
      if t.state.activity = .idle then t.state.modify (·.withActivity target) else t.state := by
  split
  · next h => simp only [apply, t.state.enter_of_idle target h]
  · next h => simp only [apply, t.state.enter_of_ne_idle target h]

theorem snapshot_leave (a : Activity) :
    (s.leave a).snapshot = if s.activity = a then s.snapshot.withActivity .idle else s.snapshot := by
  unfold leave
  split <;> rfl

theorem snapshot_leave_self : (s.leave s.activity).snapshot = s.snapshot.withActivity .idle := by
  simp [snapshot_leave]

@[simp] theorem reset_leave (a : Activity) : (s.leave a).reset = s.reset := by
  unfold leave
  split <;> rfl
@[simp] theorem currentConfig_leave (a : Activity) :
    (s.leave a).snapshot.currentConfig = s.snapshot.currentConfig := by
  rw [snapshot_leave]
  split <;> rfl
@[simp] theorem recoveryAttempts_leave (a : Activity) :
    (s.leave a).snapshot.recoveryAttempts = s.snapshot.recoveryAttempts := by
  rw [snapshot_leave]
  split <;> rfl

theorem foldl_leave {α : Type} (f : SyncState → α) (hf : ∀ s a, f (leave s a) = f s) (s : SyncState)
    (activities : List Activity) : f (activities.foldl leave s) = f s := by
  induction activities generalizing s with
  | nil => rfl
  | cons a activities ih => rw [List.foldl_cons, ih, hf]

theorem coherent_leave (h : s.snapshot.Coherent) (a : Activity) : (s.leave a).snapshot.Coherent := by
  rw [snapshot_leave]
  split
  · exact Snapshot.coherent_withActivity ..
  · exact h

@[simp] theorem snapshot_setError (e : Option String) :
    (s.setError e).snapshot = { s.snapshot with switchError := e } := by
  unfold setError
  split
  · next h => rw [← h]
  · rfl
@[simp] theorem reset_setError (e : Option String) : (s.setError e).reset = s.reset := by
  unfold setError
  split <;> rfl

@[simp] theorem mode_setError (e : Option String) :
    (s.setError e).snapshot.mode = s.snapshot.mode := by
  simp [Snapshot.mode]

@[simp] theorem snapshot_cancelReset : s.cancelReset.snapshot = s.snapshot := rfl
@[simp] theorem reset_cancelReset : s.cancelReset.reset = .empty := rfl

@[simp] theorem snapshot_recordFailure (e : String) :
    (s.recordFailure e).snapshot = { s.snapshot with switchError := some e } := by
  simp [recordFailure]
@[simp] theorem reset_recordFailure (e : String) : (s.recordFailure e).reset = .empty := by
  simp [recordFailure]

@[simp] theorem snapshot_recordSuccess (now : Nat) (wall : Timestamp) :
    (s.recordSuccess now wall).snapshot = { s.snapshot with lastSuccess := some wall } := rfl

@[simp] theorem snapshot_resetAttempts :
    s.resetAttempts.snapshot = { s.snapshot with recoveryAttempts := 0 } := by
  unfold resetAttempts
  split
  · next h => rw [← h]
  · rfl
@[simp] theorem reset_resetAttempts : s.resetAttempts.reset = s.reset := by
  unfold resetAttempts
  split <;> rfl

@[simp] theorem snapshot_incrementAttempts : s.incrementAttempts.snapshot =
    { s.snapshot with recoveryAttempts := s.snapshot.recoveryAttempts + 1 } := rfl
@[simp] theorem reset_incrementAttempts : s.incrementAttempts.reset = s.reset := rfl

@[simp] theorem snapshot_applyConflict (report : ConflictReport) :
    (s.applyConflict report).snapshot = { s.snapshot with
      multiCoreWarning := report.hasConflict
      conflict := report.status
      runningCores := report.instances } := rfl
@[simp] theorem reset_applyConflict (report : ConflictReport) :
    (s.applyConflict report).reset = s.reset := rfl

@[simp] theorem snapshot_commitSwitch (id : String) (wall : Timestamp) :
    (s.commitSwitch id wall).snapshot =
      { s.snapshot with currentConfig := some id }.pushHistory ⟨id, wall, true⟩ s.historyLimit := rfl
@[simp] theorem reset_commitSwitch (id : String) (wall : Timestamp) :
    (s.commitSwitch id wall).reset = s.reset := rfl

@[simp] theorem snapshot_recordSwitchFailure (id e : String) (wall : Timestamp) :
    (s.recordSwitchFailure id e wall).snapshot =
      { s.snapshot with switchError := some e }.pushHistory ⟨id, wall, false⟩ s.historyLimit := rfl
@[simp] theorem reset_recordSwitchFailure (id e : String) (wall : Timestamp) :
    (s.recordSwitchFailure id e wall).reset = .empty := rfl

@[simp] theorem snapshot_adopt (id : String) :
    (s.adopt id).snapshot = { s.snapshot with currentConfig := some id } := by
  unfold adopt
  split
  · rfl
  · next h =>
    have hc : s.snapshot.currentConfig = some id := by simpa [differs] using h
    rw [← hc]
@[simp] theorem reset_adopt (id : String) : (s.adopt id).reset = s.reset := by
  unfold adopt
  split <;> rfl

@[simp] theorem snapshot_recordReconcile (wall : Timestamp) :
    (s.recordReconcile wall).snapshot = { s.snapshot with lastReconcile := some wall } := rfl
@[simp] theorem reset_recordReconcile (wall : Timestamp) :
    (s.recordReconcile wall).reset = s.reset := rfl

@[simp] theorem snapshot_recordSkippedTick : s.recordSkippedTick.snapshot =
    { s.snapshot with skippedTicks := s.snapshot.skippedTicks + 1 } := rfl
@[simp] theorem reset_recordSkippedTick : s.recordSkippedTick.reset = s.reset := rfl

@[simp] theorem snapshot_shutdown : s.shutdown.snapshot = s.snapshot := rfl
@[simp] theorem reset_shutdown : s.shutdown.reset = .empty := rfl

theorem expire_of_due {due now : Nat} (hd : s.reset.due? = some due) (hn : due ≤ now) :
    (s.expire now).snapshot = { s.snapshot with recoveryAttempts := 0 } ∧
      (s.expire now).reset = .empty := by
  obtain ⟨alarm, hw, rfl⟩ : ∃ alarm, s.reset.waiting = some alarm ∧ alarm.due = due := by
    simpa [TimerSlot.due?] using hd
  simp [expire, TimerSlot.expire, hw, hn]

end SyncState

end CoreWarden
