import CoreWarden.Activity
import CoreWarden.Conflict
import CoreWarden.Time.Timestamp

/-! What can be seen of the controller from outside. -/
namespace CoreWarden

open Json (Encode Decode encode field? fieldOr? Tree)
open Time (Timestamp)

/-- The end of a switch that was begun. -/
structure HistoryEntry where
  configId : String
  timestamp : Timestamp
  success : Bool
  deriving DecidableEq

instance : Encode HistoryEntry where
  encode e := .object [("config_id", encode e.configId), ("timestamp", encode e.timestamp),
    ("success", encode e.success)]

instance : Decode HistoryEntry where
  decode? := Tree.record?
    [("config_id", .required), ("timestamp", .required), ("success", .required)]
    fun room fields => do
      let [id, timestamp, success] := fields | none
      return ⟨← field? room id, ← field? room timestamp, ← field? room success⟩

structure Snapshot where
  activity : Activity
  isSwitching : Bool
  isRecovering : Bool
  switchError : Option String
  multiCoreWarning : Bool
  conflict : Conflict
  runningCores : List Instance
  currentConfig : Option String
  recoveryAttempts : UInt32
  lastSuccess : Option Timestamp
  history : List HistoryEntry
  lastReconcile : Option Timestamp
  skippedTicks : UInt64
  deriving DecidableEq

namespace Snapshot

def initial (currentConfig : Option String) : Snapshot where
  activity := .idle
  isSwitching := false
  isRecovering := false
  switchError := none
  multiCoreWarning := false
  conflict := .noConflict
  runningCores := []
  currentConfig := currentConfig
  recoveryAttempts := 0
  lastSuccess := none
  history := []
  lastReconcile := none
  skippedTicks := 0

instance : Inhabited Snapshot := ⟨initial none⟩

/-- The two flags follow from the activity. -/
def withActivity (s : Snapshot) (a : Activity) : Snapshot :=
  { s with
    activity := a
    isSwitching := a = .switching ∨ a = .reloading
    isRecovering := a = .recovering }

/-- Adds to the history and keeps its last `limit` entries. -/
def pushHistory (s : Snapshot) (entry : HistoryEntry) (limit : Nat) : Snapshot :=
  let history := s.history ++ [entry]
  { s with history := history.drop (history.length - limit) }

theorem length_pushHistory_le (s : Snapshot) (e : HistoryEntry) (limit : Nat) :
    (s.pushHistory e limit).history.length ≤ limit := by
  simp [pushHistory]
  omega

end Snapshot

instance : Encode Snapshot where
  encode s := .object
    [("activity", encode s.activity), ("is_switching", encode s.isSwitching),
      ("is_recovering", encode s.isRecovering), ("switch_error", encode s.switchError),
      ("multi_core_warning", encode s.multiCoreWarning), ("conflict", encode s.conflict),
      ("running_cores", encode s.runningCores), ("current_config_name", encode s.currentConfig),
      ("recovery_attempts", encode s.recoveryAttempts), ("last_success_time", encode s.lastSuccess),
      ("switch_history", encode s.history), ("last_reconcile_time", encode s.lastReconcile),
      ("skipped_ticks", encode s.skippedTicks)]

instance : Decode Snapshot where
  decode? := Tree.record?
    [("activity", .required), ("is_switching", .required), ("is_recovering", .required),
      ("switch_error", .nullable), ("multi_core_warning", .required), ("conflict", .required),
      ("running_cores", .required), ("current_config_name", .nullable),
      ("recovery_attempts", .required), ("last_success_time", .nullable),
      ("switch_history", .required), ("last_reconcile_time", .nullable),
      ("skipped_ticks", .required)]
    fun room fields => do
      let [activity, isSwitching, isRecovering, switchError, multiCoreWarning, conflict,
        runningCores, currentConfig, recoveryAttempts, lastSuccess, history, lastReconcile,
        skippedTicks] := fields | none
      return {
        activity := ← field? room activity
        isSwitching := ← field? room isSwitching
        isRecovering := ← field? room isRecovering
        switchError := ← fieldOr? room none switchError
        multiCoreWarning := ← field? room multiCoreWarning
        conflict := ← field? room conflict
        runningCores := ← field? room runningCores
        currentConfig := ← fieldOr? room none currentConfig
        recoveryAttempts := ← field? room recoveryAttempts
        lastSuccess := ← fieldOr? room none lastSuccess
        history := ← field? room history
        lastReconcile := ← fieldOr? room none lastReconcile
        skippedTicks := ← field? room skippedTicks }

end CoreWarden
