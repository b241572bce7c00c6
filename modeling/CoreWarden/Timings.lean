import CoreWarden.Json.Record

/-! The times (in milliseconds) and limits by which the controller works. -/
namespace CoreWarden

open Json (Encode Decode encode fieldOr? Tree)

structure Timings where
  /-- From the restart that should end a conflict to the next check. -/
  conflictResolutionWait : UInt64 := 2000
  /-- From the switch to the first health request. -/
  switchGrace : UInt64 := 3000
  /-- From a restart to the first health request. -/
  restartWait : UInt64 := 5000
  healthProbeInterval : UInt64 := 500
  healthProbeMaxWait : UInt64 := 10000
  /-- From the last success to the clearing of the attempts. -/
  attemptReset : UInt64 := 30000
  reconcileInterval : UInt64 := 45000
  /-- From a window becoming visible to a reconciliation. -/
  visibilityDelay : UInt64 := 1000
  conflictPollInterval : UInt64 := 10000
  invalidateDebounce : UInt64 := 500
  maxRecoveryAttempts : UInt32 := 3
  historyLimit : UInt64 := 10
  deriving DecidableEq, Inhabited

namespace Timings

def standard : Timings := {}

/-- What makes timings unusable; the first fault in this order is reported. -/
inductive Fault where
  | probeInterval
  | probeMaxWait
  | pollInterval
  | recoveryLimit
  | historyLimit
  deriving DecidableEq

def Fault.message : Fault → String
  | probeInterval => "健康探测间隔必须大于0"
  | probeMaxWait => "健康探测最大等待不应小于探测间隔"
  | pollInterval => "轮询间隔必须大于0"
  | recoveryLimit => "自动恢复次数上限必须大于0"
  | historyLimit => "切换历史保留条数必须大于0"

def validate (t : Timings) : Except Fault Unit :=
  if t.healthProbeInterval = 0 then .error .probeInterval
  else if t.healthProbeMaxWait < t.healthProbeInterval then .error .probeMaxWait
  else if t.reconcileInterval = 0 ∨ t.conflictPollInterval = 0 then .error .pollInterval
  else if t.maxRecoveryAttempts = 0 then .error .recoveryLimit
  else if t.historyLimit = 0 then .error .historyLimit
  else .ok ()

end Timings

instance : Encode Timings where
  encode t := .object
    [("conflict_resolution_wait_ms", encode t.conflictResolutionWait),
      ("switch_grace_ms", encode t.switchGrace), ("restart_wait_ms", encode t.restartWait),
      ("health_probe_interval_ms", encode t.healthProbeInterval),
      ("health_probe_max_wait_ms", encode t.healthProbeMaxWait),
      ("attempt_reset_ms", encode t.attemptReset),
      ("reconcile_interval_ms", encode t.reconcileInterval),
      ("visibility_delay_ms", encode t.visibilityDelay),
      ("conflict_poll_interval_ms", encode t.conflictPollInterval),
      ("invalidate_debounce_ms", encode t.invalidateDebounce),
      ("max_recovery_attempts", encode t.maxRecoveryAttempts),
      ("history_limit", encode t.historyLimit)]

instance : Decode Timings where
  decode? := Tree.record?
    [("conflict_resolution_wait_ms", .defaulted), ("switch_grace_ms", .defaulted),
      ("restart_wait_ms", .defaulted), ("health_probe_interval_ms", .defaulted),
      ("health_probe_max_wait_ms", .defaulted), ("attempt_reset_ms", .defaulted),
      ("reconcile_interval_ms", .defaulted), ("visibility_delay_ms", .defaulted),
      ("conflict_poll_interval_ms", .defaulted), ("invalidate_debounce_ms", .defaulted),
      ("max_recovery_attempts", .defaulted), ("history_limit", .defaulted)]
    fun room fields => do
      let [resolution, grace, restart, interval, maxWait, reset, reconcile, visibility, poll,
        debounce, attempts, history] := fields | none
      let d := Timings.standard
      return {
        conflictResolutionWait := ← fieldOr? room d.conflictResolutionWait resolution
        switchGrace := ← fieldOr? room d.switchGrace grace
        restartWait := ← fieldOr? room d.restartWait restart
        healthProbeInterval := ← fieldOr? room d.healthProbeInterval interval
        healthProbeMaxWait := ← fieldOr? room d.healthProbeMaxWait maxWait
        attemptReset := ← fieldOr? room d.attemptReset reset
        reconcileInterval := ← fieldOr? room d.reconcileInterval reconcile
        visibilityDelay := ← fieldOr? room d.visibilityDelay visibility
        conflictPollInterval := ← fieldOr? room d.conflictPollInterval poll
        invalidateDebounce := ← fieldOr? room d.invalidateDebounce debounce
        maxRecoveryAttempts := ← fieldOr? room d.maxRecoveryAttempts attempts
        historyLimit := ← fieldOr? room d.historyLimit history }

end CoreWarden
