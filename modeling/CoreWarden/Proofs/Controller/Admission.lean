import CoreWarden.Proofs.Controller.Running

/-!
What becomes of a call. Whether it is turned away, and with which answer, or which work begins, and what
is shown afterwards, depends on the timings and on what is shown when it is made, and on nothing else of
the controller.
-/
namespace CoreWarden

/-- What becomes of a call, with the snapshot that it leads to. -/
inductive Admission where
  /-- It is answered at once. -/
  | refused (result : Result) (snapshot : Snapshot)
  /-- Work begins. -/
  | admitted (work : Work) (snapshot : Snapshot)

namespace Admission

def snapshot : Admission → Snapshot
  | refused _ snapshot | admitted _ snapshot => snapshot

/-- What is done in the event, for a call with the number `n`. -/
def outputs (n : Nat) : Admission → List Output
  | refused result _ => [.ended n result]
  | admitted work _ => work.awaits.map fun a => .ask n a.1 a.2

def begun (n : Nat) : Admission → List Running
  | refused .. => []
  | admitted work _ => [⟨n, .caller true, work⟩]

end Admission

/-- What becomes of a call when a snapshot is shown. -/
def Call.admission (timings : Timings) (s : Snapshot) : Call → Admission
  | switch id =>
    match Switch.idFault? id with
    | some e => .refused (.switch (.error e)) s
    | none =>
      if s.currentConfig = some id then .refused (.switch (.ok (.unchanged id))) s
      else if s.activity = .idle then
        .admitted (.switch id .checking) { s.withActivity .switching with switchError := none }
      else .refused (.switch (.error (.busy s.activity.label))) s
  | reload =>
    if s.activity = .idle then
      .admitted (.reload .restarting) { s.withActivity .reloading with switchError := none }
    else .refused (.reload (.error (.busy s.activity.label))) s
  | recover =>
    if s.activity = .recovering then .refused (.recover (.ok .alreadyRecovering)) s
    else if timings.maxRecoveryAttempts ≤ s.recoveryAttempts then
      let e := Error.recoveryExhausted s.recoveryAttempts
      .refused (.recover (.error e)) { s with switchError := some e.message }
    else if s.activity = .idle then
      .admitted (.recover (s.recoveryAttempts + 1) .checking)
        { s.withActivity .recovering with recoveryAttempts := s.recoveryAttempts + 1 }
    else .refused (.recover (.error (.busy s.activity.label))) s
  | check => .admitted .check s
  | reconcile =>
    if s.activity = .idle then .admitted (.reconcile .start) (s.withActivity .reconciling)
    else .refused (.reconcile .skipped) { s with skippedTicks := s.skippedTicks + 1 }
  | refetch key => .admitted (.refetch key) s

namespace Controller

/-- This becomes of a call. -/
structure Takes (c : Controller) (call : Call) (a : Admission) : Prop where
  outputs : (c.step (.call call)).2 = a.outputs c.nextId
  running : (c.step (.call call)).1.running = c.running ++ a.begun c.nextId
  snapshot : (c.step (.call call)).1.snapshot = a.snapshot

variable {c : Controller} {call : Call} {shared : Shared} {a : Admission}

theorem takes_refused {result : Result} {shown : Snapshot}
    (h : c.step (.call call) = { c with shared }.answerAtOnce result)
    (hs : shared.state.snapshot = shown) : c.Takes call (.refused result shown) where
  outputs := by
    rw [h]
    rfl
  running := by
    rw [h]
    exact (List.append_nil _).symm
  snapshot := by
    rw [h]
    exact hs

theorem takes_admitted {work : Work} {shown : Snapshot}
    (h : c.step (.call call) = { c with shared }.launch (.caller true) work work.awaits)
    (hs : shared.state.snapshot = shown) : c.Takes call (.admitted work shown) where
  outputs := by
    rw [h]
    rfl
  running := by
    rw [h]
    rfl
  snapshot := by
    rw [h]
    exact hs

theorem takes_switch (c : Controller) (id : String) :
    c.Takes (.switch id)
      ((Call.switch id).admission c.later.shared.timings c.later.snapshot) := by
  have hstep : c.step (.call (.switch id)) = c.later.startSwitch id := rfl
  rw [startSwitch] at hstep
  rw [Call.admission]
  cases hf : Switch.idFault? id with
  | some e =>
    rw [hf] at hstep
    exact takes_refused hstep rfl
  | none =>
    rw [hf] at hstep
    dsimp only at hstep ⊢
    split
    · next hcurrent =>
      rw [if_pos hcurrent] at hstep
      exact takes_refused hstep rfl
    · next hcurrent =>
      rw [if_neg hcurrent] at hstep
      split
      · next hi =>
        rw [SyncState.enter_of_idle _ _ hi] at hstep
        exact takes_admitted hstep (SyncState.snapshot_setError _ _)
      · next hb =>
        rw [SyncState.enter_of_ne_idle _ _ hb] at hstep
        exact takes_refused hstep rfl

theorem takes_reload (c : Controller) :
    c.Takes .reload (Call.reload.admission c.later.shared.timings c.later.snapshot) := by
  have hstep : c.step (.call .reload) = c.later.startReload := rfl
  rw [startReload] at hstep
  rw [Call.admission]
  split
  · next hi =>
    rw [SyncState.enter_of_idle _ _ hi] at hstep
    exact takes_admitted hstep (SyncState.snapshot_setError _ _)
  · next hb =>
    rw [SyncState.enter_of_ne_idle _ _ hb] at hstep
    exact takes_refused hstep rfl

theorem takes_recover (c : Controller) :
    c.Takes .recover (Call.recover.admission c.later.shared.timings c.later.snapshot) := by
  have hstep : c.step (.call .recover) = c.later.startRecovery := rfl
  rw [startRecovery] at hstep
  by_cases hr : c.later.state.activity = .recovering
  · have ha : c.later.snapshot.activity = .recovering := hr
    rw [if_pos hr] at hstep
    rw [Call.admission, if_pos ha]
    exact takes_refused hstep rfl
  · have ha : c.later.snapshot.activity ≠ .recovering := hr
    rw [if_neg hr] at hstep
    rw [Call.admission, if_neg ha]
    split
    · next hmax =>
      rw [if_pos hmax] at hstep
      exact takes_refused hstep (SyncState.snapshot_setError _ _)
    · next hmax =>
      rw [if_neg hmax] at hstep
      split
      · next hi =>
        rw [SyncState.enter_of_idle _ _ hi] at hstep
        exact takes_admitted hstep rfl
      · next hb =>
        rw [SyncState.enter_of_ne_idle _ _ hb] at hstep
        exact takes_refused hstep rfl

theorem takes_reconcile (c : Controller) :
    c.Takes .reconcile (Call.reconcile.admission c.later.shared.timings c.later.snapshot) := by
  have hstep : c.step (.call .reconcile) = c.later.startTick (.caller true) := rfl
  rw [startTick] at hstep
  rw [Call.admission]
  split
  · next hi =>
    rw [SyncState.enter_of_idle _ _ hi] at hstep
    exact takes_admitted hstep rfl
  · next hb =>
    rw [SyncState.enter_of_ne_idle _ _ hb] at hstep
    exact takes_refused hstep rfl

theorem takes_aside (c : Controller) {work : Work}
    (h : c.step (.call call) = c.later.launch (.caller true) work work.awaits) :
    c.Takes call (.admitted work c.later.snapshot) :=
  takes_admitted h rfl

/-- Every controller takes every call as the timings and the snapshot say. -/
theorem takes (c : Controller) (call : Call) :
    c.Takes call (call.admission c.shared.timings c.snapshot) := by
  cases call with
  | switch id => exact c.takes_switch id
  | reload => exact c.takes_reload
  | recover => exact c.takes_recover
  | reconcile => exact c.takes_reconcile
  | check | refetch => exact takes_aside c rfl

theorem takes_alike {c c' : Controller} (ht : c'.shared.timings = c.shared.timings)
    (hs : c'.snapshot = c.snapshot) (call : Call) : ∃ a, c.Takes call a ∧ c'.Takes call a :=
  ⟨_, c.takes call, hs ▸ ht ▸ c'.takes call⟩

end Controller

end CoreWarden
