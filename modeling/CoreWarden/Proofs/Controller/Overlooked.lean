import CoreWarden.Proofs.Controller.Failure

/-!
What only switches, recoveries and checks change. An observation of the snapshot that is blind to all
else is the same after every event that no work hears; after an event that work hears, it depends on
that work alone.
-/
namespace CoreWarden

open Controller (Act Opening)

variable {α : Type} {f : Snapshot → α}

/-- An observation that is blind to the activity, to the error and the profile that are shown, to
counts and to times. -/
structure Snapshot.Overlooks (f : Snapshot → α) : Prop where
  activity : ∀ s a, f (s.withActivity a) = f s
  switchError : ∀ (s : Snapshot) error, f { s with switchError := error } = f s
  attempts : ∀ (s : Snapshot) n, f { s with recoveryAttempts := n } = f s
  currentConfig : ∀ (s : Snapshot) id, f { s with currentConfig := id } = f s
  lastSuccess : ∀ (s : Snapshot) wall, f { s with lastSuccess := wall } = f s
  lastReconcile : ∀ (s : Snapshot) wall, f { s with lastReconcile := wall } = f s
  skippedTicks : ∀ (s : Snapshot) n, f { s with skippedTicks := n } = f s

/-- The snapshot that a signal to a switch, a recovery or a check leads to; other work counts as if
it left everything alone. -/
def Work.snapshotAfter (s : Shared) (signal : Signal) : Work → Snapshot
  | switch id phase => (phase.resume s id signal).1.state.snapshot
  | recover attempt phase => (phase.resume s attempt signal).1.state.snapshot
  | check =>
    match signal with
    | .answer 0 (.status result) => (s.check result).2.state.snapshot
    | _ => s.state.snapshot
  | _ => s.state.snapshot

namespace Snapshot.Overlooks

theorem leave (h : Overlooks f) (s : SyncState) (a : Activity) :
    f (s.leave a).snapshot = f s.snapshot := by
  rw [SyncState.snapshot_leave]
  split
  · exact h.activity _ _
  · rfl

theorem setError (h : Overlooks f) (s : SyncState) (error : Option String) :
    f (s.setError error).snapshot = f s.snapshot := by
  rw [SyncState.snapshot_setError, h.switchError]

theorem drop (h : Overlooks f) (c : Controller) (p : Running → Bool) :
    f (c.drop p).snapshot = f c.snapshot :=
  Controller.state_drop (f ·.snapshot) h.leave c p

theorem proceed (h : Overlooks f) (c : Controller) (r : Running) (point : φ → Work)
    (result : ρ → Result) (step : Shared × Progress φ ρ) :
    f (c.proceed r point result step).1.snapshot = f step.1.state.snapshot :=
  Controller.state_proceed (f ·.snapshot) h.leave c r point result step

theorem conclude (h : Overlooks f) (c : Controller) (finding : Tick.Finding) :
    f (c.conclude finding).snapshot = f c.snapshot := by
  refine Controller.conclude_induction (P := fun c' => f c'.snapshot = f c.snapshot) rfl ?_ ?_ ?_
  · intro c₁ id h₁
    rw [Controller.snapshot_onState, SyncState.snapshot_adopt, h.currentConfig]
    exact h₁
  · intro c₁ h₁
    exact (h.drop c₁ _).trans h₁
  · intro c₁ wall h₁
    exact (h.lastReconcile _ _).trans h₁

theorem changeVisibility (h : Overlooks f) (c : Controller) (visible : Bool) :
    f (c.changeVisibility visible).snapshot = f c.snapshot := by
  obtain ⟨c₁, slot, rfl | rfl, hc⟩ := c.changeVisibility_eq visible <;> rw [hc]
  · exact h.drop c₁ _
  · exact (h.drop (c.onState .recordSkippedTick) _).trans (h.skippedTicks _ _)

theorem shutdown (h : Overlooks f) (c : Controller) : f c.shutdown.snapshot = f c.snapshot := by
  have haborted : f c.shutdown.snapshot =
      f ((((c.abort .reconciler).abort .poller).abort .debounce).abort .visibility).snapshot := rfl
  rw [haborted]
  simp only [Controller.abort, h.drop]

theorem opening (h : Overlooks f) {s s' : Shared} {e : Event} {work : Work}
    (hw : Opening s e work s') : f s'.state.snapshot = f s.state.snapshot := by
  cases hw with
  | switch | reload => exact (h.setError _ _).trans (h.activity _ _)
  | recover => exact (h.attempts _ _).trans (h.activity _ _)
  | tick | refresh => exact h.activity _ _

theorem act (h : Overlooks f) {c : Controller} {e : Event} {out : Controller × List Output}
    (hact : Act c e out) (hheard : c.heard? e = none) : f out.1.snapshot = f c.snapshot := by
  cases hact with
  | nothing | refused | droppedRefresh | detached | passed => rfl
  | exhausted => exact h.setError _ _
  | skippedCall => exact h.skippedTicks _ _
  | resumed hs ho => simp [hs.heard?] at hheard
  | skippedTick ho =>
    obtain ⟨hs, -, -, -⟩ := ho.frame
    exact (h.skippedTicks _ _).trans (congrArg (f ·.state.snapshot) hs)
  | joins ho =>
    obtain ⟨hs, -, -, -⟩ := ho.frame
    exact congrArg (f ·.state.snapshot) hs
  | begins ho hi hw => exact h.opening hw
  | @collapsed r =>
    exact (h.drop _ _).trans (congrArg (f ·.state.snapshot) (c.shared_stopTicker r.origin))
  | abandoned => exact h.drop c _
  | started => exact congrArg (f ·.state.snapshot) c.shared_startBackground
  | shutDown => exact h.shutdown c
  | visibility visible => exact h.changeVisibility c visible
  | expired hd hn =>
    have hsnapshot := congrArg f (SyncState.expire_of_due _ hd hn).1
    exact hsnapshot.trans (h.attempts _ _)

theorem reload (h : Overlooks f) (s : Shared) (phase : Reload) (signal : Signal) :
    f (Controller.reloadEnded (phase.resume s signal)).1.state.snapshot = f s.state.snapshot := by
  have heffect := (Reload.effect_resume s phase signal).1
  generalize phase.resume s signal = step at heffect
  obtain ⟨t, progress⟩ := step
  generalize hstate : t.state = state at heffect
  cases heffect with
  | success =>
    simp only [Controller.reloadEnded, hstate]
    exact h.lastSuccess _ _
  | none hne =>
    cases progress with
    | waiting phase' asks => simp only [Controller.reloadEnded, hstate]
    | done result =>
      cases result with
      | ok => exact absurd rfl hne
      | error e =>
        simp only [Controller.reloadEnded, Shared.state_onState, hstate,
          SyncState.snapshot_recordFailure]
        exact h.switchError _ _

theorem resume (h : Overlooks f) (c : Controller) (r : Running) (signal : Signal) :
    f (c.resume r signal).1.snapshot = f (r.work.snapshotAfter c.shared signal) := by
  fun_cases Controller.resume c r signal with
  | case1 signal id phase hw =>
    rw [h.proceed, hw]
    rfl
  | case2 signal phase hw =>
    rw [h.proceed, hw]
    exact h.reload c.shared phase signal
  | case3 signal attempt phase hw =>
    rw [h.proceed, hw]
    rfl
  | case4 hw result found shared hcheck =>
    have hshared : shared = (c.shared.check result).2 := by rw [hcheck]
    rw [hw, hshared]
    exact h.drop _ _
  | case5 signal hw hne =>
    rw [hw]
    simp only [Work.snapshotAfter]
    rfl
  | case6 signal tick hw tick' profiles proxies hresults finding =>
    exact hw ▸ (h.drop _ _).trans (h.conclude c finding)
  | case8 key hw | case9 key hw => exact hw ▸ h.drop _ _
  | case12 signal refresh hw refresh' shared hresume c' hd =>
    obtain ⟨cache, rfl⟩ := Shared.resumeRefresh_eq hresume
    exact hw ▸ h.drop _ _
  | case13 signal refresh hw refresh' shared hresume c' hd =>
    obtain ⟨cache, rfl⟩ := Shared.resumeRefresh_eq hresume
    rw [hw]
    rfl
  | case7 signal tick hw | case10 key hw | case11 key signal hw =>
    rw [hw]
    rfl

end Snapshot.Overlooks

theorem Turn.observed (h : Snapshot.Overlooks f) (t : Turn) : f t.after.snapshot =
    match t.before.later.heard? t.event with
    | some (r, signal) => f (r.work.snapshotAfter t.before.later.shared signal)
    | none => f t.before.snapshot := by
  split
  · next r signal hheard =>
    rw [after, Controller.step_of_hears (Controller.hears_of_heard? hheard), h.resume]
  · next hheard =>
    have hkept := h.act (Controller.act_step t.before t.event) hheard
    exact hkept

end CoreWarden
