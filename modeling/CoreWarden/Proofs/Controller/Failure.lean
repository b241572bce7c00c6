import CoreWarden.Proofs.Controller.Attempts

/-!
How workflows fail. A failure is shown and calls off the reset timer; a call of `recover` that is too
much is shown as well, and leaves the timer alone. Nothing else writes an error.
-/
namespace CoreWarden

open Controller (Hears Act)

/-! ### Which errors there are -/

def Error.IsUnhealthy (e : Error) : Prop := e = .notConfigured ∨ ∃ waited, e = .timeout waited

theorem Probe.isUnhealthy_of_failed {pace : Pace} {started attempt now : Nat} {e e' : Error}
    (h : failed pace started attempt now e = .done (.error e')) : e'.IsUnhealthy := by
  revert h
  fun_cases failed pace started attempt now e <;> intro h <;> cases h
  · exact .inl rfl
  · exact .inr ⟨_, rfl⟩

theorem Probe.isUnhealthy_of_done {pace : Pace} {now : Nat} {probe : Probe} {signal : Signal}
    {e : Error} (h : probe.resume pace now signal = .done (.error e)) : e.IsUnhealthy := by
  revert h
  fun_cases Probe.resume pace now probe signal <;> intro h
  case case2 | case4 => exact isUnhealthy_of_failed h
  all_goals cases h

/-- A reload fails because the restart does, or because the core does not become healthy. -/
theorem Reload.error_of_done {s s' : Shared} {phase : Reload} {signal : Signal} {e : Error}
    (h : resume s phase signal = (s', .done (.error e))) :
    phase = .restarting ∧ signal = .answer 0 (.restart (.error e)) ∨ e.IsUnhealthy := by
  revert h
  fun_cases resume s phase signal <;> intro h
  case case2 =>
    cases h
    exact .inl ⟨rfl, rfl⟩
  case case4 probe =>
    generalize hp : probe.resume s.pace s.now signal = progress at h
    fun_cases probed s progress <;> cases h
    exact .inr (Probe.isUnhealthy_of_done hp)
  case case5 =>
    unfold refreshed at h
    split at h <;> cases h
  all_goals cases h

theorem Recovery.error_of_done {s s' : Shared} {attempt : UInt32} {phase : Recovery}
    {signal : Signal} {e : Error} (h : resume s attempt phase signal = (s', .done (.error e))) :
    phase = .reloading .restarting ∧ signal = .answer 0 (.restart (.error e)) ∨ e.IsUnhealthy := by
  revert h
  fun_cases resume s attempt phase signal <;> intro h
  case case3 reload =>
    generalize hr : reload.resume s signal = step at h
    fun_cases reloaded step <;> cases h
    exact (Reload.error_of_done hr).imp_left fun hrestart => ⟨congrArg _ hrestart.1, hrestart.2⟩
  case case5 =>
    unfold refreshed succeed at h
    split at h <;> cases h
  all_goals cases h

/-! ### What a signal leaves of the error that is shown -/

def Progress.error? : Progress φ (Except ε α) → Option ε
  | .done (.error e) => some e
  | _ => none

/-- The error that a switch begins to report; it checks once more before it ends. -/
def Switch.failure? : Switch.Step → Option Error
  | .waiting (.reporting e) (_ :: _) => some e
  | _ => none

def Work.failure? (s : Shared) (signal : Signal) : Work → Option Error
  | switch id phase => Switch.failure? (phase.resume s id signal).2
  | reload phase => (phase.resume s signal).2.error?
  | recover attempt phase => (phase.resume s attempt signal).2.error?
  | _ => none

/-- A failure is shown and calls off the reset timer; without one no error is written. -/
def SyncState.Shows (s t : SyncState) : Option Error → Prop
  | some e => t.snapshot.switchError = some e.message ∧ t.reset = .empty
  | none => t.snapshot.switchError = s.snapshot.switchError ∨ t.snapshot.switchError = none

theorem Switch.shows_probed (s : Shared) (id : String) (progress : Progress Probe (Except Error Unit)) :
    s.state.Shows (probed s id progress).1.state (failure? (probed s id progress).2) := by
  fun_cases probed s id progress with
  | case2 e => exact ⟨rfl, rfl⟩
  | case1 | case3 => exact .inl rfl

theorem Switch.shows_resume (s : Shared) (id : String) (phase : Switch) (signal : Signal) :
    s.state.Shows (resume s id phase signal).1.state (failure? (resume s id phase signal).2) := by
  fun_cases resume s id phase signal with
  | case7 e => exact ⟨rfl, rfl⟩
  | case8 | case9 => exact shows_probed ..
  | case1 result report t h | case2 result report t h | case10 result report t h =>
    obtain rfl := Shared.check_eq h
    exact .inl rfl
  | case11 remaining result refresh t h =>
    obtain ⟨cache, rfl⟩ := Shared.startRefresh_eq h
    exact .inl rfl
  | case12 remaining refresh signal refresh' t h =>
    obtain ⟨cache, rfl⟩ := Shared.resumeRefresh_eq h
    unfold refreshed
    split <;> exact .inl rfl
  | case14 phase =>
    cases phase <;> exact .inl rfl
  | case3 | case4 | case5 | case6 | case13 => exact .inl rfl

theorem Reload.shows_resume (s : Shared) (phase : Reload) (signal : Signal) :
    s.state.Shows (Controller.reloadEnded (resume s phase signal)).1.state
      (resume s phase signal).2.error? := by
  have heffect := (effect_resume s phase signal).1
  generalize resume s phase signal = step at heffect
  obtain ⟨t, progress⟩ := step
  generalize hstate : t.state = state at heffect
  cases heffect with
  | success => exact .inl (by simp [Controller.reloadEnded, hstate])
  | none hok =>
    cases progress with
    | waiting phase' asks => exact .inl (by simp [Controller.reloadEnded, hstate])
    | done result =>
      cases result with
      | ok => exact absurd rfl hok
      | error e => simp [Controller.reloadEnded, Progress.error?, SyncState.Shows]

theorem Recovery.shows_resume (s : Shared) (attempt : UInt32) (phase : Recovery) (signal : Signal) :
    s.state.Shows (resume s attempt phase signal).1.state
      (resume s attempt phase signal).2.error? := by
  have heffect := (effect_resume s attempt phase signal).1
  generalize resume s attempt phase signal = step at heffect
  obtain ⟨t, progress⟩ := step
  generalize hstate : t.state = state at heffect
  cases heffect with
  | none | check | reloaded => exact .inl rfl
  | failure e => exact ⟨by simp, by simp⟩
  | refreshed | rechecked => exact .inr (by simp)

namespace SyncState

@[simp] theorem switchError_leave (s : SyncState) (a : Activity) :
    (s.leave a).snapshot.switchError = s.snapshot.switchError := by
  rw [snapshot_leave]
  split <;> rfl

theorem Shows.congr {s t u : SyncState} {failure : Option Error} (h : s.Shows t failure)
    (he : u.snapshot.switchError = t.snapshot.switchError) (hr : u.reset = t.reset) :
    s.Shows u failure := by
  cases failure with
  | none => exact h.imp he.trans he.trans
  | some e => exact ⟨he.trans h.1, hr.trans h.2⟩

end SyncState

namespace Controller

theorem state_proceed {α : Type} (f : SyncState → α) (hf : ∀ s a, f (SyncState.leave s a) = f s)
    (c : Controller) (r : Running) (point : φ → Work) (result : ρ → Result)
    (step : Shared × Progress φ ρ) : f (c.proceed r point result step).1.state = f step.1.state := by
  obtain ⟨s, progress⟩ := step
  cases progress with
  | waiting phase asks => rfl
  | done value => exact state_drop f hf { c with shared := s } _

theorem switchError_drop (c : Controller) (p : Running → Bool) :
    (c.drop p).snapshot.switchError = c.snapshot.switchError :=
  state_drop (·.snapshot.switchError) SyncState.switchError_leave c p

theorem switchError_conclude (c : Controller) (f : Tick.Finding) :
    (c.conclude f).snapshot.switchError = c.snapshot.switchError := by
  refine conclude_induction (P := fun c' => c'.snapshot.switchError = c.snapshot.switchError) rfl
    ?_ ?_ ?_
  · intro c₁ id h₁
    rw [← h₁, snapshot_onState, SyncState.snapshot_adopt]
    rfl
  · intro c₁ h₁
    exact (c₁.switchError_drop _).trans h₁
  · intro c₁ wall h₁
    exact h₁

theorem shows_resume (c : Controller) (r : Running) (signal : Signal) :
    c.state.Shows (c.resume r signal).1.state (r.work.failure? c.shared signal) := by
  have hproceed : ∀ {φ ρ : Type} (point : φ → Work) (result : ρ → Result)
      (step : Shared × Progress φ ρ) (failure : Option Error), c.state.Shows step.1.state failure →
        c.state.Shows (c.proceed r point result step).1.state failure := by
    intro φ ρ point result step failure h
    exact h.congr (state_proceed (·.snapshot.switchError) SyncState.switchError_leave ..)
      (state_proceed (·.reset) SyncState.reset_leave ..)
  fun_cases resume c r signal with
  | case1 signal id phase hw => exact hproceed _ _ _ _ (hw ▸ Switch.shows_resume ..)
  | case2 signal phase hw => exact hproceed _ _ _ _ (hw ▸ Reload.shows_resume ..)
  | case3 signal attempt phase hw => exact hproceed _ _ _ _ (hw ▸ Recovery.shows_resume ..)
  | case4 hw result found shared h =>
    obtain rfl := Shared.check_eq h
    exact hw ▸ .inl (switchError_drop _ _)
  | case6 signal tick hw tick' profiles proxies h f =>
    exact hw ▸ .inl ((switchError_drop _ _).trans (c.switchError_conclude f))
  | case8 key hw | case9 key hw => exact hw ▸ .inl (switchError_drop _ _)
  | case12 signal refresh hw refresh' shared h c' =>
    obtain ⟨cache, rfl⟩ := Shared.resumeRefresh_eq h
    exact hw ▸ .inl (switchError_drop _ _)
  | case13 signal refresh hw refresh' shared h c' =>
    obtain ⟨cache, rfl⟩ := Shared.resumeRefresh_eq h
    exact hw ▸ .inl rfl
  | case5 signal hw | case7 signal tick hw | case10 key hw | case11 key signal hw =>
    exact hw ▸ .inl rfl

theorem hears_of_heard? {c : Controller} {e : Event} {r : Running} {signal : Signal}
    (h : c.heard? e = some (r, signal)) : Hears c r e signal := by
  unfold heard? at h
  split at h
  · cases h
  · next id slot answer hc =>
    obtain ⟨hr, hany, rfl⟩ : c.find? id = some r ∧ r.work.awaits.any (·.1 == slot) = true ∧
        Signal.answer slot answer = signal := by
      simpa [Option.map_eq_some_iff, Option.filter_eq_some_iff, and_assoc] using h
    obtain ⟨⟨n, request⟩, ha, hn⟩ := List.any_eq_true.mp hany
    obtain rfl : n = slot := by simpa using hn
    obtain rfl := id_of_find? hr
    exact .answer hr ha hc
  · next id =>
    obtain ⟨hr, hany, rfl⟩ : c.find? id = some r ∧ r.work.due?.any (· ≤ c.now) = true ∧
        Signal.timeUp = signal := by
      simpa [Option.map_eq_some_iff, Option.filter_eq_some_iff, and_assoc] using h
    obtain ⟨due, hd, hn⟩ := (Option.any_eq_true _ _).mp hany
    obtain rfl := id_of_find? hr
    exact .timeUp hr hd (by simpa using hn)
  · cases h

theorem switchError_changeVisibility (c : Controller) (visible : Bool) :
    (c.changeVisibility visible).snapshot.switchError = c.snapshot.switchError := by
  obtain ⟨c₁, slot, rfl | rfl, hc⟩ := c.changeVisibility_eq visible <;> rw [hc]
  · exact c₁.switchError_drop _
  · exact (c.onState .recordSkippedTick).switchError_drop _

theorem switchError_shutdown (c : Controller) :
    c.shutdown.snapshot.switchError = c.snapshot.switchError := by
  have ha : c.shutdown.snapshot.switchError =
      ((((c.abort .reconciler).abort .poller).abort .debounce).abort
        .visibility).snapshot.switchError := rfl
  simp only [ha, abort, switchError_drop]

theorem Opening.switchError {s s' : Shared} {e : Event} {work : Work} (h : Opening s e work s') :
    s'.state.snapshot.switchError = s.state.snapshot.switchError ∨
      s'.state.snapshot.switchError = none := by
  cases h with
  | switch | reload => exact .inr (by simp)
  | recover | tick | refresh => exact .inl rfl

end Controller

/-! ### The errors of a turn -/

namespace Turn

def failure? (t : Turn) : Option Error :=
  (t.before.later.heard? t.event).bind fun (r, signal) =>
    r.work.failure? t.before.later.shared signal

/-- A call of `recover` is turned away because the limit is reached. -/
def exhausts (t : Turn) : Bool :=
  match t.event with
  | .call .recover => t.before.snapshot.activity ≠ .recovering ∧
      t.before.shared.timings.maxRecoveryAttempts ≤ t.before.snapshot.recoveryAttempts
  | _ => false

theorem exhausts_iff {t : Turn} : t.exhausts = true ↔ t.event = .call .recover ∧
    t.before.snapshot.activity ≠ .recovering ∧
      t.before.shared.timings.maxRecoveryAttempts ≤ t.before.snapshot.recoveryAttempts := by
  unfold exhausts
  split
  · next he => simp [he]
  · next hne => exact ⟨fun h => (Bool.false_ne_true h).elim, fun h => absurd h.1 hne⟩

def exhaustion (t : Turn) : Error := .recoveryExhausted t.before.snapshot.recoveryAttempts

theorem step_of_exhausts {t : Turn} (h : t.exhausts = true) : t.before.step t.event =
    (t.before.later.onState (·.setError (some t.exhaustion.message))).answerAtOnce
      (.recover (.error t.exhaustion)) := by
  obtain ⟨he, ha, hmax⟩ := exhausts_iff.mp h
  have ha' : ¬ t.before.later.state.activity = .recovering := ha
  have hmax' : t.before.later.shared.timings.maxRecoveryAttempts ≤
      t.before.later.snapshot.recoveryAttempts := hmax
  rw [he]
  change t.before.later.startRecovery = _
  rw [Controller.startRecovery, if_neg ha', if_pos hmax']
  rfl

theorem failure?_of_hears {t : Turn} {r : Running} {signal : Signal}
    (h : Hears t.before.later r t.event signal) :
    t.failure? = r.work.failure? t.before.later.shared signal := by
  simp [failure?, h.heard?]

theorem switchError_of_recover {t : Turn} (he : t.event = .call .recover) (hx : t.exhausts = false) :
    t.after.snapshot.switchError = t.before.snapshot.switchError := by
  by_cases hentry : t.Entry
  · exact congrArg (·.snapshot.switchError) (state_after_of_entry hentry)
  have hstep : t.after = t.before.later.startRecovery.1 := by
    rw [after, he]
    rfl
  rw [hstep, Controller.startRecovery]
  by_cases hr : t.before.later.state.activity = .recovering
  · rw [if_pos hr]
    rfl
  have hmax : ¬ t.before.later.shared.timings.maxRecoveryAttempts ≤
      t.before.later.snapshot.recoveryAttempts := by
    intro hmax
    simp [exhausts_iff.mpr ⟨he, hr, hmax⟩] at hx
  have hidle : t.before.later.state.activity ≠ .idle :=
    fun hidle => hentry ⟨he, hidle, UInt32.not_le.mp hmax⟩
  rw [if_neg hr, if_neg hmax, SyncState.enter_of_ne_idle _ _ hidle]
  rfl

theorem switchError_of_act {c : Controller} {e : Event} {out : Controller × List Output}
    (h : Act c e out) (hheard : c.heard? e = none) (hne : e ≠ .call .recover) :
    out.1.snapshot.switchError = c.snapshot.switchError ∨ out.1.snapshot.switchError = none := by
  cases h with
  | nothing | refused | skippedCall | droppedRefresh | detached | passed => exact .inl rfl
  | resumed hs ho => simp [hs.heard?] at hheard
  | exhausted hmax => exact absurd rfl hne
  | skippedTick ho | joins ho =>
    obtain ⟨hs, -, -, -⟩ := ho.frame
    exact .inl (congrArg (·.state.snapshot.switchError) hs)
  | begins ho hi hw => exact hw.switchError
  | @collapsed r =>
    have hd := (c.stopTicker r.origin).switchError_drop (·.id == r.id)
    exact .inl (hd.trans (congrArg (·.state.snapshot.switchError) (c.shared_stopTicker r.origin)))
  | abandoned => exact .inl (c.switchError_drop _)
  | started => exact .inl (congrArg (·.state.snapshot.switchError) c.shared_startBackground)
  | shutDown => exact .inl c.switchError_shutdown
  | visibility => exact .inl (c.switchError_changeVisibility _)
  | expired hd hn =>
    have hsnapshot := congrArg Snapshot.switchError (SyncState.expire_of_due _ hd hn).1
    exact .inl hsnapshot

/-- A failure is shown and calls off the reset timer; but for calls of `recover` that are too much,
nothing else writes an error. -/
theorem shows {t : Turn} (hx : t.exhausts = false) : t.before.state.Shows t.after.state t.failure? := by
  cases hheard : t.before.later.heard? t.event with
  | some heard =>
    obtain ⟨r, signal⟩ := heard
    have hs := Controller.hears_of_heard? hheard
    rw [failure?_of_hears hs, after, Controller.step_of_hears hs]
    exact Controller.shows_resume _ r signal
  | none =>
    have hnone : t.failure? = none := by simp [failure?, hheard]
    rw [hnone]
    by_cases he : t.event = .call .recover
    · exact .inl (switchError_of_recover he hx)
    · have hwritten := switchError_of_act (Controller.act_step t.before t.event) hheard he
      exact hwritten

end Turn
end CoreWarden
