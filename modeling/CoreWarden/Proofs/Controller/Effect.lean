import CoreWarden.Controller.Step
import CoreWarden.Proofs.SyncState.Operations

/-!
What a signal to a workflow leaves in the observable state, and how the workflow stands then. No
signal changes the time, the clock on the wall or the timings.
-/
namespace CoreWarden

namespace Shared

@[simp] theorem state_onState (s : Shared) (f : SyncState → SyncState) :
    (s.onState f).state = f s.state := rfl

/-- What no work changes. -/
def Fixed (s s' : Shared) : Prop := s'.timings = s.timings ∧ s'.now = s.now ∧ s'.wall = s.wall

@[simp] theorem fixed_refl (s : Shared) : s.Fixed s := ⟨rfl, rfl, rfl⟩

@[simp] theorem fixed_onState (s : Shared) (f : SyncState → SyncState) : s.Fixed (s.onState f) :=
  ⟨rfl, rfl, rfl⟩

theorem Fixed.trans {s t u : Shared} (h : s.Fixed t) (k : t.Fixed u) : s.Fixed u :=
  ⟨k.1.trans h.1, k.2.1.trans h.2.1, k.2.2.trans h.2.2⟩

theorem check_eq {s t : Shared} {result : Except Error StatusReport} {report : ConflictReport}
    (h : s.check result = (report, t)) : t = s.onState (·.applyConflict report) := by
  simp only [check, Prod.mk.injEq] at h
  obtain ⟨rfl, rfl⟩ := h
  rfl

theorem startRefresh_eq {s t : Shared} {refresh : Refresh} (h : s.startRefresh = (refresh, t)) :
    ∃ cache, t = { s with cache } := by
  simp only [startRefresh, Prod.mk.injEq] at h
  exact ⟨_, h.2.symm⟩

theorem resumeRefresh_eq {s t : Shared} {refresh refresh' : Refresh} {signal : Signal}
    (h : s.resumeRefresh refresh signal = (refresh', t)) : ∃ cache, t = { s with cache } := by
  unfold resumeRefresh at h
  split at h
  · split at h <;> simp only [Prod.mk.injEq] at h <;> exact ⟨_, h.2.symm⟩
  · simp only [Prod.mk.injEq] at h
    exact ⟨_, h.2.symm⟩

end Shared

inductive Switch.Effect (s : Shared) (id : String) : SyncState → Switch.Step → Prop
  | none {step} (h : ∀ outcome, step ≠ .done (.ok outcome)) : Effect s id s.state step
  | check {step} (report : ConflictReport) (h : ∀ outcome, step ≠ .done (.ok outcome)) :
      Effect s id (s.state.applyConflict report) step
  | failure (e : Error) : Effect s id (s.state.recordSwitchFailure id e.message s.wall)
      (.waiting (.reporting e) [(0, .status)])
  | success (conflictRemaining : Bool) :
      Effect s id ((s.state.commitSwitch id s.wall).recordSuccess s.now s.wall)
        (.done (.ok (.switched id conflictRemaining)))

inductive Reload.Effect (s : Shared) : SyncState → Reload.Step → Prop
  | none {step} (h : step ≠ .done (.ok ())) : Effect s s.state step
  | success : Effect s (s.state.recordSuccess s.now s.wall) (.done (.ok ()))

/-- What a signal to a recovery leaves in the state. The reload in a recovery records a success of
its own. -/
inductive Recovery.Effect (s : Shared) (attempt : UInt32) : SyncState → Recovery.Step → Prop
  | none {phase asks} : Effect s attempt s.state (.waiting phase asks)
  | check {phase asks} (report : ConflictReport) :
      Effect s attempt (s.state.applyConflict report) (.waiting phase asks)
  | reloaded : Effect s attempt (s.state.recordSuccess s.now s.wall)
      (.waiting .rechecking [(0, .status)])
  | failure (e : Error) : Effect s attempt (s.state.recordFailure e.message) (.done (.error e))
  | refreshed : Effect s attempt ((s.state.setError .none).recordSuccess s.now s.wall)
      (.done (.ok (.recovered attempt false)))
  | rechecked (report : ConflictReport) :
      Effect s attempt (((s.state.applyConflict report).setError .none).recordSuccess s.now s.wall)
        (.done (.ok (.recovered attempt true)))

namespace Switch

variable {s : Shared} {id : String}

theorem effect_probed (s : Shared) (id : String) (progress : Progress Probe (Except Error Unit)) :
    Effect s id (probed s id progress).1.state (probed s id progress).2 ∧
      s.Fixed (probed s id progress).1 := by
  fun_cases probed s id progress with
  | case1 probe asks => exact ⟨.none (by simp), s.fixed_refl⟩
  | case2 e => exact ⟨.failure e, s.fixed_onState _⟩
  | case3 => exact ⟨.none (by simp), s.fixed_refl⟩

theorem effect_resume (s : Shared) (id : String) (phase : Switch) (signal : Signal) :
    Effect s id (resume s id phase signal).1.state (resume s id phase signal).2 ∧
      s.Fixed (resume s id phase signal).1 := by
  fun_cases resume s id phase signal with
  | case1 result report t h hc =>
    obtain rfl := Shared.check_eq h
    exact ⟨.check report (by simp), s.fixed_onState _⟩
  | case2 result report t h hc =>
    obtain rfl := Shared.check_eq h
    exact ⟨.check report (by simp [request]), s.fixed_onState _⟩
  | case5 result => exact ⟨.check _ (by simp [request]), s.fixed_onState _⟩
  | case7 e => exact ⟨.failure e, s.fixed_onState _⟩
  | case8 | case9 => exact effect_probed ..
  | case10 result report t h =>
    obtain rfl := Shared.check_eq h
    exact ⟨.check report (by simp), s.fixed_onState _⟩
  | case11 remaining result refresh t h =>
    obtain ⟨cache, rfl⟩ := Shared.startRefresh_eq h
    exact ⟨.none (by simp), rfl, rfl, rfl⟩
  | case12 remaining refresh signal refresh' t h =>
    obtain ⟨cache, rfl⟩ := Shared.resumeRefresh_eq h
    unfold refreshed
    split
    · exact ⟨.success remaining, rfl, rfl, rfl⟩
    · exact ⟨.none (by simp), rfl, rfl, rfl⟩
  | case13 e result => exact ⟨.check _ (by simp), s.fixed_onState _⟩
  | case3 | case4 | case6 | case14 => exact ⟨.none (by simp), s.fixed_refl⟩

theorem effect {s s' : Shared} {id : String} {phase : Switch} {signal : Signal} {step : Step}
    (h : resume s id phase signal = (s', step)) : Effect s id s'.state step ∧ s.Fixed s' := by
  have he := effect_resume s id phase signal
  rwa [h] at he

end Switch

namespace Reload

theorem effect_probed (s : Shared) (progress : Progress Probe (Except Error Unit)) :
    Effect s (probed s progress).1.state (probed s progress).2 ∧ s.Fixed (probed s progress).1 := by
  fun_cases probed s progress with
  | case1 probe asks => exact ⟨.none (by simp), s.fixed_refl⟩
  | case2 e => exact ⟨.none (by simp), s.fixed_refl⟩
  | case3 refresh t h =>
    obtain ⟨cache, rfl⟩ := Shared.startRefresh_eq h
    exact ⟨.none (by simp), rfl, rfl, rfl⟩

theorem effect_resume (s : Shared) (phase : Reload) (signal : Signal) :
    Effect s (resume s phase signal).1.state (resume s phase signal).2 ∧
      s.Fixed (resume s phase signal).1 := by
  fun_cases resume s phase signal with
  | case3 | case4 => exact effect_probed ..
  | case5 refresh signal refresh' t h =>
    obtain ⟨cache, rfl⟩ := Shared.resumeRefresh_eq h
    unfold refreshed
    split
    · exact ⟨.success, rfl, rfl, rfl⟩
    · exact ⟨.none (by simp), rfl, rfl, rfl⟩
  | case1 | case2 | case6 => exact ⟨.none (by simp), s.fixed_refl⟩

theorem effect {s s' : Shared} {phase : Reload} {signal : Signal} {step : Step}
    (h : resume s phase signal = (s', step)) : Effect s s'.state step ∧ s.Fixed s' := by
  have he := effect_resume s phase signal
  rwa [h] at he

theorem effect_reloadEnded {s s' : Shared} {phase : Reload} {signal : Signal}
    {result : Except Error Unit} (h : Controller.reloadEnded (resume s phase signal) = (s', .done result)) :
    (result = .ok () ∧ s'.state = s.state.recordSuccess s.now s.wall ∨
      ∃ e, result = .error e ∧ s'.state = s.state.recordFailure e.message) ∧ s.Fixed s' := by
  obtain ⟨he, hf⟩ := effect_resume s phase signal
  generalize resume s phase signal = step at h he hf
  obtain ⟨t, progress⟩ := step
  match progress with
  | .waiting phase asks => simp [Controller.reloadEnded] at h
  | .done (.ok ()) =>
    simp only [Controller.reloadEnded, Prod.mk.injEq, Progress.done.injEq] at h
    obtain ⟨rfl, rfl⟩ := h
    generalize hs : t.state = state at he
    cases he with
    | none hn => exact absurd rfl hn
    | success => exact ⟨.inl ⟨rfl, rfl⟩, hf⟩
  | .done (.error e) =>
    simp only [Controller.reloadEnded, Prod.mk.injEq, Progress.done.injEq] at h
    obtain ⟨rfl, rfl⟩ := h
    generalize hs : t.state = state at he
    cases he with
    | none hn => exact ⟨.inr ⟨e, rfl, by simp [hs]⟩, hf⟩

end Reload

namespace Recovery

theorem effect_reloaded {s : Shared} {attempt : UInt32} {step : Shared × Reload.Step}
    (he : Reload.Effect s step.1.state step.2) (hf : s.Fixed step.1) :
    Effect s attempt (reloaded step).1.state (reloaded step).2 ∧ s.Fixed (reloaded step).1 := by
  obtain ⟨t, progress⟩ := step
  generalize ht : t.state = state at he
  cases he with
  | none h =>
    match progress with
    | .waiting reload asks =>
      refine ⟨?_, hf⟩
      simp only [reloaded, ht]
      exact .none
    | .done (.ok ()) => exact absurd rfl h
    | .done (.error e) =>
      refine ⟨?_, hf⟩
      simp only [reloaded, fail, Shared.state_onState, ht]
      exact .failure e
  | success =>
    refine ⟨?_, hf⟩
    simp only [reloaded, ht]
    exact .reloaded

theorem effect_resume (s : Shared) (attempt : UInt32) (phase : Recovery) (signal : Signal) :
    Effect s attempt (resume s attempt phase signal).1.state (resume s attempt phase signal).2 ∧
      s.Fixed (resume s attempt phase signal).1 := by
  fun_cases resume s attempt phase signal with
  | case1 result report t h hc =>
    obtain rfl := Shared.check_eq h
    exact ⟨.check report, s.fixed_onState _⟩
  | case2 result report t h hc refresh u k =>
    obtain rfl := Shared.check_eq h
    obtain ⟨cache, rfl⟩ := Shared.startRefresh_eq k
    exact ⟨.check report, rfl, rfl, rfl⟩
  | case3 reload signal =>
    obtain ⟨he, hf⟩ := Reload.effect_resume s reload signal
    exact effect_reloaded he hf
  | case4 result => exact ⟨.rechecked _, rfl, rfl, rfl⟩
  | case5 refresh signal refresh' t h =>
    obtain ⟨cache, rfl⟩ := Shared.resumeRefresh_eq h
    unfold refreshed
    split
    · exact ⟨.refreshed, rfl, rfl, rfl⟩
    · exact ⟨.none, rfl, rfl, rfl⟩
  | case6 => exact ⟨.none, s.fixed_refl⟩

theorem effect {s s' : Shared} {attempt : UInt32} {phase : Recovery} {signal : Signal} {step : Step}
    (h : resume s attempt phase signal = (s', step)) :
    Effect s attempt s'.state step ∧ s.Fixed s' := by
  have he := effect_resume s attempt phase signal
  rwa [h] at he

end Recovery

end CoreWarden
