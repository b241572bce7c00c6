import CoreWarden.Proofs.Controller.Effect
import CoreWarden.Proofs.SyncState.Likeness

/-!
Workflows on two sides that are alike: a signal leads to the same point, with the same calls or the same
result, and leaves the sides alike.
-/
namespace CoreWarden

variable {L : Likeness} {s s' : Shared}

namespace Likeness

@[simp] theorem conflictResolutionWait (L : Likeness) (t : Timings) :
    (L.timings t).conflictResolutionWait = t.conflictResolutionWait := by
  obtain ⟨poll, hpoll⟩ := L.timings_eq t
  rw [hpoll]

@[simp] theorem switchGrace (L : Likeness) (t : Timings) :
    (L.timings t).switchGrace = t.switchGrace := by
  obtain ⟨poll, hpoll⟩ := L.timings_eq t
  rw [hpoll]

@[simp] theorem restartWait (L : Likeness) (t : Timings) :
    (L.timings t).restartWait = t.restartWait := by
  obtain ⟨poll, hpoll⟩ := L.timings_eq t
  rw [hpoll]

namespace Matches

theorem timings (h : L.Matches s s') : s'.timings = L.timings s.timings := by
  obtain ⟨state, -, rfl⟩ := h
  rfl

theorem stay {α : Type} (h : L.Matches s s') (next : α) : L.InStep (s, next) (s', next) := ⟨h, rfl⟩

theorem onState (h : L.Matches s s') {f : SyncState → SyncState}
    (hf : L.Alike (f s.state) (f s'.state)) : L.Matches (s.onState f) (s'.onState f) :=
  h.withState hf

theorem check (h : L.Matches s s') (result : Except Error StatusReport) :
    L.Matches (s.check result).2 (s'.check result).2 :=
  h.onState (applyConflict h.state _)

theorem recordSuccess (h : L.Matches s s') : L.Matches s.recordSuccess s'.recordSuccess := by
  unfold Shared.recordSuccess
  rw [h.now, h.wall]
  exact h.onState (Likeness.recordSuccess h.state _ _)

theorem startRefresh {α : Type} (h : L.Matches s s') (next : Refresh → α) :
    L.InStep (s.startRefresh.2, next s.startRefresh.1) (s'.startRefresh.2, next s'.startRefresh.1) := by
  unfold Shared.startRefresh
  rw [h.cache]
  exact ⟨h.withCache _, rfl⟩

theorem resumeRefresh (h : L.Matches s s') (refresh : Refresh) (signal : Signal) :
    (s'.resumeRefresh refresh signal).1 = (s.resumeRefresh refresh signal).1 ∧
      L.Matches (s.resumeRefresh refresh signal).2 (s'.resumeRefresh refresh signal).2 := by
  obtain ⟨state, hstate, rfl⟩ := h
  unfold Shared.resumeRefresh
  split
  · split
    · exact ⟨rfl, state, hstate, rfl⟩
    · exact ⟨rfl, state, hstate, rfl⟩
  · exact ⟨rfl, state, hstate, rfl⟩

end Matches

end Likeness

namespace Switch

theorem inStep_fail (h : L.Matches s s') (id : String) (e : Error) :
    L.InStep (fail s id e) (fail s' id e) := by
  unfold fail
  rw [h.wall]
  exact (h.onState (Likeness.recordSwitchFailure h.state ..)).stay _

theorem inStep_probed (h : L.Matches s s') (id : String)
    (progress : Progress Probe (Except Error Unit)) :
    L.InStep (probed s id progress) (probed s' id progress) := by
  unfold probed
  split
  · exact h.stay _
  · exact inStep_fail h id _
  · exact h.stay _

theorem inStep_refreshed (h : L.Matches s s') (id : String) (conflictRemaining : Bool)
    (refresh : Refresh) : L.InStep (refreshed s id conflictRemaining refresh)
      (refreshed s' id conflictRemaining refresh) := by
  unfold refreshed commit
  split
  · rw [h.wall]
    exact (h.onState (Likeness.commitSwitch h.state ..)).recordSuccess.stay _
  · exact h.stay _

theorem inStep_resume (h : L.Matches s s') (id : String) (phase : Switch) (signal : Signal) :
    L.InStep (resume s id phase signal) (resume s' id phase signal) := by
  fun_cases resume s id phase signal with
  | case1 result report t hcheck hc =>
    cases hcheck
    change L.InStep _ (if (ConflictReport.ofStatus result).hasConflict then _ else _)
    rw [if_pos hc]
    exact (h.check result).stay _
  | case2 result report t hcheck hc =>
    cases hcheck
    change L.InStep _ (if (ConflictReport.ofStatus result).hasConflict then _ else _)
    rw [if_neg hc]
    exact (h.check result).stay _
  | case3 | case6 =>
    refine ⟨h, ?_⟩
    simp only [resume, h.now, h.timings]
    simp
  | case4 => exact h.stay _
  | case5 result => exact (h.check result).stay _
  | case7 e => exact inStep_fail h id e
  | case8 wake =>
    rw [resume, h.pace, h.now]
    exact inStep_probed h id _
  | case9 probe signal =>
    rw [resume, h.pace, h.now]
    exact inStep_probed h id _
  | case10 result report t hcheck =>
    cases hcheck
    exact (h.check result).stay _
  | case11 remaining result refresh t hr =>
    cases hr
    exact h.startRefresh fun refresh => (.waiting (.refreshing remaining refresh) refresh.asks : Step)
  | case12 remaining refresh signal refresh' t hr =>
    obtain ⟨hrefresh, hmatches⟩ := h.resumeRefresh refresh signal
    rw [hr] at hrefresh hmatches
    simp only [resume, hrefresh]
    exact inStep_refreshed hmatches id remaining refresh'
  | case13 e result => exact (h.check result).stay _
  | case14 =>
    rw [resume]
    · exact h.stay _
    all_goals assumption

end Switch

namespace Reload

theorem inStep_probed (h : L.Matches s s') (progress : Progress Probe (Except Error Unit)) :
    L.InStep (probed s progress) (probed s' progress) := by
  unfold probed
  split
  · exact h.stay _
  · exact h.stay _
  · exact h.startRefresh fun refresh => (.waiting (.refreshing refresh) refresh.asks : Step)

theorem inStep_refreshed (h : L.Matches s s') (refresh : Refresh) :
    L.InStep (refreshed s refresh) (refreshed s' refresh) := by
  unfold refreshed
  split
  · exact h.recordSuccess.stay _
  · exact h.stay _

theorem inStep_resume (h : L.Matches s s') (phase : Reload) (signal : Signal) :
    L.InStep (resume s phase signal) (resume s' phase signal) := by
  fun_cases resume s phase signal with
  | case1 =>
    refine ⟨h, ?_⟩
    simp only [resume, h.now, h.timings]
    simp
  | case2 e => exact h.stay _
  | case3 wake =>
    rw [resume, h.pace, h.now]
    exact inStep_probed h _
  | case4 probe signal =>
    rw [resume, h.pace, h.now]
    exact inStep_probed h _
  | case5 refresh signal refresh' t hr =>
    obtain ⟨hrefresh, hmatches⟩ := h.resumeRefresh refresh signal
    rw [hr] at hrefresh hmatches
    simp only [resume, hrefresh]
    exact inStep_refreshed hmatches refresh'
  | case6 =>
    rw [resume]
    · exact h.stay _
    all_goals assumption

theorem inStep_reloadEnded {out out' : Shared × Step} (h : L.InStep out out') :
    L.InStep (Controller.reloadEnded out) (Controller.reloadEnded out') := by
  obtain ⟨s, progress⟩ := out
  obtain ⟨s', progress'⟩ := out'
  obtain ⟨hmatches, rfl⟩ : L.Matches s s' ∧ progress' = progress := h
  match progress' with
  | .waiting phase asks => exact hmatches.stay _
  | .done (.ok ()) => exact hmatches.stay _
  | .done (.error e) => exact (hmatches.onState (Likeness.recordFailure hmatches.state _)).stay _

end Reload

namespace Recovery

theorem inStep_reloaded {out out' : Shared × Reload.Step} (h : L.InStep out out') :
    L.InStep (reloaded out) (reloaded out') := by
  obtain ⟨s, progress⟩ := out
  obtain ⟨s', progress'⟩ := out'
  obtain ⟨hmatches, rfl⟩ : L.Matches s s' ∧ progress' = progress := h
  match progress' with
  | .waiting phase asks => exact hmatches.stay _
  | .done (.ok ()) => exact hmatches.stay _
  | .done (.error e) => exact (hmatches.onState (Likeness.recordFailure hmatches.state _)).stay _

theorem inStep_succeed (h : L.Matches s s') (attempt : UInt32) (wasReloaded : Bool) :
    L.InStep (succeed s attempt wasReloaded) (succeed s' attempt wasReloaded) :=
  (h.onState (Likeness.setError h.state none)).recordSuccess.stay _

theorem inStep_refreshed (h : L.Matches s s') (attempt : UInt32) (refresh : Refresh) :
    L.InStep (refreshed s attempt refresh) (refreshed s' attempt refresh) := by
  unfold refreshed
  split
  · exact inStep_succeed h attempt false
  · exact h.stay _

theorem inStep_resume (h : L.Matches s s') (attempt : UInt32) (phase : Recovery) (signal : Signal) :
    L.InStep (resume s attempt phase signal) (resume s' attempt phase signal) := by
  fun_cases resume s attempt phase signal with
  | case1 result report t hcheck hc =>
    cases hcheck
    change L.InStep _ (if (ConflictReport.ofStatus result).hasConflict then _ else _)
    rw [if_pos hc]
    exact (h.check result).stay _
  | case2 result report t hcheck hc refresh t' hr =>
    cases hcheck
    cases hr
    change L.InStep _ (if (ConflictReport.ofStatus result).hasConflict then _ else _)
    rw [if_neg hc]
    exact (h.check result).startRefresh fun refresh => (.waiting (.refreshing refresh) refresh.asks : Step)
  | case3 reload signal => exact inStep_reloaded (Reload.inStep_resume h reload signal)
  | case4 result => exact inStep_succeed (h.check result) attempt true
  | case5 refresh signal refresh' t hr =>
    obtain ⟨hrefresh, hmatches⟩ := h.resumeRefresh refresh signal
    rw [hr] at hrefresh hmatches
    simp only [resume, hrefresh]
    exact inStep_refreshed hmatches attempt refresh'
  | case6 =>
    rw [resume]
    · exact h.stay _
    all_goals assumption

end Recovery

end CoreWarden
