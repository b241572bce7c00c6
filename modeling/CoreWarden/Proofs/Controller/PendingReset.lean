import CoreWarden.Proofs.Controller.BoundedRecovery
import CoreWarden.Proofs.Controller.Failure
import CoreWarden.Proofs.Controller.Limits

/-!
The reset timer. A success arms it; while it waits no workflow has failed since that success. A call of
`recover` that is turned away because the limit is reached shows an error as well, but leaves the timer
alone, so the attempts can be cleared although an error was shown a moment ago.
-/
namespace CoreWarden

open Controller (Hears)
open Time (pauseEnd)

theorem Since.of_snoc {p : List Turn → Turn → Prop} {q : Turn → Prop} {past : List Turn} {t : Turn}
    (h : Since p q (past ++ [t])) : p past t ∨ q t := by
  obtain ⟨earlier, u, later, hsplit, hp, hq⟩ := h
  rcases List.eq_nil_or_concat later with rfl | ⟨rest, v, rfl⟩
  · obtain ⟨rfl, hlast⟩ := List.append_inj' hsplit rfl
    obtain rfl : t = u := List.head_eq_of_cons_eq hlast
    exact .inl hp
  · have hlast : t = v := by
      have hsplit' : past ++ [t] = (earlier ++ u :: rest) ++ [v] := by simpa using hsplit
      exact List.head_eq_of_cons_eq (List.append_inj' hsplit' rfl).2
    exact .inr (hq t (by simp [hlast]))

/-! ### A success arms the timer -/

theorem Progress.eq_done_of_isOk {progress : Progress φ (Except ε α)} (h : progress.isOk = true) :
    ∃ value, progress = .done (.ok value) := by
  unfold isOk at h
  split at h
  · exact ⟨_, rfl⟩
  · cases h

theorem SyncState.due?_recordSuccess (s : SyncState) (now : Nat) (wall : Time.Timestamp) :
    (s.recordSuccess now wall).reset.due? = some (pauseEnd now s.limits.2) := rfl

/-- The reset timer waits for the end of a success that is recorded now. -/
def Shared.Armed (s : Shared) (state : SyncState) : Prop :=
  state.reset.due? = some (pauseEnd s.now s.state.limits.2)

theorem Switch.armed_of_isOk {s : Shared} {id : String} {phase : Switch} {signal : Signal}
    (h : (resume s id phase signal).2.isOk = true) :
    s.Armed (resume s id phase signal).1.state := by
  obtain ⟨outcome, hdone⟩ := Progress.eq_done_of_isOk h
  have heffect := (effect_resume s id phase signal).1
  rw [hdone] at heffect
  generalize (resume s id phase signal).1.state = state at heffect
  cases heffect with
  | none hok | check report hok => exact absurd rfl (hok outcome)
  | success => rfl

theorem Reload.armed_of_isOk {s : Shared} {phase : Reload} {signal : Signal}
    (h : (resume s phase signal).2.isOk = true) : s.Armed (resume s phase signal).1.state := by
  obtain ⟨⟨⟩, hdone⟩ := Progress.eq_done_of_isOk h
  have heffect := (effect_resume s phase signal).1
  rw [hdone] at heffect
  generalize (resume s phase signal).1.state = state at heffect
  cases heffect with
  | none hok => exact absurd rfl hok
  | success => rfl

theorem Recovery.armed_of_isOk {s : Shared} {attempt : UInt32} {phase : Recovery} {signal : Signal}
    (h : (resume s attempt phase signal).2.isOk = true) :
    s.Armed (resume s attempt phase signal).1.state := by
  obtain ⟨outcome, hdone⟩ := Progress.eq_done_of_isOk h
  have heffect := (effect_resume s attempt phase signal).1
  rw [hdone] at heffect
  generalize (resume s attempt phase signal).1.state = state at heffect
  cases heffect with
  | refreshed => simp [Shared.Armed, SyncState.due?_recordSuccess]
  | rechecked report => simp [Shared.Armed, SyncState.due?_recordSuccess, SyncState.applyConflict]

theorem Recovery.armed_of_reloads {s : Shared} {attempt : UInt32} {phase : Recovery} {signal : Signal}
    (h : phase.reloads s signal = true) : s.Armed (resume s attempt phase signal).1.state := by
  cases phase with
  | reloading reload =>
    have harmed := Reload.armed_of_isOk h
    obtain ⟨⟨⟩, hdone⟩ := Progress.eq_done_of_isOk h
    have hstep : reload.resume s signal = ((reload.resume s signal).1, .done (.ok ())) :=
      Prod.ext rfl hdone
    have hresume : (resume s attempt (reloading reload) signal).1 = (reload.resume s signal).1 := by
      rw [resume, hstep]
      rfl
    rw [hresume]
    exact harmed
  | checking | rechecking | refreshing => cases h

namespace Controller

theorem reloadEnded_of_isOk {step : Shared × Reload.Step} (h : step.2.isOk = true) :
    reloadEnded step = step := by
  obtain ⟨⟨⟩, hdone⟩ := Progress.eq_done_of_isOk h
  have hstep : step = (step.1, .done (.ok ())) := Prod.ext rfl hdone
  rw [hstep]
  rfl

theorem armed_resume {c : Controller} {r : Running} {signal : Signal}
    (h : r.work.succeeds c.shared signal = true) :
    c.shared.Armed (c.resume r signal).1.state := by
  have hproceed : ∀ {φ ρ : Type} (point : φ → Work) (result : ρ → Result)
      (step : Shared × Progress φ ρ), c.shared.Armed step.1.state →
        c.shared.Armed (c.proceed r point result step).1.state := by
    intro φ ρ point result step harmed
    exact (state_proceed (·.reset.due?) (fun s a => by simp) ..).trans harmed
  fun_cases resume c r signal with
  | case1 signal id phase hw =>
    rw [hw] at h
    exact hproceed _ _ _ (Switch.armed_of_isOk h)
  | case2 signal phase hw =>
    rw [hw] at h
    rw [reloadEnded_of_isOk h]
    exact hproceed _ _ _ (Reload.armed_of_isOk h)
  | case3 signal attempt phase hw =>
    rw [hw] at h
    rcases Bool.or_eq_true_iff.mp h with hok | hreloads
    · exact hproceed _ _ _ (Recovery.armed_of_isOk hok)
    · exact hproceed _ _ _ (Recovery.armed_of_reloads hreloads)
  | _ => simp_all [Work.succeeds]

end Controller

namespace Turn

variable {timings : Timings} {t : Turn}

theorem due?_of_succeeds (h : t.succeeds = true) :
    t.after.state.reset.due? = some (pauseEnd t.now t.before.limits.2) := by
  obtain ⟨⟨r, signal⟩, hheard, hsucceeds⟩ := (Option.any_eq_true _ _).mp h
  rw [after, Controller.step_of_hears (Controller.hears_of_heard? hheard)]
  exact Controller.armed_resume hsucceeds

theorem exhausts_of_failure? {e : Error} (h : t.failure? = some e) : t.exhausts = false := by
  cases hx : t.exhausts with
  | false => rfl
  | true =>
    obtain ⟨he, -, -⟩ := exhausts_iff.mp hx
    simp [failure?, he, Controller.heard?] at h

theorem shows_of_failure? {e : Error} (h : t.failure? = some e) :
    t.after.snapshot.switchError = some e.message ∧ t.after.state.reset = .empty := by
  have hshows := shows (exhausts_of_failure? h)
  rwa [h] at hshows

/-- A timer that still waits after a turn without success is the one before, and no workflow has
failed. -/
theorem waits_before (h : t.succeeds = false) (hp : t.after.state.reset.isPending = true) :
    t.after.state.reset = t.before.state.reset ∧ t.failure? = none := by
  have hne : t.after.state.reset ≠ .empty := by
    intro hempty
    simp [hempty, TimerSlot.isPending, TimerSlot.empty] at hp
  refine ⟨?_, ?_⟩
  · cases t.tally with
    | kept _ _ hk => exact hk.2.resolve_right hne
    | entered _ _ _ hr => exact hr
    | succeeded _ _ hs => simp [h] at hs
    | cleared _ _ _ hr => exact absurd hr hne
  · cases hf : t.failure? with
    | none => rfl
    | some e => exact absurd (shows_of_failure? hf).2 hne

theorem due_le_of_clears (h : t.clears = true) {due : Nat} (hd : t.before.state.reset.due? = some due) :
    due ≤ t.now := by
  unfold clears at h
  split at h
  · simpa [hd] using h
  · cases h

def reports (t : Turn) : Bool := t.failure?.isSome || t.exhausts

end Turn

namespace Controller

variable {past : List Turn} {t : Turn}

/-- The timer that waits was armed by a success, and no workflow has failed or succeeded since. -/
def ResetPends (past : List Turn) (c : Controller) : Prop :=
  c.state.reset.isPending = true →
    Since (fun _ u => u.succeeds = true ∧ c.state.reset.due? = some (pauseEnd u.now c.limits.2))
      (fun u => u.succeeds = false ∧ u.failure? = none) past

theorem resetPends_turn (h : t.before.ResetPends past) : t.after.ResetPends (past ++ [t]) := by
  intro hp
  have hlimits : t.after.limits = t.before.limits := t.before.limits_step t.event
  rw [hlimits]
  cases hs : t.succeeds with
  | true => exact Since.last ⟨hs, t.due?_of_succeeds hs⟩
  | false =>
    obtain ⟨hreset, hfailure⟩ := Turn.waits_before hs hp
    rw [hreset] at hp ⊢
    exact (h hp).snoc ⟨hs, hfailure⟩

theorem resetPends_run (timings : Timings) (currentConfig : Option String) (es : List Event) :
    let c := initial timings currentConfig
    (c.run es).1.ResetPends (c.turns es) :=
  turns_induction (P := fun past c => c.ResetPends past) (fun hp => by cases hp)
    (fun _ _ h => resetPends_turn h) es

/-- In every run: a reset timer that waits was armed by a success since which no workflow has failed,
and it waits for the whole pause after that success; the attempts go down only when it acts, after
that pause. A workflow that fails shows its error and calls the timer off. A call of `recover` that is
turned away because the limit is reached shows its error too, and leaves the timer as it is. No other
event writes an error. -/
theorem reset_outlives_no_failure (timings : Timings) (currentConfig : Option String)
    (es : List Event) (e : Event) :
    let c := initial timings currentConfig
    let t : Turn := ⟨(c.run es).1, e⟩
    let pause := timings.attemptReset.toNat
    (t.before.state.reset.isPending = true →
      Since (fun _ u => u.succeeds = true ∧ t.before.state.reset.due? = some (pauseEnd u.now pause))
        (fun u => u.succeeds = false ∧ u.failure? = none) (c.turns es)) ∧
    (t.after.attempts < t.before.attempts →
      Since (fun _ u => u.succeeds = true ∧ pauseEnd u.now pause ≤ t.now)
        (fun u => u.succeeds = false ∧ u.failure? = none) (c.turns es)) ∧
    (∀ error, t.failure? = some error →
      t.after.snapshot.switchError = some error.message ∧ t.after.state.reset.isPending = false) ∧
    (t.exhausts = true → t.after.snapshot.switchError = some t.exhaustion.message ∧
      t.after.state.reset = t.before.state.reset) ∧
    (t.reports = false → t.after.snapshot.switchError = t.before.snapshot.switchError ∨
      t.after.snapshot.switchError = none) := by
  intro c t pause
  have hs : t.before.Sound timings := (sound_initial timings currentConfig).run es
  have hlimits : t.before.limits.2 = pause := congrArg Prod.snd (limits_run c es)
  have hpends : t.before.ResetPends (c.turns es) := resetPends_run timings currentConfig es
  rw [ResetPends, hlimits] at hpends
  refine ⟨hpends, ?_, ?_, ?_, ?_⟩
  · intro hlt
    have hclears := Turn.clears_of_attempts_lt hs hlt
    refine (hpends (Turn.isPending_of_clears hclears)).mono ?_
    rintro earlier u ⟨hu, hdue⟩
    exact ⟨hu, Turn.due_le_of_clears hclears hdue⟩
  · intro error hf
    obtain ⟨hshown, hreset⟩ := Turn.shows_of_failure? hf
    exact ⟨hshown, by rw [hreset]; rfl⟩
  · intro hx
    rw [Turn.after, Turn.step_of_exhausts hx]
    exact ⟨congrArg Snapshot.switchError (SyncState.snapshot_setError _ _),
      SyncState.reset_setError _ _⟩
  · intro hreports
    obtain ⟨hfailure, hx⟩ : t.failure? = none ∧ t.exhausts = false := by
      simpa [Turn.reports] using hreports
    have hshows := Turn.shows hx
    rwa [hfailure] at hshows

def smoothRecovery : List Event :=
  [.call .recover, .answer 0 0 (.status (.error .notConfigured)),
    .answer 0 0 (.list (.error .notConfigured)), .answer 0 1 (.proxies (.error .notConfigured)),
    .answer 0 2 (.config (.error .notConfigured)), .pass 29000]

/-- The timer waits although a call of `recover` that was too much has shown an error after the success
that armed it; one second later it clears the attempts. -/
theorem refusal_leaves_reset_pending :
    let c := initial strict (some "a")
    let es := smoothRecovery ++ [.call .recover]
    let refused := (c.run es).1
    let t : Turn := ⟨(refused.run [.pass 1000]).1, .wake .reset⟩
    ¬ (refused.state.reset.isPending = true →
        Since (fun _ u => u.succeeds = true) (fun u => u.reports = false) (c.turns es)) ∧
      t.after.attempts < t.before.attempts := by
  intro c es refused t
  refine ⟨?_, by decide +kernel⟩
  intro h
  have hpending : refused.state.reset.isPending = true := by decide +kernel
  have hsince := h hpending
  rw [turns_snoc] at hsince
  rcases hsince.of_snoc with hsucceeds | hquiet
  · revert hsucceeds
    decide +kernel
  · revert hquiet
    decide +kernel

end Controller
end CoreWarden
