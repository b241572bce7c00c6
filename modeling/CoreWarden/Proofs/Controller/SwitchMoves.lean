import CoreWarden.Proofs.Controller.HealthWait
import CoreWarden.Proofs.Controller.Refetch

/-!
The moves of a switch: what each answer of the kind that it waits for, and each moment, makes of it. Every
move brings its end closer.
-/
namespace CoreWarden

open Time (pauseEnd)

namespace Switch

inductive Moves (s : Shared) (id : String) : Switch → List Note → Step → Prop
  | conflict {report} (h : (ConflictReport.ofStatus report).hasConflict = true) :
      Moves s id .checking [.answered s.now .status (.status report)]
        (.waiting .restarting [(0, .restart)])
  | calm {report} (h : (ConflictReport.ofStatus report).hasConflict = false) :
      Moves s id .checking [.answered s.now .status (.status report)]
        (.waiting .switching [(0, .switch id)])
  | restarted {result} : Moves s id .restarting [.answered s.now .restart (.restart result)]
      (.waiting (.resolving (pauseEnd s.now s.timings.conflictResolutionWait.toNat)) [])
  | resolved {wake} (h : wake ≤ s.now) :
      Moves s id (.resolving wake) [] (.waiting .rechecking [(0, .status)])
  | rechecked {report} : Moves s id .rechecking [.answered s.now .status (.status report)]
      (.waiting .switching [(0, .switch id)])
  | consented : Moves s id .switching [.answered s.now (.switch id) (.switch (.ok ()))]
      (.waiting (.pausing (pauseEnd s.now s.timings.switchGrace.toNat)) [])
  | rejected {e} : Moves s id .switching [.answered s.now (.switch id) (.switch (.error e))]
      (.waiting (.reporting e) [(0, .status)])
  | paused {wake} (h : wake ≤ s.now) :
      Moves s id (.pausing wake) [] (probed s id (Probe.start s.pace s.now)).2
  | probed {probe notes progress} (h : probe.Moves s notes progress) :
      Moves s id (.probing probe) notes (probed s id progress).2
  | confirmed {report} : Moves s id .confirming [.answered s.now .status (.status report)]
      (.waiting (.storing (ConflictReport.ofStatus report).hasConflict) [(0, .store id)])
  | stored {remaining result} :
      Moves s id (.storing remaining) [.answered s.now (.store id) (.store result)]
        (.waiting (.refreshing remaining s.startRefresh.1) s.startRefresh.1.asks)
  | fetched {remaining refresh refresh' slot request answer t}
      (h : refresh.asks.Perm ((slot, request) :: refresh'.asks)) :
      Moves s id (.refreshing remaining refresh) [.answered s.now request answer]
        (refreshed t id remaining refresh').2
  | reported {e report} :
      Moves s id (.reporting e) [.answered s.now .status (.status report)] (.done (.error e))

variable {id : String} {s s' : Shared} {phase phase' : Switch} {signal : Signal} {notes : List Note}

theorem moves_of_awaited
    (h : Signal.Awaited s.now (phase.awaits id) phase.due? signal notes) :
    Moves s id phase notes (phase.resume s id signal).2 := by
  cases phase with
  | checking =>
    obtain ⟨answer, rfl, rfl, hsuits⟩ := h.of_single
    cases answer with
    | status report =>
      simp only [Switch.resume]
      split
      · next hc => exact .conflict hc
      · next hc => exact .calm (Bool.eq_false_iff.mpr hc)
    | _ => cases hsuits
  | restarting =>
    obtain ⟨answer, rfl, rfl, hsuits⟩ := h.of_single
    cases answer with
    | restart result => exact .restarted
    | _ => cases hsuits
  | resolving wake =>
    obtain ⟨rfl, rfl, hn⟩ := h.of_due
    exact .resolved hn
  | rechecking =>
    obtain ⟨answer, rfl, rfl, hsuits⟩ := h.of_single
    cases answer with
    | status report => exact .rechecked
    | _ => cases hsuits
  | switching =>
    obtain ⟨answer, rfl, rfl, hsuits⟩ := h.of_single
    cases answer with
    | switch result =>
      cases result with
      | ok => exact .consented
      | error e => exact .rejected
    | _ => cases hsuits
  | pausing wake =>
    obtain ⟨rfl, rfl, hn⟩ := h.of_due
    exact .paused hn
  | probing probe => exact .probed (Probe.moves_of_awaited h)
  | confirming =>
    obtain ⟨answer, rfl, rfl, hsuits⟩ := h.of_single
    cases answer with
    | status report => exact .confirmed
    | _ => cases hsuits
  | storing remaining =>
    obtain ⟨answer, rfl, rfl, hsuits⟩ := h.of_single
    cases answer with
    | store result => exact .stored
    | _ => cases hsuits
  | refreshing remaining refresh =>
    obtain ⟨slot, request, answer, refresh', t, hresume, rfl, hperm⟩ := Refresh.settles_of_awaited h
    simp only [Switch.resume, hresume]
    exact .fetched hperm
  | reporting e =>
    obtain ⟨answer, rfl, rfl, hsuits⟩ := h.of_single
    cases answer with
    | status report => exact .reported
    | _ => cases hsuits

/-! ### How much is left of a switch -/

/-- A bound on the signals that a switch can take yet. -/
def patience (timings : Timings) (now : Nat) : Switch → Nat
  | checking => 2 * timings.healthProbeMaxWait.toNat + 12
  | restarting => 2 * timings.healthProbeMaxWait.toNat + 11
  | resolving _ => 2 * timings.healthProbeMaxWait.toNat + 10
  | rechecking => 2 * timings.healthProbeMaxWait.toNat + 9
  | switching => 2 * timings.healthProbeMaxWait.toNat + 8
  | pausing _ => 2 * timings.healthProbeMaxWait.toNat + 7
  | probing probe => probe.patience timings now + 5
  | confirming => 5
  | storing _ => 4
  | refreshing _ refresh => refresh.asks.length
  | reporting _ => 1

variable {asks : List (Nat × Request)}

theorem patience_anti (timings : Timings) (phase : Switch) {now now' : Nat} (h : now ≤ now') :
    phase.patience timings now' ≤ phase.patience timings now := by
  cases phase with
  | probing probe => exact Nat.add_le_add_right (probe.patience_anti timings h) 5
  | _ => exact Nat.le_refl _

theorem patience_of_probed {progress : Progress Probe (Except Error Unit)} {bound : Nat} (hb : 0 < bound)
    (hp : ∀ probe asks, progress = .waiting probe asks → probe.patience s.timings s.now < bound)
    (h : (probed s id progress).2 = .waiting phase asks) :
    phase.patience s.timings s.now < bound + 5 := by
  revert h
  fun_cases probed s id progress <;> intro h <;> cases h
  · exact Nat.add_lt_add_right (hp _ _ rfl) 5
  all_goals
    simp only [patience]
    omega

theorem Moves.patience_lt (h : Moves s id phase notes (.waiting phase' asks))
    (hi : 0 < s.timings.healthProbeInterval.toNat) :
    phase'.patience s.timings s.now < phase.patience s.timings s.now := by
  generalize hstep : Progress.waiting phase' asks = step at h
  cases h with
  | paused =>
    have hless : phase'.patience s.timings s.now < 2 * s.timings.healthProbeMaxWait.toNat + 2 + 5 :=
      patience_of_probed (Nat.succ_pos _)
        (fun _ _ hwait => Nat.lt_succ_of_le (Nat.le_of_eq (Probe.patience_of_start hwait))) hstep.symm
    exact hless
  | probed hm =>
    refine patience_of_probed (Probe.patience_pos _ _ _) (fun probe' asks hwait => ?_) hstep.symm
    rw [hwait] at hm
    exact hm.patience_lt hi
  | fetched hperm =>
    have hlength := hperm.length_eq
    unfold refreshed at hstep
    split at hstep <;> cases hstep
    simp [patience, hlength]
  | stored =>
    cases hstep
    exact Nat.lt_succ_self 3
  | reported => cases hstep
  | _ =>
    cases hstep
    simp [patience]

end Switch

end CoreWarden
