import CoreWarden.Controller.Shared
import CoreWarden.Proofs.SyncState.Operations

/-!
States that are alike in a way that no operation can tell, and what is shared over them: the same but for
such a state and for the interval at which conflicts are polled, which no workflow reads.
-/
namespace CoreWarden

open Time (Timestamp)

structure Likeness where
  Alike : SyncState → SyncState → Prop
  /-- Whether conflicts are polled on both sides, or on the first one alone. -/
  polls : Bool
  activity : ∀ {s s'}, Alike s s' → s'.activity = s.activity
  currentConfig : ∀ {s s'}, Alike s s' → s'.snapshot.currentConfig = s.snapshot.currentConfig
  recoveryAttempts : ∀ {s s'}, Alike s s' →
    s'.snapshot.recoveryAttempts = s.snapshot.recoveryAttempts
  reset : ∀ {s s'}, Alike s s' → s'.reset = s.reset
  operate : ∀ {s s'}, Alike s s' → ∀ now wall op,
    Alike ((SyncState.Timeline.mk now wall s).apply op).state
      ((SyncState.Timeline.mk now wall s').apply op).state
  expire : ∀ {s s'}, Alike s s' → ∀ now, Alike (s.expire now) (s'.expire now)

namespace Likeness

variable {L : Likeness} {s s' : SyncState}

theorem leave (h : L.Alike s s') (a : Activity) : L.Alike (s.leave a) (s'.leave a) :=
  L.operate h 0 .epoch (.leave a)

theorem foldl_leave (h : L.Alike s s') (activities : List Activity) :
    L.Alike (activities.foldl .leave s) (activities.foldl .leave s') := by
  induction activities generalizing s s' with
  | nil => exact h
  | cons a activities ih => exact ih (leave h a)

theorem setError (h : L.Alike s s') (e : Option String) : L.Alike (s.setError e) (s'.setError e) :=
  L.operate h 0 .epoch (.setError e)

theorem recordFailure (h : L.Alike s s') (e : String) :
    L.Alike (s.recordFailure e) (s'.recordFailure e) :=
  L.operate h 0 .epoch (.recordFailure e)

theorem recordSuccess (h : L.Alike s s') (now : Nat) (wall : Timestamp) :
    L.Alike (s.recordSuccess now wall) (s'.recordSuccess now wall) :=
  L.operate h now wall .recordSuccess

theorem incrementAttempts (h : L.Alike s s') : L.Alike s.incrementAttempts s'.incrementAttempts :=
  L.operate h 0 .epoch .incrementAttempts

theorem applyConflict (h : L.Alike s s') (report : ConflictReport) :
    L.Alike (s.applyConflict report) (s'.applyConflict report) :=
  L.operate h 0 .epoch (.applyConflict report)

theorem commitSwitch (h : L.Alike s s') (id : String) (wall : Timestamp) :
    L.Alike (s.commitSwitch id wall) (s'.commitSwitch id wall) :=
  L.operate h 0 wall (.commitSwitch id)

theorem recordSwitchFailure (h : L.Alike s s') (id e : String) (wall : Timestamp) :
    L.Alike (s.recordSwitchFailure id e wall) (s'.recordSwitchFailure id e wall) :=
  L.operate h 0 wall (.recordSwitchFailure id e)

theorem adopt (h : L.Alike s s') (id : String) : L.Alike (s.adopt id) (s'.adopt id) :=
  L.operate h 0 .epoch (.adopt id)

theorem recordReconcile (h : L.Alike s s') (wall : Timestamp) :
    L.Alike (s.recordReconcile wall) (s'.recordReconcile wall) :=
  L.operate h 0 wall .recordReconcile

theorem recordSkippedTick (h : L.Alike s s') : L.Alike s.recordSkippedTick s'.recordSkippedTick :=
  L.operate h 0 .epoch .recordSkippedTick

theorem shutdown (h : L.Alike s s') : L.Alike s.shutdown s'.shutdown :=
  L.operate h 0 .epoch .shutdown

theorem enter (h : L.Alike s s') (target : Activity) :
    (∃ active, s.enter target = .error active ∧ s'.enter target = .error active) ∨
      ∃ t t', s.enter target = .ok t ∧ s'.enter target = .ok t' ∧ L.Alike t t' := by
  have hentered := L.operate h 0 .epoch (.enter target)
  by_cases hi : s.activity = .idle
  · have hi' : s'.activity = .idle := (L.activity h).trans hi
    simp only [SyncState.Timeline.apply, s.enter_of_idle target hi, s'.enter_of_idle target hi'] at hentered
    exact .inr ⟨_, _, s.enter_of_idle target hi, s'.enter_of_idle target hi', hentered⟩
  · have hi' : s'.activity ≠ .idle := fun hidle => hi (L.activity h ▸ hidle)
    refine .inl ⟨s.activity, s.enter_of_ne_idle target hi, ?_⟩
    rw [s'.enter_of_ne_idle target hi', L.activity h]

theorem differs (h : L.Alike s s') : s'.differs = s.differs := by
  funext id
  rw [SyncState.differs, SyncState.differs, L.currentConfig h]

/-! ### What is shared -/

def timings (L : Likeness) (t : Timings) : Timings :=
  if L.polls then t else { t with conflictPollInterval := 0 }

/-- The interval of the polls is all that may differ. -/
theorem timings_eq (L : Likeness) (t : Timings) :
    ∃ poll, L.timings t = { t with conflictPollInterval := poll } := by
  unfold timings
  split
  · exact ⟨_, rfl⟩
  · exact ⟨_, rfl⟩

/-- What is shared on the second side is what is shared on the first one, but for a state that is alike. -/
def Matches (L : Likeness) (s s' : Shared) : Prop :=
  ∃ state, L.Alike s.state state ∧ s' = { s with timings := L.timings s.timings, state }

def InStep {α : Type} (L : Likeness) (out out' : Shared × α) : Prop :=
  L.Matches out.1 out'.1 ∧ out'.2 = out.2

namespace Matches

variable {s s' : Shared}

theorem state (h : L.Matches s s') : L.Alike s.state s'.state := by
  obtain ⟨state, hstate, rfl⟩ := h
  exact hstate

theorem pace (h : L.Matches s s') : s'.pace = s.pace := by
  obtain ⟨state, -, rfl⟩ := h
  obtain ⟨poll, hpoll⟩ := L.timings_eq s.timings
  simp only [Shared.pace, hpoll]

theorem withState (h : L.Matches s s') {t t' : SyncState} (ht : L.Alike t t') :
    L.Matches { s with state := t } { s' with state := t' } := by
  obtain ⟨state, -, rfl⟩ := h
  exact ⟨t', ht, rfl⟩

theorem withCache (h : L.Matches s s') (cache : Cache) :
    L.Matches { s with cache } { s' with cache } := by
  obtain ⟨state, hstate, rfl⟩ := h
  exact ⟨state, hstate, rfl⟩

theorem now (h : L.Matches s s') : s'.now = s.now := by
  obtain ⟨state, -, rfl⟩ := h
  rfl

theorem wall (h : L.Matches s s') : s'.wall = s.wall := by
  obtain ⟨state, -, rfl⟩ := h
  rfl

theorem cache (h : L.Matches s s') : s'.cache = s.cache := by
  obtain ⟨state, -, rfl⟩ := h
  rfl

end Matches

end Likeness

end CoreWarden
