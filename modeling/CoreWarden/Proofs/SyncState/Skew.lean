import CoreWarden.Proofs.Controller.Limits

/-!
States that differ in the count of skipped ticks, and perhaps in the error shown. No operation reads
either of them, so a difference stays as it is; an error that is written anew is the same on both sides.
-/
namespace CoreWarden

open Time (Timestamp)

/-- The same snapshot with some more skipped ticks and with this error. -/
def Snapshot.skew (s : Snapshot) (extra : UInt64) (error : Option String) : Snapshot :=
  { s with skippedTicks := s.skippedTicks + extra, switchError := error }

namespace SyncState

structure Skewed (extra : UInt64) (told : Prop) (s s' : SyncState) : Prop where
  snapshot : ∃ error, s'.snapshot = s.snapshot.skew extra error ∧
    (told ∨ error = s.snapshot.switchError)
  reset : s'.reset = s.reset
  limits : s'.limits = s.limits

namespace Skewed

variable {extra : UInt64} {told : Prop} {s s' t t' : SyncState}

theorem refl (s : SyncState) : s.Skewed 0 told s where
  snapshot := ⟨s.snapshot.switchError, by simp [Snapshot.skew], .inr rfl⟩
  reset := rfl
  limits := rfl

theorem mono {told' : Prop} (h : s.Skewed extra told s') (himp : told → told') :
    s.Skewed extra told' s' where
  snapshot := by
    obtain ⟨error, hs, hsame⟩ := h.snapshot
    exact ⟨error, hs, hsame.imp_left himp⟩
  reset := h.reset
  limits := h.limits

theorem activity (h : s.Skewed extra told s') : s'.activity = s.activity := by
  obtain ⟨error, hs, -⟩ := h.snapshot
  rw [SyncState.activity, hs]
  rfl

theorem currentConfig (h : s.Skewed extra told s') :
    s'.snapshot.currentConfig = s.snapshot.currentConfig := by
  obtain ⟨error, hs, -⟩ := h.snapshot
  rw [hs]
  rfl

theorem recoveryAttempts (h : s.Skewed extra told s') :
    s'.snapshot.recoveryAttempts = s.snapshot.recoveryAttempts := by
  obtain ⟨error, hs, -⟩ := h.snapshot
  rw [hs]
  rfl

theorem historyLimit (h : s.Skewed extra told s') : s'.historyLimit = s.historyLimit :=
  congrArg Prod.fst h.limits

theorem attemptReset (h : s.Skewed extra told s') : s'.attemptReset = s.attemptReset :=
  congrArg Prod.snd h.limits

theorem change (h : s.Skewed extra told s') {f : Snapshot → Snapshot}
    (hf : ∀ p error, f (p.skew extra error) = (f p).skew extra error)
    (he : ∀ p, (f p).switchError = p.switchError) (hs : t.snapshot = f s.snapshot)
    (hs' : t'.snapshot = f s'.snapshot) (hr : t'.reset = t.reset) (hl : t.limits = s.limits)
    (hl' : t'.limits = s'.limits) : t.Skewed extra told t' where
  snapshot := by
    obtain ⟨error, hskew, hsame⟩ := h.snapshot
    refine ⟨error, by rw [hs', hskew, hf, hs], hsame.imp_right fun heq => ?_⟩
    rw [hs, he, heq]
  reset := hr
  limits := (hl'.trans h.limits).trans hl.symm

theorem write (h : s.Skewed extra told s') {f : Snapshot → Snapshot} {e : Option String}
    (hf : ∀ p error, f (p.skew extra error) = (f p).skew extra e)
    (he : ∀ p, (f p).switchError = e) (hs : t.snapshot = f s.snapshot)
    (hs' : t'.snapshot = f s'.snapshot) (hr : t'.reset = t.reset) (hl : t.limits = s.limits)
    (hl' : t'.limits = s'.limits) : t.Skewed extra told t' where
  snapshot := by
    obtain ⟨error, hskew, -⟩ := h.snapshot
    exact ⟨e, by rw [hs', hskew, hf, hs], .inr (by rw [hs, he])⟩
  reset := hr
  limits := (hl'.trans h.limits).trans hl.symm

theorem modify (h : s.Skewed extra told s') {f : Snapshot → Snapshot}
    (hf : ∀ p error, f (p.skew extra error) = (f p).skew extra error)
    (he : ∀ p, (f p).switchError = p.switchError) : (s.modify f).Skewed extra told (s'.modify f) :=
  h.change hf he rfl rfl h.reset rfl rfl

theorem setError (h : s.Skewed extra told s') (e : Option String) :
    (s.setError e).Skewed extra told (s'.setError e) :=
  h.write (f := fun p => { p with switchError := e }) (fun _ _ => rfl) (fun _ => rfl)
    (s.snapshot_setError e) (s'.snapshot_setError e) (by simp [h.reset]) (s.limits_setError e)
    (s'.limits_setError e)

theorem enter (h : s.Skewed extra told s') (target : Activity) :
    (∃ active, s.enter target = .error active ∧ s'.enter target = .error active) ∨
      ∃ t t', s.enter target = .ok t ∧ s'.enter target = .ok t' ∧ t.Skewed extra told t' := by
  by_cases hi : s.activity = .idle
  · have hi' : s'.activity = .idle := h.activity.trans hi
    exact .inr ⟨_, _, s.enter_of_idle target hi, s'.enter_of_idle target hi',
      h.modify (fun _ _ => rfl) (fun _ => rfl)⟩
  · have hi' : s'.activity ≠ .idle := fun hidle => hi (h.activity ▸ hidle)
    refine .inl ⟨s.activity, s.enter_of_ne_idle target hi, ?_⟩
    rw [s'.enter_of_ne_idle target hi', h.activity]

theorem leave (h : s.Skewed extra told s') (a : Activity) :
    (s.leave a).Skewed extra told (s'.leave a) := by
  unfold SyncState.leave
  rw [h.activity]
  split
  · exact h.modify (fun _ _ => rfl) (fun _ => rfl)
  · exact h

theorem foldl_leave (h : s.Skewed extra told s') (activities : List Activity) :
    (activities.foldl .leave s).Skewed extra told (activities.foldl .leave s') := by
  induction activities generalizing s s' with
  | nil => exact h
  | cons a activities ih => exact ih (h.leave a)

theorem recordFailure (h : s.Skewed extra told s') (e : String) :
    (s.recordFailure e).Skewed extra told (s'.recordFailure e) :=
  h.write (f := fun p => { p with switchError := some e }) (fun _ _ => rfl) (fun _ => rfl)
    (s.snapshot_recordFailure e) (s'.snapshot_recordFailure e) (by simp) (s.limits_recordFailure e)
    (s'.limits_recordFailure e)

theorem recordSuccess (h : s.Skewed extra told s') (now : Nat) (wall : Timestamp) :
    (s.recordSuccess now wall).Skewed extra told (s'.recordSuccess now wall) :=
  h.change (f := fun p => { p with lastSuccess := some wall }) (fun _ _ => rfl) (fun _ => rfl) rfl rfl
    (by simp [SyncState.recordSuccess, SyncState.modify, TimerSlot.replace, h.attemptReset]) rfl rfl

theorem incrementAttempts (h : s.Skewed extra told s') :
    s.incrementAttempts.Skewed extra told s'.incrementAttempts :=
  h.modify (fun _ _ => rfl) (fun _ => rfl)

theorem applyConflict (h : s.Skewed extra told s') (report : ConflictReport) :
    (s.applyConflict report).Skewed extra told (s'.applyConflict report) :=
  h.modify (fun _ _ => rfl) (fun _ => rfl)

theorem commitSwitch (h : s.Skewed extra told s') (id : String) (wall : Timestamp) :
    (s.commitSwitch id wall).Skewed extra told (s'.commitSwitch id wall) := by
  unfold SyncState.commitSwitch
  rw [h.historyLimit]
  exact h.modify (fun _ _ => rfl) (fun _ => rfl)

theorem recordSwitchFailure (h : s.Skewed extra told s') (id e : String) (wall : Timestamp) :
    (s.recordSwitchFailure id e wall).Skewed extra told (s'.recordSwitchFailure id e wall) := by
  refine h.write (f := fun p => { p with switchError := some e }.pushHistory ⟨id, wall, false⟩
    s.historyLimit) (fun _ _ => rfl) (fun _ => rfl) rfl ?_ rfl rfl rfl
  rw [snapshot_recordSwitchFailure, h.historyLimit]

theorem adopt (h : s.Skewed extra told s') (id : String) :
    (s.adopt id).Skewed extra told (s'.adopt id) :=
  h.change (f := fun p => { p with currentConfig := some id }) (fun _ _ => rfl) (fun _ => rfl)
    (s.snapshot_adopt id) (s'.snapshot_adopt id) (by simp [h.reset]) (s.limits_adopt id)
    (s'.limits_adopt id)

theorem recordReconcile (h : s.Skewed extra told s') (wall : Timestamp) :
    (s.recordReconcile wall).Skewed extra told (s'.recordReconcile wall) :=
  h.modify (fun _ _ => rfl) (fun _ => rfl)

theorem recordSkippedTick (h : s.Skewed extra told s') :
    s.recordSkippedTick.Skewed extra told s'.recordSkippedTick :=
  h.modify (fun p _ => by simp [Snapshot.skew, UInt64.add_assoc, UInt64.add_comm extra]) (fun _ => rfl)

theorem shutdown (h : s.Skewed extra told s') : s.shutdown.Skewed extra told s'.shutdown where
  snapshot := h.snapshot
  reset := rfl
  limits := h.limits

theorem resetAttempts (h : s.Skewed extra told s') :
    s.resetAttempts.Skewed extra told s'.resetAttempts := by
  refine h.change (f := fun p => { p with recoveryAttempts := 0 }) (fun _ _ => rfl)
    (fun _ => rfl) (snapshot_resetAttempts _) (snapshot_resetAttempts _) (by simp [h.reset]) ?_ ?_
  · unfold SyncState.resetAttempts
    split <;> rfl
  · unfold SyncState.resetAttempts
    split <;> rfl

theorem expire (h : s.Skewed extra told s') (now : Nat) :
    (s.expire now).Skewed extra told (s'.expire now) := by
  unfold SyncState.expire
  rw [h.reset]
  split
  · next reset _ =>
    have hreset : { s with reset }.Skewed extra told { s' with reset } := ⟨h.snapshot, rfl, h.limits⟩
    exact hreset.resetAttempts
  · exact ⟨h.snapshot, rfl, h.limits⟩

/-- No operation tells the two states apart. -/
theorem operate (h : s.Skewed extra told s') (now : Nat) (wall : Timestamp) (op : Operation) :
    ((Timeline.mk now wall s).apply op).state.Skewed extra told
      ((Timeline.mk now wall s').apply op).state := by
  cases op with
  | enter target =>
    rcases h.enter target with ⟨active, hs, hs'⟩ | ⟨t, t', hs, hs', ht⟩
    · simp only [Timeline.apply, hs, hs']
      exact h
    · simp only [Timeline.apply, hs, hs']
      exact ht
  | leave activity => exact h.leave activity
  | setError error => exact h.setError error
  | recordFailure error => exact h.recordFailure error
  | recordSuccess => exact h.recordSuccess now wall
  | resetAttempts => exact h.resetAttempts
  | incrementAttempts => exact h.incrementAttempts
  | applyConflict report => exact h.applyConflict report
  | commitSwitch id => exact h.commitSwitch id wall
  | recordSwitchFailure id error => exact h.recordSwitchFailure id error wall
  | adopt id => exact h.adopt id
  | recordReconcile => exact h.recordReconcile wall
  | recordSkippedTick => exact h.recordSkippedTick
  | shutdown => exact h.shutdown
  | advance => exact h

end Skewed

theorem skewed_recordSkippedTick (s : SyncState) : s.Skewed 1 False s.recordSkippedTick where
  snapshot := ⟨s.snapshot.switchError, rfl, .inr rfl⟩
  reset := rfl
  limits := rfl

theorem skewed_setError (s : SyncState) (error : Option String) :
    s.Skewed 0 True (s.setError error) where
  snapshot := ⟨error, by simp [Snapshot.skew], .inl trivial⟩
  reset := by simp
  limits := s.limits_setError error

end SyncState

end CoreWarden
