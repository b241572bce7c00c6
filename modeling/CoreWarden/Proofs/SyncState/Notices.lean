import CoreWarden.Proofs.SyncState.Operations

/-!
Notices of changes. Whatever changes the snapshot tells the observers, and what changes it only under a
condition tells them only then. So an observer that reads again whenever it was told is never left with an
old snapshot, however many changes there were in between.
-/
namespace CoreWarden.SyncState

open Time (Timestamp)

/-- Observers are told of a change, if there is one. -/
structure Tells (s s' : SyncState) : Prop where
  revision_le : s.revision ≤ s'.revision
  told : s'.snapshot ≠ s.snapshot → s.revision < s'.revision

/-- Observers are told of a change, and only of a change. -/
structure TellsExactly (s s' : SyncState) : Prop extends Tells s s' where
  changed : s.revision < s'.revision → s'.snapshot ≠ s.snapshot

/-- What an operation makes of a state at some time, and with some time on the wall. -/
def operate (s : SyncState) (now : Nat) (wall : Timestamp) (op : Operation) : SyncState :=
  ((Timeline.mk now wall s).apply op).state

/-- The operations that change the snapshot only under a condition. Nobody enters `idle`, so nobody has it
to leave. -/
inductive Operation.IsConditional : Operation → Prop
  | enter {target : Activity} (h : target ≠ .idle) : IsConditional (.enter target)
  | leave {activity : Activity} (h : activity ≠ .idle) : IsConditional (.leave activity)
  | setError {error : Option String} : IsConditional (.setError error)
  | resetAttempts : IsConditional .resetAttempts
  | adopt {configId : String} : IsConditional (.adopt configId)

variable {s s' : SyncState}

theorem Tells.of_lt (h : s.revision < s'.revision) : s.Tells s' := ⟨Nat.le_of_lt h, fun _ => h⟩

theorem tells_modify (s : SyncState) (f : Snapshot → Snapshot) : s.Tells (s.modify f) :=
  .of_lt (Nat.lt_succ_self _)

theorem tellsExactly_refl (s : SyncState) : s.TellsExactly s :=
  ⟨⟨Nat.le_refl _, fun h => absurd rfl h⟩, fun h => absurd h (Nat.lt_irrefl _)⟩

/-- Of the reset timer there is nothing to tell. -/
theorem TellsExactly.of_reset {reset : TimerSlot Unit} (h : TellsExactly { s with reset } s') :
    s.TellsExactly s' :=
  ⟨⟨h.revision_le, h.told⟩, h.changed⟩

/-! ### What changes under a condition -/

variable {c : Prop} [Decidable c] {f : Snapshot → Snapshot}

theorem tells_ite (s : SyncState) (f : Snapshot → Snapshot) : s.Tells (if c then s.modify f else s) := by
  split
  · exact tells_modify s f
  · exact (tellsExactly_refl s).toTells

theorem tellsExactly_ite (h : c → f s.snapshot ≠ s.snapshot) :
    s.TellsExactly (if c then s.modify f else s) := by
  split
  · next hc => exact ⟨tells_modify s f, fun _ => h hc⟩
  · exact tellsExactly_refl s

theorem withActivity_ne {a b : Activity} {p : Snapshot} (hp : p.activity = a) (h : b ≠ a) :
    p.withActivity b ≠ p :=
  fun heq => h ((congrArg Snapshot.activity heq).trans hp)

theorem tellsExactly_enter {target : Activity} (h : target ≠ .idle) (now : Nat) (wall : Timestamp) :
    s.TellsExactly (s.operate now wall (.enter target)) := by
  rw [operate, Timeline.state_apply_enter]
  exact tellsExactly_ite fun hidle => withActivity_ne hidle h

theorem tellsExactly_leave {a : Activity} (h : a ≠ .idle) : s.TellsExactly (s.leave a) :=
  tellsExactly_ite fun ha => withActivity_ne ha h.symm

theorem tellsExactly_setError (s : SyncState) (error : Option String) :
    s.TellsExactly (s.setError error) := by
  rw [setError, ← ite_not]
  exact tellsExactly_ite fun h heq => h (congrArg Snapshot.switchError heq).symm

theorem tellsExactly_resetAttempts (s : SyncState) : s.TellsExactly s.resetAttempts := by
  rw [resetAttempts, ← ite_not]
  exact tellsExactly_ite fun h heq => h (congrArg Snapshot.recoveryAttempts heq).symm

theorem tellsExactly_adopt (s : SyncState) (configId : String) : s.TellsExactly (s.adopt configId) := by
  refine tellsExactly_ite fun h heq => ?_
  have hne : s.snapshot.currentConfig ≠ some configId := by simpa [differs] using h
  exact hne (congrArg Snapshot.currentConfig heq).symm

theorem tellsExactly_operate {op : Operation} (h : op.IsConditional) (s : SyncState) (now : Nat)
    (wall : Timestamp) : s.TellsExactly (s.operate now wall op) := by
  cases h with
  | enter h => exact tellsExactly_enter h now wall
  | leave h => exact tellsExactly_leave h
  | setError => exact tellsExactly_setError s _
  | resetAttempts => exact tellsExactly_resetAttempts s
  | adopt => exact tellsExactly_adopt s _

theorem tellsExactly_expire (s : SyncState) (now : Nat) : s.TellsExactly (s.expire now) := by
  unfold expire
  split
  · exact (tellsExactly_resetAttempts _).of_reset
  · exact (tellsExactly_refl _).of_reset

/-! ### All operations -/

theorem tells_operate (s : SyncState) (now : Nat) (wall : Timestamp) (op : Operation) :
    s.Tells (s.operate now wall op) := by
  cases op with
  | enter target =>
    rw [operate, Timeline.state_apply_enter]
    exact tells_ite s _
  | leave activity => exact tells_ite s _
  | setError error => exact (tellsExactly_setError s error).toTells
  | recordFailure error => exact (tellsExactly_setError s.cancelReset (some error)).of_reset.toTells
  | resetAttempts => exact (tellsExactly_resetAttempts s).toTells
  | adopt id => exact (tellsExactly_adopt s id).toTells
  | recordSuccess | incrementAttempts | applyConflict | commitSwitch | recordSwitchFailure
    | recordReconcile | recordSkippedTick => exact .of_lt (Nat.lt_succ_self _)
  | shutdown => exact (tellsExactly_refl s.cancelReset).of_reset.toTells
  | advance => exact (tellsExactly_refl s).toTells

/-! ### Observers -/

/-- An observer with the snapshot that it has read last, and the notices there had been. -/
structure Observer where
  seen : Snapshot
  revision : Nat

namespace Observer

def read (s : SyncState) : Observer := ⟨s.snapshot, s.revision⟩

def look (o : Observer) (s : SyncState) : Observer := if o.revision = s.revision then o else read s

/-- As long as there is no notice, the observer has the snapshot that there is. -/
structure Current (o : Observer) (s : SyncState) : Prop where
  revision_le : o.revision ≤ s.revision
  seen_eq : o.revision = s.revision → o.seen = s.snapshot

variable {o : Observer}

theorem current_read (s : SyncState) : (read s).Current s := ⟨Nat.le_refl _, fun _ => rfl⟩

theorem Current.tells (h : o.Current s) (ht : s.Tells s') : o.Current s' where
  revision_le := Nat.le_trans h.revision_le ht.revision_le
  seen_eq heq := by
    have hsame : s'.revision = s.revision :=
      Nat.le_antisymm (Nat.le_trans (Nat.le_of_eq heq.symm) h.revision_le) ht.revision_le
    have hsnapshot : s'.snapshot = s.snapshot := Decidable.byContradiction fun hne =>
      Nat.ne_of_lt (ht.told hne) hsame.symm
    rw [hsnapshot, h.seen_eq (heq.trans hsame)]

theorem Current.look (h : o.Current s) : (o.look s).Current s := by
  unfold Observer.look
  split
  · exact h
  · exact current_read s

theorem Current.seen_look (h : o.Current s) : (o.look s).seen = s.snapshot := by
  unfold Observer.look
  split
  · next heq => exact h.seen_eq heq
  · rfl

end Observer

/-- Something that happens: an operation, the reset timer, or that the observer looks. -/
inductive Moment where
  | operate (now : Nat) (wall : Timestamp) (op : Operation)
  | fire (now : Nat)
  | look

def Moment.pass (w : SyncState × Observer) : Moment → SyncState × Observer
  | operate now wall op => (w.1.operate now wall op, w.2)
  | fire now => (w.1.expire now, w.2)
  | look => (w.1, w.2.look w.1)

/-- What becomes of a state and of the observer who has read it at the beginning. -/
def watch (s : SyncState) (moments : List Moment) : SyncState × Observer :=
  moments.foldl Moment.pass (s, .read s)

theorem current_pass {w : SyncState × Observer} (h : w.2.Current w.1) (m : Moment) :
    (m.pass w).2.Current (m.pass w).1 := by
  cases m with
  | operate now wall op => exact h.tells (tells_operate w.1 now wall op)
  | fire now => exact h.tells (tellsExactly_expire w.1 now).toTells
  | look => exact h.look

theorem current_watch (s : SyncState) (moments : List Moment) :
    (watch s moments).2.Current (watch s moments).1 := by
  suffices h : ∀ w : SyncState × Observer, w.2.Current w.1 →
      (moments.foldl Moment.pass w).2.Current (moments.foldl Moment.pass w).1 from
    h (s, .read s) (Observer.current_read s)
  induction moments with
  | nil => exact fun _ h => h
  | cons m moments ih => exact fun w h => ih _ (current_pass h m)

/-- Every operation, and the reset timer, tells of the change that it makes; those that make one only
under a condition tell of nothing else. An observer that looks now and then has the snapshot that there is
whenever it looks, and keeps it as long as there is no notice. -/
theorem changes_are_told (s : SyncState) :
    (∀ now wall op, s.Tells (s.operate now wall op)) ∧
    (∀ now wall op, op.IsConditional → s.TellsExactly (s.operate now wall op)) ∧
    (∀ now, s.TellsExactly (s.expire now)) ∧
    ∀ moments : List Moment,
      let (s', o) := watch s moments
      (o.look s').seen = s'.snapshot ∧ (o.revision = s'.revision → o.seen = s'.snapshot) :=
  ⟨tells_operate s, fun now wall _ h => tellsExactly_operate h s now wall, tellsExactly_expire s,
    fun moments => ⟨(current_watch s moments).seen_look, (current_watch s moments).seen_eq⟩⟩

/-- Two looks, with a switch begun before the first one, and ended before the second one with an error. -/
theorem changes_are_told_between_looks :
    let s := SyncState.initial .standard none
    let begun : List Moment := [.operate 0 .epoch (.enter .switching), .look]
    let ended := begun ++
      [.operate 5 .epoch (.leave .switching), .operate 5 .epoch (.setError (some "no core")), .look]
    Operation.IsConditional (.setError none) ∧
      (s.operate 0 .epoch (.setError none)).revision = s.revision ∧
      (watch s begun).2.seen = s.snapshot.withActivity .switching ∧
      (watch s ended).2.revision = (watch s ended).1.revision ∧
      (watch s ended).2.seen = { s.snapshot with switchError := some "no core" } := by
  dsimp only
  obtain ⟨-, hexact, -, hlooks⟩ := changes_are_told (.initial .standard none)
  refine ⟨.setError, ?_, ((hlooks _).2 rfl).trans rfl, rfl, ((hlooks _).2 rfl).trans rfl⟩
  have h := hexact 0 .epoch (.setError none) .setError
  exact Nat.le_antisymm (Nat.le_of_not_lt fun hlt => h.changed hlt rfl) h.revision_le

end CoreWarden.SyncState
