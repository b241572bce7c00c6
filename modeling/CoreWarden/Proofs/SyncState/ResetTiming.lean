import CoreWarden.Proofs.Controller.Limits
import Mathlib.Data.List.Induction

/-!
When the attempts are cleared. A success arms the reset; another success, a failure or the end takes its
place, and nothing else touches it. So the attempts are cleared when the pause after a success is over
that still stands, and the reset is pending until then.
-/
namespace CoreWarden.SyncState

open Time (longestPause pauseEnd le_pauseEnd)

namespace Operation

/-- Whether an operation arms the reset or calls it off. -/
def touchesReset : Operation → Bool
  | recordSuccess | recordFailure _ | recordSwitchFailure .. | shutdown => true
  | _ => false

/-- The attempts that an operation itself leaves. -/
def attempts (n : UInt32) : Operation → UInt32
  | resetAttempts => 0
  | incrementAttempts => n + 1
  | _ => n

/-- Only to reset the attempts lowers them, unless there are as many as can be counted. -/
theorem cases_of_attempts_lt {op : Operation} {n : UInt32} (h : op.attempts n < n) :
    op = .resetAttempts ∨ op = .incrementAttempts ∧ n.toNat = 0xFFFFFFFF := by
  cases op with
  | resetAttempts => exact .inl rfl
  | incrementAttempts =>
    refine .inr ⟨rfl, ?_⟩
    rw [attempts, UInt32.lt_iff_toNat_lt, UInt32.toNat_add] at h
    have hlt := n.toNat_lt
    have hone : (1 : UInt32).toNat = 1 := rfl
    omega
  | _ => exact absurd h (UInt32.lt_irrefl n)

end Operation

theorem expire_of_not_due {s : SyncState} {now : Nat} (h : ∀ due, s.reset.due? = some due → now < due) :
    s.expire now = s := by
  unfold expire TimerSlot.expire
  cases hw : s.reset.waiting with
  | none => rfl
  | some alarm =>
    have hlt : now < alarm.due := h alarm.due (by rw [TimerSlot.due?, hw]; rfl)
    simp [Nat.not_le.mpr hlt]

namespace Timeline

/-- A success was recorded at the time `s`, and nothing has touched the reset since. -/
def Stands (t : Timeline) (ops : List Operation) (s : Nat) : Prop :=
  ∃ before after, ops = before ++ .recordSuccess :: after ∧ (t.run before).now = s ∧
    ∀ op ∈ after, op.touchesReset = false

/-- In the course of an operation the pause ends that follows a success, and the success stands. -/
structure Elapses (t : Timeline) (ops : List Operation) (op : Operation) (s : Nat) : Prop where
  stands : t.Stands (ops ++ [op]) s
  ahead : op = .recordSuccess ∨ (t.run ops).now < pauseEnd s t.state.attemptReset
  passed : pauseEnd s t.state.attemptReset ≤ (t.run (ops ++ [op])).now

/-- With an operation the reset is armed for the time `due`, before anything fires. -/
def Arms (t : Timeline) (op : Operation) (due : Nat) : Prop :=
  op = .recordSuccess ∧ due = pauseEnd t.now t.state.attemptReset ∨
    op.touchesReset = false ∧ t.state.reset.due? = some due

variable {t : Timeline} {ops : List Operation} {op : Operation} {s due : Nat}

theorem run_snoc (t : Timeline) (ops : List Operation) (op : Operation) :
    t.run (ops ++ [op]) = (t.run ops).step op :=
  List.foldl_append

/-! ### One operation -/

theorem reset_apply (t : Timeline) (h : op.touchesReset = false) :
    (t.apply op).state.reset = t.state.reset := by
  cases op with
  | enter target =>
    rw [state_apply_enter]
    split <;> rfl
  | recordSuccess | recordFailure | recordSwitchFailure | shutdown => cases h
  | _ => simp [apply]

theorem attempts_apply (t : Timeline) (op : Operation) :
    (t.apply op).state.snapshot.recoveryAttempts = op.attempts t.state.snapshot.recoveryAttempts := by
  cases op with
  | enter target =>
    rw [state_apply_enter]
    split <;> rfl
  | _ => simp [apply, Operation.attempts]

theorem limits_apply (t : Timeline) (op : Operation) : (t.apply op).state.limits = t.state.limits := by
  cases op with
  | enter target =>
    rw [state_apply_enter]
    split <;> rfl
  | resetAttempts =>
    simp only [apply, resetAttempts]
    split <;> rfl
  | leave | setError | recordFailure | adopt => simp [apply]
  | _ => rfl

theorem due?_apply (t : Timeline) (op : Operation) :
    (t.apply op).state.reset.due? = some due ↔ t.Arms op due := by
  unfold Arms
  cases htouches : op.touchesReset with
  | false =>
    have hne : op ≠ .recordSuccess := by
      rintro rfl
      cases htouches
    simp [reset_apply t htouches, hne]
  | true =>
    cases op with
    | recordSuccess =>
      change some (pauseEnd t.now t.state.attemptReset) = some due ↔ _
      simp [eq_comm]
    | recordFailure | recordSwitchFailure | shutdown => simp [apply, TimerSlot.due?, TimerSlot.empty]
    | _ => cases htouches

theorem now_le_step (t : Timeline) (op : Operation) : t.now ≤ (t.step op).now := by
  cases op with
  | advance ms => exact le_pauseEnd _ _
  | _ => exact Nat.le_refl _

theorem limits_step (t : Timeline) (op : Operation) : (t.step op).state.limits = t.state.limits :=
  (limits_expire _ _).trans (limits_apply _ op)

theorem state_step (t : Timeline) (op : Operation) :
    (t.step op).state = (({ t with wall := t.wall.later }.apply op).state.expire (t.step op).now) := rfl

theorem step_of_over (h : t.Arms op due) (hover : due ≤ (t.step op).now) :
    (t.step op).state.snapshot.recoveryAttempts = 0 ∧ (t.step op).state.reset = .empty := by
  have hdue := (due?_apply { t with wall := t.wall.later } op).mpr h
  rw [state_step]
  obtain ⟨hsnapshot, hreset⟩ := expire_of_due _ hdue hover
  exact ⟨by rw [hsnapshot], hreset⟩

theorem step_of_ahead (h : ∀ due, t.Arms op due → (t.step op).now < due) :
    (t.step op).state.snapshot.recoveryAttempts = op.attempts t.state.snapshot.recoveryAttempts ∧
      (t.step op).state.reset = ({ t with wall := t.wall.later }.apply op).state.reset := by
  have hahead := expire_of_not_due fun due hdue =>
    h due ((due?_apply { t with wall := t.wall.later } op).mp hdue)
  rw [state_step, hahead]
  exact ⟨attempts_apply _ op, rfl⟩

theorem due?_step (t : Timeline) (op : Operation) :
    (t.step op).state.reset.due? = some due ↔ t.Arms op due ∧ (t.step op).now < due := by
  by_cases hover : ∃ d, t.Arms op d ∧ d ≤ (t.step op).now
  · obtain ⟨d, harms, hle⟩ := hover
    have hsame : t.Arms op due → due = d := fun h => by
      have hdue := (due?_apply { t with wall := t.wall.later } op).mpr h
      rw [(due?_apply { t with wall := t.wall.later } op).mpr harms] at hdue
      exact (Option.some.inj hdue).symm
    rw [(step_of_over harms hle).2]
    refine ⟨nofun, fun ⟨h, hlt⟩ => ?_⟩
    have heq := hsame h
    omega
  · have hahead : ∀ d, t.Arms op d → (t.step op).now < d := fun d h =>
      Nat.lt_of_not_le fun hle => hover ⟨d, h, hle⟩
    rw [(step_of_ahead hahead).2, due?_apply]
    exact ⟨fun h => ⟨h, hahead due h⟩, And.left⟩

/-! ### A course of operations -/

theorem stands_snoc : t.Stands (ops ++ [op]) s ↔
    op = .recordSuccess ∧ s = (t.run ops).now ∨ op.touchesReset = false ∧ t.Stands ops s := by
  constructor
  · rintro ⟨before, after, hsplit, hs, hquiet⟩
    rcases List.eq_nil_or_concat after with rfl | ⟨rest, last, rfl⟩
    · obtain ⟨rfl, hlast⟩ := List.append_inj' hsplit rfl
      exact .inl ⟨List.head_eq_of_cons_eq hlast, hs.symm⟩
    · have hsplit' : ops ++ [op] = (before ++ .recordSuccess :: rest) ++ [last] := by simpa using hsplit
      obtain ⟨rfl, hlast⟩ := List.append_inj' hsplit' rfl
      obtain rfl : op = last := List.head_eq_of_cons_eq hlast
      exact .inr ⟨hquiet op (by simp), before, rest, rfl, hs, fun o ho => hquiet o (by simp [ho])⟩
  · rintro (⟨rfl, rfl⟩ | ⟨hop, before, after, rfl, hs, hquiet⟩)
    · exact ⟨ops, [], rfl, rfl, nofun⟩
    · refine ⟨before, after ++ [op], by simp, hs, ?_⟩
      simpa [or_imp, forall_and, hop] using hquiet

theorem attemptReset_run (t : Timeline) (ops : List Operation) :
    (t.run ops).state.attemptReset = t.state.attemptReset := by
  induction ops using List.reverseRecOn with
  | nil => rfl
  | append_singleton ops op ih => rw [run_snoc, ← ih]; exact congrArg Prod.snd (limits_step _ op)

/-- The reset is armed for the end of the pause after the success that stands. -/
theorem due?_run (hempty : t.state.reset = .empty) (ops : List Operation) :
    (t.run ops).state.reset.due? = some due ↔
      ∃ s, t.Stands ops s ∧ due = pauseEnd s t.state.attemptReset ∧ (t.run ops).now < due := by
  induction ops using List.reverseRecOn generalizing due with
  | nil =>
    have hstart : (t.run []).state.reset = .empty := hempty
    rw [hstart]
    refine ⟨nofun, ?_⟩
    rintro ⟨s, ⟨before, after, hsplit, -⟩, -⟩
    simp at hsplit
  | append_singleton ops op ih =>
    have hnow := now_le_step (t.run ops) op
    rw [run_snoc, due?_step, Arms, ih, attemptReset_run]
    constructor
    · rintro ⟨⟨hop, hdue⟩ | ⟨hop, s, hstands, hdue, -⟩, hlt⟩
      · exact ⟨_, stands_snoc.mpr (.inl ⟨hop, rfl⟩), hdue, hlt⟩
      · exact ⟨s, stands_snoc.mpr (.inr ⟨hop, hstands⟩), hdue, hlt⟩
    · rintro ⟨s, hstands, hdue, hlt⟩
      refine ⟨?_, hlt⟩
      rcases stands_snoc.mp hstands with ⟨hop, rfl⟩ | ⟨hop, hstands⟩
      · exact .inl ⟨hop, hdue⟩
      · exact .inr ⟨hop, s, hstands, hdue, Nat.lt_of_le_of_lt hnow hlt⟩

theorem exists_elapses_iff (hempty : t.state.reset = .empty) (ops : List Operation) (op : Operation) :
    (∃ s, t.Elapses ops op s) ↔
      ∃ due, (t.run ops).Arms op due ∧ due ≤ ((t.run ops).step op).now := by
  rw [← run_snoc]
  simp only [Arms, due?_run hempty, attemptReset_run]
  constructor
  · rintro ⟨s, hstands, hahead, hover⟩
    refine ⟨_, ?_, hover⟩
    rcases stands_snoc.mp hstands with ⟨hop, rfl⟩ | ⟨hop, hstands⟩
    · exact .inl ⟨hop, rfl⟩
    · rcases hahead with rfl | hlt
      · cases hop
      · exact .inr ⟨hop, s, hstands, rfl, hlt⟩
  · rintro ⟨due, ⟨hop, rfl⟩ | ⟨hop, s, hstands, rfl, hlt⟩, hover⟩
    · exact ⟨_, stands_snoc.mpr (.inl ⟨hop, rfl⟩), .inl hop, hover⟩
    · exact ⟨s, stands_snoc.mpr (.inr ⟨hop, hstands⟩), .inr hlt, hover⟩

end Timeline

/-- In every course of operations the reset is pending exactly if a success stands and the pause after it
is not over yet. When it is over there are no attempts. Apart from that, only to reset them lowers the
attempts, as long as they can be counted; and only a success, a failure and the end touch the reset. -/
theorem attempts_fall_on_schedule (timings : Timings) (currentConfig : Option String)
    (ops : List Operation) :
    let start := Timeline.start timings currentConfig
    let t := start.run ops
    (t.state.resetPending = true ↔
      ∃ s, start.Stands ops s ∧ t.now < pauseEnd s timings.attemptReset.toNat) ∧
    ∀ op, let t' := t.step op
      ((∃ s, start.Elapses ops op s) → t'.state.snapshot.recoveryAttempts = 0) ∧
      (t'.state.snapshot.recoveryAttempts < t.state.snapshot.recoveryAttempts →
        op = .resetAttempts ∨
        op = .incrementAttempts ∧ t.state.snapshot.recoveryAttempts.toNat = 0xFFFFFFFF ∨
        t'.state.snapshot.recoveryAttempts = 0 ∧ ∃ s, start.Elapses ops op s) ∧
      (op.touchesReset = false →
        t'.state.reset = t.state.reset ∨ t'.state.reset = .empty ∧ ∃ s, start.Elapses ops op s) := by
  intro start t
  have hempty : start.state.reset = .empty := rfl
  constructor
  · have hpending : t.state.resetPending = true ↔ ∃ due, t.state.reset.due? = some due := by
      simp [resetPending, TimerSlot.isPending, TimerSlot.due?, Option.isSome_iff_exists]
    rw [hpending]
    constructor
    · rintro ⟨due, hdue⟩
      obtain ⟨s, hstands, rfl, hlt⟩ := (Timeline.due?_run hempty ops).mp hdue
      exact ⟨s, hstands, hlt⟩
    · rintro ⟨s, hstands, hlt⟩
      exact ⟨_, (Timeline.due?_run hempty ops).mpr ⟨s, hstands, rfl, hlt⟩⟩
  · intro op t'
    by_cases helapses : ∃ s, start.Elapses ops op s
    · obtain ⟨due, harms, hover⟩ := (Timeline.exists_elapses_iff hempty ops op).mp helapses
      obtain ⟨hattempts, hreset⟩ := Timeline.step_of_over harms hover
      exact ⟨fun _ => hattempts, fun _ => .inr (.inr ⟨hattempts, helapses⟩),
        fun _ => .inr ⟨hreset, helapses⟩⟩
    · have hahead : ∀ due, t.Arms op due → t'.now < due := fun due harms =>
        Nat.lt_of_not_le fun hover =>
          helapses ((Timeline.exists_elapses_iff hempty ops op).mpr ⟨due, harms, hover⟩)
      obtain ⟨hattempts, hreset⟩ := Timeline.step_of_ahead hahead
      refine ⟨fun h => absurd h helapses, fun hlt => ?_, fun htouches => .inl ?_⟩
      · rw [hattempts] at hlt
        exact (Operation.cases_of_attempts_lt hlt).imp_right .inl
      · rw [hreset, Timeline.reset_apply _ htouches]

/-- One attempt, and a success a moment before the attempts are cleared. -/
def almostCleared : List Operation := [.incrementAttempts, .recordSuccess, .setError none, .advance 29999]

/-- The last moment passes: the reset was pending until then, and the attempts are gone. -/
theorem attempts_fall_on_schedule_almostCleared :
    let start := Timeline.start .standard none
    (start.run almostCleared).state.resetPending = true ∧
      (start.run almostCleared).state.snapshot.recoveryAttempts = 1 ∧
      start.Elapses almostCleared (.advance 1) 0 ∧
      ((start.run almostCleared).step (.advance 1)).state.snapshot.recoveryAttempts = 0 := by
  dsimp only
  obtain ⟨hpending, hstep⟩ := attempts_fall_on_schedule .standard none almostCleared
  have hstands : (Timeline.start .standard none).Stands almostCleared 0 :=
    ⟨[.incrementAttempts], [.setError none, .advance 29999], rfl, rfl, by decide⟩
  have helapses : (Timeline.start .standard none).Elapses almostCleared (.advance 1) 0 :=
    ⟨Timeline.stands_snoc.mpr (.inr ⟨rfl, hstands⟩), .inr (by decide), by decide⟩
  exact ⟨hpending.mpr ⟨0, hstands, by decide⟩, by decide +kernel, helapses,
    (hstep (.advance 1)).1 ⟨0, helapses⟩⟩

theorem attempts_run_increments {t : Timeline} (hempty : t.state.reset = .empty) (n : Nat) :
    (t.run (List.replicate n .incrementAttempts)).state.snapshot.recoveryAttempts =
        t.state.snapshot.recoveryAttempts + UInt32.ofNat n ∧
      (t.run (List.replicate n .incrementAttempts)).state.reset = .empty := by
  induction n with
  | zero => exact ⟨(UInt32.add_zero _).symm, hempty⟩
  | succ n ih =>
    obtain ⟨hattempts, hreset⟩ := ih
    have hahead : ∀ due, (t.run (List.replicate n .incrementAttempts)).Arms .incrementAttempts due →
        ((t.run (List.replicate n .incrementAttempts)).step .incrementAttempts).now < due := by
      rintro due (⟨hop, -⟩ | ⟨-, hdue⟩)
      · cases hop
      · rw [hreset] at hdue
        cases hdue
    obtain ⟨hstep, hstep'⟩ := Timeline.step_of_ahead hahead
    rw [List.replicate_succ', Timeline.run_snoc, hstep, hstep', Timeline.reset_apply _ rfl]
    refine ⟨?_, hreset⟩
    rw [Operation.attempts, hattempts, UInt32.ofNat_add, UInt32.add_assoc]
    rfl

/-- A pause that is asked to be longer than all others ends early, and the attempts are cleared then. One
attempt more than can be counted is none. -/
theorem attempts_fall_otherwise :
    let patient : Timings := { Timings.standard with attemptReset := 1000000000000 }
    let start := Timeline.start patient none
    let ops : List Operation := [.incrementAttempts, .recordSuccess]
    let t := start.run ops
    let t' := t.step (.advance longestPause)
    let full := (Timeline.start .standard none).run (List.replicate 0xFFFFFFFF .incrementAttempts)
    (t.state.snapshot.recoveryAttempts = 1 ∧ t'.state.snapshot.recoveryAttempts = 0 ∧
      t'.state.resetPending = false ∧ start.Stands (ops ++ [.advance longestPause]) 0 ∧
      ∀ s, start.Stands (ops ++ [.advance longestPause]) s → t'.now < s + patient.attemptReset.toNat) ∧
    full.state.snapshot.recoveryAttempts = 0xFFFFFFFF ∧
      (full.step .incrementAttempts).state.snapshot.recoveryAttempts = 0 := by
  dsimp only
  have hrun := attempts_run_increments (t := .start .standard none) rfl
  have hfull := (hrun 0xFFFFFFFF).1
  have hnone := (hrun (0xFFFFFFFF + 1)).1
  rw [List.replicate_succ', Timeline.run_snoc] at hnone
  refine ⟨⟨by decide +kernel, by decide +kernel, by decide +kernel, ?_, fun s _ => ?_⟩, hfull, hnone⟩
  · exact ⟨[.incrementAttempts], [.advance longestPause], rfl, rfl, by decide⟩
  · exact Nat.lt_of_lt_of_le (by decide) (Nat.le_add_left 1000000000000 s)

end CoreWarden.SyncState
