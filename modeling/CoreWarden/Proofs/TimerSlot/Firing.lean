import CoreWarden.TimerSlot
import Mathlib.Data.List.Induction

/-!
When the action in a slot fires. The action that was put into the slot last waits until its time has come,
unless the slot is touched before; then it fires, once. A slot may as well be thought of as a handle of a
task that has a life of its own: tasks that are called off and tasks that are over make no difference, and
no task is alive but the one that waits.
-/
namespace CoreWarden.TimerSlot

open Time (longestPause pauseEnd le_pauseEnd pauseEnd_of_le)

variable {α : Type}

namespace Operation

def touches : Operation α → Bool
  | advance _ => false
  | _ => true

def label? : Operation α → Option α
  | replace label _ => some label
  | _ => none

end Operation

namespace Timeline

def waiting? (t : Timeline α) : Option (Alarm α) := t.slot.bind TimerSlot.waiting

/-- An action was put into the slot, for the time that was asked for then, and the slot has not been
touched since. -/
def Stands (ops : List (Operation α)) (alarm : Alarm α) : Prop :=
  ∃ before delay after, ops = before ++ .replace alarm.label delay :: after ∧ .drop ∉ before ∧
    (∀ op ∈ after, op.touches = false) ∧ alarm.due = pauseEnd (start.run before).1.now delay

/-- With an operation an action is in the slot, before anything fires. -/
def Arms (t : Timeline α) (op : Operation α) (alarm : Alarm α) : Prop :=
  (∃ delay, op = .replace alarm.label delay ∧ t.slot.isSome ∧ alarm.due = pauseEnd t.now delay) ∨
    op.touches = false ∧ t.waiting? = some alarm

variable {t : Timeline α} {ops : List (Operation α)} {op : Operation α} {alarm : Alarm α}

/-! ### One operation -/

theorem waiting?_apply (t : Timeline α) (op : Operation α) :
    (t.apply op).waiting? = some alarm ↔ t.Arms op alarm := by
  unfold Arms
  cases op with
  | replace label delay =>
    obtain ⟨now, slot⟩ := t
    obtain ⟨label', due⟩ := alarm
    cases slot <;> simp [waiting?, apply, replace, Operation.touches, eq_comm]
  | cancel | drop => cases hs : t.slot <;> simp [waiting?, apply, hs, cancel, empty, Operation.touches]
  | advance => simp [waiting?, apply, Operation.touches]

theorem settle_of_ahead (h : ∀ alarm, t.waiting? = some alarm → t.now < alarm.due) : t.settle = (t, []) := by
  obtain ⟨now, _ | ⟨_ | alarm⟩⟩ := t
  · rfl
  · rfl
  · have hlt : now < alarm.due := h alarm rfl
    simp [settle, expire, Nat.not_le.mpr hlt]

theorem settle_of_over (hw : t.waiting? = some alarm) (h : alarm.due ≤ t.now) :
    t.settle = ({ t with slot := some .empty }, [alarm]) := by
  obtain ⟨now, _ | ⟨_ | alarm⟩⟩ := t
  · cases hw
  · cases hw
  · cases hw
    simp [settle, expire, show alarm.due ≤ now from h]

theorem settle_cases (t : Timeline α) :
    (∃ alarm, t.waiting? = some alarm ∧ alarm.due ≤ t.now ∧
      t.settle = ({ t with slot := some .empty }, [alarm])) ∨
    (∀ alarm, t.waiting? = some alarm → t.now < alarm.due) ∧ t.settle = (t, []) := by
  by_cases hover : ∃ alarm, t.waiting? = some alarm ∧ alarm.due ≤ t.now
  · obtain ⟨alarm, hw, hle⟩ := hover
    exact .inl ⟨alarm, hw, hle, settle_of_over hw hle⟩
  · have hahead : ∀ alarm, t.waiting? = some alarm → t.now < alarm.due := fun alarm hw =>
      Nat.lt_of_not_le fun hle => hover ⟨alarm, hw, hle⟩
    exact .inr ⟨hahead, settle_of_ahead hahead⟩

@[simp] theorem now_settle (t : Timeline α) : t.settle.1.now = t.now := by
  unfold settle
  split <;> rfl

@[simp] theorem isSome_slot_settle (t : Timeline α) : t.settle.1.slot.isSome = t.slot.isSome := by
  unfold settle
  split <;> simp [*]

theorem waiting?_settle (t : Timeline α) :
    t.settle.1.waiting? = some alarm ↔ t.waiting? = some alarm ∧ t.now < alarm.due := by
  obtain ⟨a, hw, hle, hsettle⟩ | ⟨hahead, hsettle⟩ := t.settle_cases
  · rw [hsettle, hw]
    refine ⟨nofun, ?_⟩
    rintro ⟨heq, hlt⟩
    obtain rfl := Option.some.inj heq
    omega
  · rw [hsettle]
    exact ⟨fun hw => ⟨hw, hahead alarm hw⟩, And.left⟩

theorem mem_settle (t : Timeline α) :
    alarm ∈ t.settle.2 ↔ t.waiting? = some alarm ∧ alarm.due ≤ t.now := by
  obtain ⟨a, hw, hle, hsettle⟩ | ⟨hahead, hsettle⟩ := t.settle_cases
  · rw [hsettle, hw, List.mem_singleton, Option.some_inj]
    exact ⟨fun heq => ⟨heq.symm, heq ▸ hle⟩, fun h => h.1.symm⟩
  · rw [hsettle]
    exact ⟨nofun, fun ⟨hw, hle⟩ => absurd hle (Nat.not_le.mpr (hahead alarm hw))⟩

/-- What waits fires or goes on waiting. -/
theorem settle_append (t : Timeline α) : t.settle.2 ++ t.settle.1.waiting?.toList = t.waiting?.toList := by
  obtain ⟨a, hw, -, hsettle⟩ | ⟨-, hsettle⟩ := t.settle_cases
  · rw [hsettle, hw]
    rfl
  · rw [hsettle]
    rfl

theorem labels_apply (t : Timeline α) (op : Operation α) :
    ((t.apply op).waiting?.toList.map Alarm.label).Sublist
      (t.waiting?.toList.map Alarm.label ++ op.label?.toList) := by
  cases op with
  | replace label delay =>
    cases hs : t.slot <;> simp [waiting?, apply, hs, replace, Operation.label?]
  | cancel | drop => cases hs : t.slot <;> simp [waiting?, apply, hs, cancel, empty]
  | advance => exact List.sublist_append_left _ _

theorem now_step (t : Timeline α) (op : Operation α) : (t.step op).1.now = (t.apply op).now :=
  now_settle _

theorem now_le_step (t : Timeline α) (op : Operation α) : t.now ≤ (t.step op).1.now := by
  rw [now_step]
  cases op with
  | advance ms => exact le_pauseEnd _ _
  | _ => exact Nat.le_refl _

theorem waiting?_step (t : Timeline α) (op : Operation α) :
    (t.step op).1.waiting? = some alarm ↔ t.Arms op alarm ∧ (t.step op).1.now < alarm.due := by
  rw [step, waiting?_settle, waiting?_apply, now_settle]

theorem mem_step (t : Timeline α) (op : Operation α) :
    alarm ∈ (t.step op).2 ↔ t.Arms op alarm ∧ alarm.due ≤ (t.step op).1.now := by
  rw [step, mem_settle, waiting?_apply, now_settle]

theorem isSome_slot_step (t : Timeline α) (op : Operation α) :
    (t.step op).1.slot.isSome = true ↔ op ≠ .drop ∧ t.slot.isSome = true := by
  rw [step, isSome_slot_settle]
  cases op <;> simp [apply]

theorem step_advance (t : Timeline α) {ms : Nat} (h : ms ≤ longestPause) :
    t.step (.advance ms) = settle { t with now := t.now + ms } := by
  rw [step, apply, pauseEnd_of_le _ h]

/-- It does not matter in which pieces time passes. -/
theorem run_advance_add (t : Timeline α) {m n : Nat} (h : m + n ≤ longestPause) :
    t.run [.advance m, .advance n] = t.run [.advance (m + n)] := by
  simp only [run, step_advance _ (Nat.le_of_add_right_le h), step_advance _ (Nat.le_of_add_left_le h),
    step_advance t h, List.append_nil, now_settle]
  obtain ⟨a, hw, hle, hfirst⟩ | ⟨-, hfirst⟩ := settle_cases { t with now := t.now + m }
  · have hboth := settle_of_over (t := { t with now := t.now + (m + n) }) hw
      (Nat.le_trans hle (Nat.add_le_add_left (Nat.le_add_right m n) _))
    have hrest := settle_of_ahead (t := ⟨t.now + m + n, some (.empty : TimerSlot α)⟩) nofun
    rw [hfirst, hboth, hrest, Nat.add_assoc]
    rfl
  · rw [hfirst, Nat.add_assoc]
    rfl

/-! ### A course of operations -/

theorem run_cons (t : Timeline α) (op : Operation α) (ops : List (Operation α)) :
    t.run (op :: ops) = (((t.step op).1.run ops).1, (t.step op).2 ++ ((t.step op).1.run ops).2) := rfl

theorem run_snoc (t : Timeline α) (ops : List (Operation α)) (op : Operation α) :
    t.run (ops ++ [op]) =
      (((t.run ops).1.step op).1, (t.run ops).2 ++ ((t.run ops).1.step op).2) := by
  induction ops generalizing t with
  | nil => simp [run]
  | cons first ops ih => rw [List.cons_append, run_cons, ih, run_cons, List.append_assoc]

/-- What fires was in the slot or is put into it, and each action that is put into it fires once at the
most. -/
theorem labels_run (t : Timeline α) (ops : List (Operation α)) :
    ((t.run ops).2.map Alarm.label).Sublist
      (t.waiting?.toList.map Alarm.label ++ ops.filterMap Operation.label?) := by
  induction ops generalizing t with
  | nil => exact List.nil_sublist _
  | cons op ops ih =>
    have hsplit : (t.step op).2 ++ (t.step op).1.waiting?.toList = (t.apply op).waiting?.toList :=
      settle_append _
    have hlater := (List.Sublist.refl ((t.step op).2.map Alarm.label)).append (ih (t.step op).1)
    rw [← List.append_assoc, ← List.map_append, ← List.map_append, hsplit] at hlater
    have hputs : (op :: ops).filterMap Operation.label? =
        op.label?.toList ++ ops.filterMap Operation.label? := by cases op <;> rfl
    rw [run_cons, hputs, ← List.append_assoc]
    exact hlater.trans ((labels_apply t op).append (List.Sublist.refl _))

theorem isSome_slot_run (ops : List (Operation α)) :
    (start.run ops).1.slot.isSome = true ↔ .drop ∉ ops := by
  induction ops using List.reverseRecOn with
  | nil => simp [run, start]
  | append_singleton ops op ih =>
    rw [run_snoc, isSome_slot_step, ih]
    simp [and_comm, eq_comm]

theorem stands_snoc : Stands (ops ++ [op]) alarm ↔
    (∃ delay, op = .replace alarm.label delay ∧ .drop ∉ ops ∧
      alarm.due = pauseEnd (start.run ops).1.now delay) ∨
    op.touches = false ∧ Stands ops alarm := by
  constructor
  · rintro ⟨before, delay, after, hsplit, halive, hquiet, hdue⟩
    rcases List.eq_nil_or_concat after with rfl | ⟨rest, last, rfl⟩
    · obtain ⟨rfl, hlast⟩ := List.append_inj' hsplit rfl
      exact .inl ⟨delay, List.head_eq_of_cons_eq hlast, halive, hdue⟩
    · have hsplit' : ops ++ [op] = (before ++ .replace alarm.label delay :: rest) ++ [last] := by
        simpa using hsplit
      obtain ⟨rfl, hlast⟩ := List.append_inj' hsplit' rfl
      obtain rfl : op = last := List.head_eq_of_cons_eq hlast
      exact .inr ⟨hquiet op (by simp), before, delay, rest, rfl, halive,
        fun o ho => hquiet o (by simp [ho]), hdue⟩
  · rintro (⟨delay, rfl, halive, hdue⟩ | ⟨hop, before, delay, after, rfl, halive, hquiet, hdue⟩)
    · exact ⟨ops, delay, [], rfl, halive, nofun, hdue⟩
    · refine ⟨before, delay, after ++ [op], by simp, halive, ?_, hdue⟩
      simpa [or_imp, forall_and, hop] using hquiet

/-- What waits is what stands in the slot, as long as its time is ahead. -/
theorem waiting?_run (ops : List (Operation α)) :
    (start.run ops).1.waiting? = some alarm ↔ Stands ops alarm ∧ (start.run ops).1.now < alarm.due := by
  induction ops using List.reverseRecOn with
  | nil =>
    refine ⟨nofun, ?_⟩
    rintro ⟨⟨before, delay, after, hsplit, -⟩, -⟩
    simp at hsplit
  | append_singleton ops op ih =>
    have hnow := now_le_step (start.run ops).1 op
    rw [run_snoc, waiting?_step, Arms, ih, isSome_slot_run, stands_snoc]
    constructor
    · rintro ⟨hput | ⟨hop, hstands, -⟩, hlt⟩
      · exact ⟨.inl hput, hlt⟩
      · exact ⟨.inr ⟨hop, hstands⟩, hlt⟩
    · rintro ⟨hput | ⟨hop, hstands⟩, hlt⟩
      · exact ⟨.inl hput, hlt⟩
      · exact ⟨.inr ⟨hop, hstands, Nat.lt_of_le_of_lt hnow hlt⟩, hlt⟩

/-- What fires in the course of an operation stands in the slot to the end, and its time comes then. -/
theorem mem_step_run (ops : List (Operation α)) (op : Operation α) :
    alarm ∈ ((start.run ops).1.step op).2 ↔ Stands (ops ++ [op]) alarm ∧
      (op.touches = true ∨ (start.run ops).1.now < alarm.due) ∧
      alarm.due ≤ ((start.run ops).1.step op).1.now := by
  rw [mem_step, Arms, waiting?_run, isSome_slot_run, stands_snoc]
  constructor
  · rintro ⟨⟨delay, rfl, hput⟩ | ⟨hop, hstands, hahead⟩, hle⟩
    · exact ⟨.inl ⟨delay, rfl, hput⟩, .inl rfl, hle⟩
    · exact ⟨.inr ⟨hop, hstands⟩, .inr hahead, hle⟩
  · rintro ⟨hput | ⟨hop, hstands⟩, htouches, hle⟩
    · exact ⟨.inl hput, hle⟩
    · have hahead := htouches.resolve_left (by simp [hop])
      exact ⟨.inr ⟨hop, hstands, hahead⟩, hle⟩

end Timeline

/-! ### Slots as handles of tasks -/

/-- Tasks that live by themselves, and a slot that holds a handle of one of them. -/
structure Tasks (α : Type) where
  now : Nat
  /-- The tasks, under their numbers, that have not fired and have not been called off. -/
  alive : List (Nat × Alarm α)
  /-- The number of the next task. -/
  next : Nat
  /-- The handle in the slot, until the slot is given up. It stays when its task is over. -/
  slot : Option (Option Nat)

namespace Tasks

def start : Tasks α := ⟨0, [], 0, some none⟩

/-- Calls off the task behind a handle; to call off a task that is over does nothing. -/
def abort (w : Tasks α) (handle : Option Nat) : Tasks α :=
  { w with alive := w.alive.filter (handle ≠ some ·.1) }

def spawn (w : Tasks α) (alarm : Alarm α) : Tasks α :=
  { w with alive := w.alive ++ [(w.next, alarm)], next := w.next + 1, slot := some (some w.next) }

def apply (w : Tasks α) : Operation α → Tasks α
  | .replace label delay =>
    if w.slot.isSome then (w.spawn ⟨label, pauseEnd w.now delay⟩).abort w.slot.join else w
  | .cancel => { w.abort w.slot.join with slot := w.slot.map fun _ => none }
  | .drop => { w.abort w.slot.join with slot := none }
  | .advance ms => { w with now := pauseEnd w.now ms }

def settle (w : Tasks α) : Tasks α × List (Nat × Alarm α) :=
  ({ w with alive := w.alive.filter (w.now < ·.2.due) }, w.alive.filter (·.2.due ≤ w.now))

def step (w : Tasks α) (op : Operation α) : Tasks α × List (Nat × Alarm α) := (w.apply op).settle

def run (w : Tasks α) : List (Operation α) → Tasks α × List (Nat × Alarm α)
  | [] => (w, [])
  | op :: ops => (((w.step op).1.run ops).1, (w.step op).2 ++ ((w.step op).1.run ops).2)

def pending? (w : Tasks α) : Option Bool :=
  w.slot.map fun handle => w.alive.any (handle = some ·.1)

/-- No task is alive but the one that waits in the slot. -/
inductive Mirrors : Timeline α → Tasks α → Prop
  | gone {now next} : Mirrors ⟨now, none⟩ ⟨now, [], next, none⟩
  /-- The handle may be the one of a task that is over. -/
  | calm {now next handle} (h : ∀ n, handle = some n → n < next) :
      Mirrors ⟨now, some .empty⟩ ⟨now, [], next, some handle⟩
  | waiting {now next n alarm} (h : n < next) :
      Mirrors ⟨now, some ⟨some alarm⟩⟩ ⟨now, [(n, alarm)], next, some (some n)⟩

variable {t : Timeline α} {w : Tasks α} {ops : List (Operation α)}

theorem mirrors_emptied (now next : Nat) :
    Mirrors (⟨now, some .empty⟩ : Timeline α) ⟨now, [], next, some none⟩ := .calm nofun

theorem mirrors_start : Mirrors (.start : Timeline α) start := mirrors_emptied 0 0

theorem Mirrors.apply (h : Mirrors t w) (op : Operation α) : Mirrors (t.apply op) (w.apply op) := by
  cases op with
  | advance ms =>
    cases h with
    | gone => exact .gone
    | calm h => exact .calm h
    | waiting h => exact .waiting h
  | replace label delay =>
    cases h with
    | gone => exact .gone
    | @calm now next handle h =>
      have hne : handle ≠ some next := fun heq => Nat.lt_irrefl _ (h next heq)
      simpa [Timeline.apply, replace, Tasks.apply, abort, spawn, hne] using .waiting (Nat.lt_succ_self _)
    | waiting h =>
      have hne := Nat.ne_of_lt h
      simpa [Timeline.apply, replace, Tasks.apply, abort, spawn, hne] using .waiting (Nat.lt_succ_self _)
  | cancel =>
    cases h with
    | gone => exact .gone
    | calm | waiting => simpa [Timeline.apply, cancel, Tasks.apply, abort] using mirrors_emptied _ _
  | drop =>
    cases h with
    | gone | calm | waiting => simpa [Timeline.apply, Tasks.apply, abort] using .gone

theorem Mirrors.settle (h : Mirrors t w) :
    Mirrors t.settle.1 w.settle.1 ∧ w.settle.2.map Prod.snd = t.settle.2 := by
  cases h with
  | gone => exact ⟨.gone, rfl⟩
  | calm h => exact ⟨.calm h, rfl⟩
  | @waiting now next n alarm h =>
    by_cases hover : alarm.due ≤ now
    · have hcalm : Mirrors (⟨now, some .empty⟩ : Timeline α) ⟨now, [], next, some (some n)⟩ :=
        .calm fun m hm => Option.some.inj hm ▸ h
      simpa [Timeline.settle, expire, Tasks.settle, hover] using hcalm
    · simpa [Timeline.settle, expire, Tasks.settle, hover, Nat.lt_of_not_le hover] using .waiting h

theorem Mirrors.run (h : Mirrors t w) (ops : List (Operation α)) :
    Mirrors (t.run ops).1 (w.run ops).1 ∧ (w.run ops).2.map Prod.snd = (t.run ops).2 := by
  induction ops generalizing t w with
  | nil => exact ⟨h, rfl⟩
  | cons op ops ih =>
    obtain ⟨hstep, hfired⟩ := (h.apply op).settle
    obtain ⟨hrun, hlater⟩ := ih hstep
    refine ⟨hrun, ?_⟩
    rw [Tasks.run, Timeline.run_cons, List.map_append]
    exact congrArg₂ _ hfired hlater

theorem Mirrors.pending? (h : Mirrors t w) : w.pending? = t.pending? := by
  cases h with
  | gone | calm => rfl
  | waiting => simp [Tasks.pending?, Timeline.pending?, isPending]

theorem Mirrors.alive_eq (h : Mirrors t w) : w.alive.map Prod.snd = t.waiting?.toList := by
  cases h <;> rfl

end Tasks

theorem pending?_eq_some_true_iff (t : Timeline α) :
    t.pending? = some true ↔ ∃ alarm, t.waiting? = some alarm := by
  obtain ⟨now, _ | ⟨_ | alarm⟩⟩ := t <;> simp [Timeline.pending?, Timeline.waiting?, isPending]

theorem pending?_eq_none_iff (t : Timeline α) : t.pending? = none ↔ t.slot.isSome = false := by
  simp [Timeline.pending?]

/-- In every course of operations an action fires in the operation in whose course its time comes, if it was
put into the slot, for this time, and the slot was not touched since; nothing else fires, and no action
twice. An action waits as long as this time is ahead, and then the slot is pending. Thought of as tasks, no
other one is alive. In which pieces time passes makes no difference. -/
theorem fires_once_on_time (ops : List (Operation α)) :
    let (t, fired) := Timeline.start.run ops
    let (w, tasks) := Tasks.start.run ops
    (∀ op alarm, alarm ∈ (t.step op).2 ↔
      Timeline.Stands (ops ++ [op]) alarm ∧ (op.touches = true ∨ t.now < alarm.due) ∧
        alarm.due ≤ (t.step op).1.now) ∧
    (fired.map Alarm.label).Sublist (ops.filterMap Operation.label?) ∧
    (∀ alarm, t.waiting? = some alarm ↔ Timeline.Stands ops alarm ∧ t.now < alarm.due) ∧
    ((t.pending? = none ↔ .drop ∈ ops) ∧
      (t.pending? = some true ↔ ∃ alarm, Timeline.Stands ops alarm ∧ t.now < alarm.due)) ∧
    (w.alive.map Prod.snd = t.waiting?.toList ∧ w.pending? = t.pending? ∧ tasks.map Prod.snd = fired) ∧
    ∀ m n, m + n ≤ longestPause → t.run [.advance m, .advance n] = t.run [.advance (m + n)] := by
  have hstart : Tasks.Mirrors (.start : Timeline α) .start := Tasks.mirrors_start
  obtain ⟨hmirrors, htasks⟩ := hstart.run ops
  refine ⟨fun op alarm => Timeline.mem_step_run ops op, Timeline.labels_run .start ops,
    fun alarm => Timeline.waiting?_run ops, ⟨?_, ?_⟩, ⟨hmirrors.alive_eq, hmirrors.pending?, htasks⟩,
    fun m n h => Timeline.run_advance_add _ h⟩
  · rw [pending?_eq_none_iff, ← Bool.not_eq_true, Timeline.isSome_slot_run, not_not]
  · rw [pending?_eq_some_true_iff]
    exact exists_congr fun alarm => Timeline.waiting?_run ops

def almostDue : List (Operation String) :=
  [.replace "a" 10, .advance 4, .replace "b" 10, .advance 9]

/-- The second action fires in the last moment, and the first one never does. -/
theorem fires_once_on_time_almostDue :
    let t := (Timeline.start.run almostDue).1
    t.pending? = some true ∧ (⟨"b", 14⟩ : Alarm String) ∈ (t.step (.advance 1)).2 ∧
      (⟨"a", 10⟩ : Alarm String) ∉ (t.step (.advance 1)).2 ∧
      t.run [.advance 1, .advance 2] = t.run [.advance 3] := by
  obtain ⟨hfires, -, -, ⟨-, hpending⟩, -, hpieces⟩ := fires_once_on_time almostDue
  have hput : Timeline.Stands almostDue ⟨"b", 14⟩ :=
    ⟨[.replace "a" 10, .advance 4], 10, [.advance 9], rfl, by simp, by simp [Operation.touches], by decide⟩
  have hstands : Timeline.Stands (almostDue ++ [.advance 1]) ⟨"b", 14⟩ :=
    Timeline.stands_snoc.mpr (.inr ⟨rfl, hput⟩)
  refine ⟨hpending.mpr ⟨_, hput, by decide⟩, (hfires _ _).mpr ⟨hstands, .inr (by decide), by decide⟩, ?_,
    hpieces 1 2 (by decide)⟩
  intro hmem
  obtain ⟨-, htouches | hahead, -⟩ := (hfires _ _).mp hmem
  · cases htouches
  · exact absurd hahead (by decide)

/-- A pause that is asked to be longer than all others ends early, and the action fires then. -/
theorem overlong_action_fires_early :
    let t := ((Timeline.start.run [.replace "a" 1000000000000]).1.step (.advance longestPause))
    t.2 = [⟨"a", longestPause⟩] ∧ t.1.pending? = some false ∧ t.1.now < 0 + 1000000000000 :=
  ⟨rfl, rfl, by decide⟩

end CoreWarden.TimerSlot
