import CoreWarden.Proofs.Controller.Running
import Mathlib.Data.List.Induction

/-!
Runs as lists of turns. What holds of a controller because of something that has happened before is
said of the turns so far; `turns_induction` carries it along a run.
-/
namespace CoreWarden

open Controller (Hears)

/-- An event, with the controller that meets it. -/
structure Turn where
  before : Controller
  event : Event

namespace Turn

def after (t : Turn) : Controller := (t.before.step t.event).1

def outputs (t : Turn) : List Output := (t.before.step t.event).2

def now (t : Turn) : Nat := t.before.now

def Asks (t : Turn) (id : Nat) (request : Request) : Prop := ∃ slot, .ask id slot request ∈ t.outputs

def Answers (t : Turn) (id : Nat) (request : Request) (answer : Answer) : Prop :=
  ∃ slot r, t.event = .answer id slot answer ∧ t.before.find? id = some r ∧
    (slot, request) ∈ r.work.awaits

/-- A switch commits: it ends with the news that the profile was switched. -/
def Commits (t : Turn) (r : Running) (id : String) : Prop :=
  ∃ phase signal s' conflictRemaining, r.work = .switch id phase ∧
    Hears t.before.later r t.event signal ∧
    phase.resume t.before.later.shared id signal = (s', .done (.ok (.switched id conflictRemaining)))

def Concludes (t : Turn) (r : Running) (profiles : Except Error ProfileList)
    (proxies : Except Error ProxySnapshot) : Prop :=
  ∃ tick signal, r.work = .reconcile tick ∧ Hears t.before.later r t.event signal ∧
    (tick.resume signal).results? = some (profiles, proxies)

end Turn

/-- Some turn is as `p` says, given the turns before it, and every turn after it as `q` says. -/
def Since (p : List Turn → Turn → Prop) (q : Turn → Prop) (past : List Turn) : Prop :=
  ∃ earlier t later, past = earlier ++ t :: later ∧ p earlier t ∧ ∀ u ∈ later, q u

namespace Since

variable {p : List Turn → Turn → Prop} {q : Turn → Prop} {past : List Turn} {t : Turn}

theorem last (h : p past t) : Since p q (past ++ [t]) := ⟨past, t, [], rfl, h, by simp⟩

theorem snoc (h : Since p q past) (ht : q t) : Since p q (past ++ [t]) := by
  obtain ⟨earlier, u, later, rfl, hp, hq⟩ := h
  refine ⟨earlier, u, later ++ [t], by simp, hp, ?_⟩
  intro v hv
  rcases List.mem_append.mp hv with hv | hv
  · exact hq v hv
  · obtain rfl := List.mem_singleton.mp hv
    exact ht

theorem mono {p' : List Turn → Turn → Prop} (h : Since p q past) (hp : ∀ l u, p l u → p' l u) :
    Since p' q past := by
  obtain ⟨earlier, u, later, rfl, h, hq⟩ := h
  exact ⟨earlier, u, later, rfl, hp _ _ h, hq⟩

end Since

namespace Controller

def turns (c : Controller) : List Event → List Turn
  | [] => []
  | e :: es => ⟨c, e⟩ :: (c.step e).1.turns es

theorem run_snoc (c : Controller) (es : List Event) (e : Event) :
    (c.run (es ++ [e])).1 = ((c.run es).1.step e).1 := by
  induction es generalizing c with
  | nil => rfl
  | cons e' es ih => exact ih (c.step e').1

theorem run_append (c : Controller) (es es' : List Event) :
    (c.run (es ++ es')).1 = ((c.run es).1.run es').1 := by
  induction es generalizing c with
  | nil => rfl
  | cons e es ih => exact ih (c.step e).1

theorem turns_snoc (c : Controller) (es : List Event) (e : Event) :
    c.turns (es ++ [e]) = c.turns es ++ [⟨(c.run es).1, e⟩] := by
  induction es generalizing c with
  | nil => rfl
  | cons e' es ih => exact congrArg (⟨c, e'⟩ :: ·) (ih (c.step e').1)

theorem turns_append (c : Controller) (es es' : List Event) :
    c.turns (es ++ es') = c.turns es ++ (c.run es).1.turns es' := by
  induction es generalizing c with
  | nil => rfl
  | cons e es ih => exact congrArg (⟨c, e⟩ :: ·) (ih (c.step e).1)

theorem turns_trans {c : Controller} {R : Controller → Controller → Prop} (hrefl : ∀ c, R c c)
    (htrans : ∀ {c c₁ c₂}, R c c₁ → R c₁ c₂ → R c c₂) {es : List Event}
    (h : ∀ t ∈ c.turns es, R t.before t.after) :
    R c (c.run es).1 ∧ ∀ t ∈ c.turns es, R c t.after := by
  induction es generalizing c with
  | nil => exact ⟨hrefl c, by simp [turns]⟩
  | cons e es ih =>
    obtain ⟨hfirst, hrest⟩ := List.forall_mem_cons.mp h
    obtain ⟨hend, hturns⟩ := ih hrest
    exact ⟨htrans hfirst hend, List.forall_mem_cons.mpr
      ⟨hfirst, fun t ht => htrans hfirst (hturns t ht)⟩⟩

/-- What has held so far, and is kept up by every turn of a kind, holds after a run of such turns. -/
theorem turns_induction_from {c : Controller} {P : List Turn → Controller → Prop} {q : Turn → Prop}
    {past : List Turn} (start : P past c)
    (turn : ∀ past (t : Turn), q t → P past t.before → P (past ++ [t]) t.after) {es : List Event}
    (h : ∀ t ∈ c.turns es, q t) : P (past ++ c.turns es) (c.run es).1 := by
  induction es generalizing c past with
  | nil => exact (List.append_nil past).symm ▸ start
  | cons e es ih =>
    obtain ⟨hfirst, hrest⟩ := List.forall_mem_cons.mp h
    have hnext := ih (turn past ⟨c, e⟩ hfirst start) hrest
    rw [List.append_assoc] at hnext
    exact hnext

theorem turns_induction_of {c : Controller} {P : List Turn → Controller → Prop} {q : Turn → Prop}
    (start : P [] c) (turn : ∀ past (t : Turn), q t → P past t.before → P (past ++ [t]) t.after)
    {es : List Event} (h : ∀ t ∈ c.turns es, q t) : P (c.turns es) (c.run es).1 :=
  turns_induction_from start turn h

/-- What holds at the start, and is kept up by every turn, holds all along a run. -/
theorem turns_induction {c : Controller} {P : List Turn → Controller → Prop} (start : P [] c)
    (turn : ∀ past (t : Turn), P past t.before → P (past ++ [t]) t.after) (es : List Event) :
    P (c.turns es) (c.run es).1 :=
  turns_induction_of (q := fun _ => True) start (fun past t _ => turn past t) fun _ _ => trivial

@[simp] theorem turns_event (c : Controller) (es : List Event) :
    (c.turns es).map Turn.event = es := by
  induction es generalizing c with
  | nil => rfl
  | cons e es ih => exact congrArg (e :: ·) (ih (c.step e).1)

theorem event_mem_of_turns {c : Controller} {es : List Event} {t : Turn} (h : t ∈ c.turns es) :
    t.event ∈ es := by
  have hmem := List.mem_map_of_mem (f := Turn.event) h
  rwa [turns_event] at hmem

/-- A turn of a run meets the controller that the events before it have led to. -/
theorem before_of_turns {c : Controller} {es : List Event} {past rest : List Turn} {t : Turn}
    (h : c.turns es = past ++ t :: rest) :
    ∃ es₁ es₂, past = c.turns es₁ ∧ t.before = (c.run es₁).1 ∧ rest = t.after.turns es₂ ∧
      (c.run es).1 = (t.after.run es₂).1 := by
  induction es generalizing c past with
  | nil => simp [turns] at h
  | cons e es ih =>
    cases past with
    | nil =>
      obtain ⟨rfl, rfl⟩ := List.cons.inj h
      exact ⟨[], es, rfl, rfl, rfl, rfl⟩
    | cons u past =>
      obtain ⟨rfl, htail⟩ := List.cons.inj h
      obtain ⟨es₁, es₂, rfl, hbefore, hrest, hrun⟩ := ih htail
      exact ⟨e :: es₁, es₂, rfl, hbefore, hrest, hrun⟩

/-! ### What a turn does to the work that goes on -/

theorem nextId_le_of_turn (t : Turn) : t.before.nextId ≤ t.after.nextId := by
  have hle := nextId_le_of_act (act_step t.before t.event)
  exact hle

theorem source_of_turn {timings : Timings} {t : Turn} (hs : t.before.Sound timings) {r : Running}
    (hr : r ∈ t.after.running) : Source t.before.later t.event r t.outputs :=
  source_of_act hs.later.toNumbered (act_step t.before t.event) hr

theorem fate_of_turn {timings : Timings} {t : Turn} (hs : t.before.Sound timings) {r : Running}
    (hr : r ∈ t.before.running) : Fate t.before.later t.event r t.after :=
  fate_of_act hs.later.toNumbered (act_step t.before t.event) hr

theorem Hears.due {c : Controller} {r : Running} {e : Event} (h : Hears c r e .timeUp) :
    ∃ due, r.work.due? = some due ∧ due ≤ c.now := by
  cases h with
  | timeUp hr hd hn => exact ⟨_, hd, hn⟩

theorem Hears.answers {t : Turn} {r : Running} {slot : Nat} {answer : Answer}
    (h : Hears t.before.later r t.event (.answer slot answer)) :
    ∃ request, (slot, request) ∈ r.work.awaits ∧ t.Answers r.id request answer := by
  generalize he : t.event = e at h
  cases h with
  | answer hr ha hc => exact ⟨_, ha, slot, r, he, hr, ha⟩

end Controller

theorem Turn.now_of_ne_pass {t : Turn} (h : ∀ ms, t.event ≠ .pass ms) : t.after.now = t.now := by
  obtain ⟨-, hnow | ⟨ms, hpass, -⟩⟩ := Controller.clock_of_act (Controller.act_step t.before t.event)
  · exact hnow
  · exact absurd hpass (h ms)

theorem Turn.now_of_hears {t : Turn} {r : Running} {signal : Signal}
    (h : Hears t.before.later r t.event signal) : t.after.now = t.now := by
  refine Turn.now_of_ne_pass fun ms hpass => ?_
  rw [hpass] at h
  cases h

end CoreWarden
