import CoreWarden.Time.Pause

/-!
A slot for one delayed action. A new action takes the place of the one that waits; an action fires
once, when its time has come, unless it was replaced or cancelled before.
-/
namespace CoreWarden

open Time (pauseEnd)

/-- An action that waits for its time. -/
structure Alarm (α : Type) where
  label : α
  due : Nat
  deriving DecidableEq

structure TimerSlot (α : Type) where
  waiting : Option (Alarm α)
  deriving DecidableEq

namespace TimerSlot

def empty : TimerSlot α := ⟨none⟩

instance : Inhabited (TimerSlot α) := ⟨empty⟩

/-- Puts an action into the slot that is due `delay` from `now`. -/
def replace (_ : TimerSlot α) (now delay : Nat) (label : α) : TimerSlot α :=
  ⟨some ⟨label, pauseEnd now delay⟩⟩

def cancel (_ : TimerSlot α) : TimerSlot α := empty

def isPending (s : TimerSlot α) : Bool := s.waiting.isSome

def due? (s : TimerSlot α) : Option Nat := s.waiting.map Alarm.due

def expire (s : TimerSlot α) (now : Nat) : Option (Alarm α) × TimerSlot α :=
  match s.waiting with
  | some alarm => if alarm.due ≤ now then (some alarm, empty) else (none, s)
  | none => (none, s)

@[simp] theorem isPending_replace (s : TimerSlot α) (now delay : Nat) (label : α) :
    (s.replace now delay label).isPending = true := rfl

@[simp] theorem isPending_cancel (s : TimerSlot α) : s.cancel.isPending = false := rfl

@[simp] theorem due?_replace (s : TimerSlot α) (now delay : Nat) (label : α) :
    (s.replace now delay label).due? = some (pauseEnd now delay) := rfl

/-! ### A slot through time -/

/-- What can be done with a slot; letting time pass, as long as a pause lasts, is one of these. -/
inductive Operation (α : Type) where
  | replace (label : α) (delay : Nat)
  | cancel
  /-- The slot itself is given up. -/
  | drop
  | advance (ms : Nat)

/-- A slot, until it is given up, and the time. -/
structure Timeline (α : Type) where
  now : Nat
  slot : Option (TimerSlot α)

namespace Timeline

def start : Timeline α := ⟨0, some empty⟩

def settle (t : Timeline α) : Timeline α × List (Alarm α) :=
  match t.slot with
  | some slot =>
    let (fired, slot) := slot.expire t.now
    (⟨t.now, some slot⟩, fired.toList)
  | none => (t, [])

def apply (t : Timeline α) : Operation α → Timeline α
  | .replace label delay => { t with slot := t.slot.map (·.replace t.now delay label) }
  | .cancel => { t with slot := t.slot.map cancel }
  | .drop => { t with slot := none }
  | .advance ms => { t with now := pauseEnd t.now ms }

/-- One operation, and what fires by the end of it. -/
def step (t : Timeline α) (op : Operation α) : Timeline α × List (Alarm α) := (t.apply op).settle

/-- Whether an action waits; there is no answer once the slot is given up. -/
def pending? (t : Timeline α) : Option Bool := t.slot.map isPending

def run (t : Timeline α) : List (Operation α) → Timeline α × List (Alarm α)
  | [] => (t, [])
  | op :: ops =>
    let (t, fired) := t.step op
    let (t, later) := t.run ops
    (t, fired ++ later)

end Timeline

end TimerSlot

end CoreWarden
