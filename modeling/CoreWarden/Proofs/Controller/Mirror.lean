import CoreWarden.Proofs.Controller.Guise
import CoreWarden.Proofs.SyncState.Skew

/-!
Two controllers side by side that differ in nothing that their work depends on: the second one gives its
work other numbers, counts more skipped ticks, and may show another error. Whatever happens to both of
them, they do the same and stay so; `Mirrors.run` says it of whole runs.
-/
namespace CoreWarden

/-- States are alike of which the second one is skewed. -/
def Likeness.skewed (extra : UInt64) (told : Prop) : Likeness where
  Alike s s' := s.Skewed extra told s'
  polls := true
  activity h := h.activity
  currentConfig h := h.currentConfig
  recoveryAttempts h := h.recoveryAttempts
  reset h := h.reset
  operate h := h.operate
  expire h := h.expire

structure Renumbering (start : Nat) where
  number : Nat → Nat
  injective : Function.Injective number
  succ : ∀ n, start ≤ n → number (n + 1) = number n + 1

namespace Renumbering

variable {start : Nat}

def keep (start : Nat) : Renumbering start := ⟨id, Function.injective_id, fun _ _ => rfl⟩

def skip (start : Nat) : Renumbering start where
  number n := if n < start then n else n + 1
  injective m n h := by
    dsimp only at h
    split at h <;> split at h <;> omega
  succ n h := by
    rw [if_neg (by omega), if_neg (by omega)]

theorem skip_of_lt {n : Nat} (h : n < start) : (skip start).number n = n := if_pos h

@[simp] theorem skip_self (start : Nat) : (skip start).number start = start + 1 :=
  if_neg (Nat.lt_irrefl start)

variable (σ : Renumbering start)

def running (r : Running) : Running := { r with id := σ.number r.id }

def timer : Timer → Timer
  | .work id => .work (σ.number id)
  | timer => timer

def event : Event → Event
  | .abandon id => .abandon (σ.number id)
  | .answer id slot answer => .answer (σ.number id) slot answer
  | .wake timer => .wake (σ.timer timer)
  | event => event

def output : Output → Output
  | .ask id slot request => .ask (σ.number id) slot request
  | .ended id result => .ended (σ.number id) result

def controller (state : SyncState) (c : Controller) : Controller :=
  { c with
    shared := { c.shared with state }
    running := c.running.map σ.running
    nextId := σ.number c.nextId }

def guise : Guise where
  number := σ.number
  hides _ := false
  deafens _ := false

theorem plain_guise (n : Nat) : σ.guise.hides n = false := rfl

theorem faithful_guise {later : Nat} (h : start ≤ later) : σ.guise.Faithful later where
  injective _ _ heq := σ.injective heq
  shows _ _ := rfl
  tells _ _ := rfl
  succ n hn := σ.succ n (Nat.le_trans h hn)

theorem running_guise (r : Running) : σ.guise.running r = σ.running r := by
  obtain ⟨id, origin, work⟩ := r
  cases origin <;> simp [Guise.running, running, guise, Origin.deafen]

theorem event_guise (e : Event) : σ.guise.event e = σ.event e := by
  cases e with
  | wake timer => cases timer <;> rfl
  | call | abandon | start | shutdown | visibility | answer | pass => rfl

theorem filterMap_output?_guise (outputs : List Output) :
    outputs.filterMap σ.guise.output? = outputs.map σ.output := by
  rw [← List.filterMap_eq_map]
  refine List.filterMap_congr fun output _ => ?_
  cases output <;> rfl

theorem controller_guise (extra : UInt64) (told : Prop) (state : SyncState) (c : Controller) :
    σ.guise.controller (.skewed extra told) state c = σ.controller state c := by
  have hrunning : σ.guise.running = σ.running := funext σ.running_guise
  have hbackground : c.background.map (Likeness.skewed extra told).background = c.background := by
    cases c.background <;> rfl
  simp only [Guise.controller, Guise.filterMap_running? σ.plain_guise, hrunning, hbackground]
  rfl

end Renumbering

namespace Controller

variable {start : Nat} {σ : Renumbering start} {extra : UInt64} {told : Prop}

/-- The second controller is the first one with new numbers and a skewed state. -/
def Mirrors (σ : Renumbering start) (extra : UInt64) (told : Prop) (c d : Controller) : Prop :=
  start ≤ c.nextId ∧ ∃ state, c.state.Skewed extra told state ∧ d = σ.controller state c

/-- The second controller comes out as a mirror of the first one, and has done the same. -/
def Reflects (σ : Renumbering start) (extra : UInt64) (told : Prop)
    (out out' : Controller × List Output) : Prop :=
  Mirrors σ extra told out.1 out'.1 ∧ out'.2 = out.2.map σ.output

namespace Mirrors

variable {c d : Controller}

theorem fits (h : Mirrors σ extra told c d) : σ.guise.Fits (.skewed extra told) c d := by
  obtain ⟨hstart, state, hstate, rfl⟩ := h
  refine ⟨σ.faithful_guise hstart, fun _ _ hhidden => Bool.noConfusion hhidden, state, hstate, ?_⟩
  exact (σ.controller_guise extra told state c).symm

theorem of_fits (hstart : start ≤ c.nextId) (h : σ.guise.Fits (.skewed extra told) c d) :
    Mirrors σ extra told c d := by
  obtain ⟨-, -, state, hstate, rfl⟩ := h
  exact ⟨hstart, state, hstate, σ.controller_guise extra told state c⟩

theorem step (h : Mirrors σ extra told c d) (e : Event) :
    Reflects σ extra told (c.step e) (d.step (σ.event e)) := by
  have hstep := h.fits.step (Guise.shows_of_plain rfl σ.plain_guise e)
  rw [σ.event_guise] at hstep
  refine ⟨of_fits (Nat.le_trans h.1 (nextId_le_of_turn ⟨c, e⟩)) hstep.fits, ?_⟩
  rw [hstep.outputs, σ.filterMap_output?_guise]

theorem run (h : Mirrors σ extra told c d) (es : List Event) :
    Reflects σ extra told (c.run es) (d.run (es.map σ.event)) := by
  induction es generalizing c d with
  | nil => exact ⟨h, rfl⟩
  | cons e es ih =>
    obtain ⟨hstep, hout⟩ := h.step e
    obtain ⟨hrun, hrest⟩ := ih hstep
    refine ⟨hrun, ?_⟩
    simp only [List.map_cons, Controller.run, List.map_append]
    rw [hout, hrest]

end Mirrors

end Controller
end CoreWarden
