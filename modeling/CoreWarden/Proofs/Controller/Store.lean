import CoreWarden.Proofs.Controller.SourceOfTruth

/-!
The profile store beside the controller. Nobody but the controller writes to it; what it holds and
what the controller takes for current agree, but for a switch that is about to commit, unless the last
note to the store went wrong.
-/
namespace CoreWarden

open Controller (Hears Source Fate)

/-! ### Who writes to the store -/

section

variable {slot : Nat} {id : String}

theorem Probe.store_notMem_awaits {probe : Probe} : (slot, Request.store id) ∉ probe.awaits := by
  cases probe <;> simp [awaits]

theorem Refresh.store_notMem_asks {refresh : Refresh} : (slot, Request.store id) ∉ refresh.asks := by
  intro h
  have hr := Refresh.isCommand_asks h
  cases hr

theorem Reload.store_notMem_awaits {phase : Reload} : (slot, Request.store id) ∉ phase.awaits := by
  cases phase with
  | probing probe => exact Probe.store_notMem_awaits
  | refreshing refresh => exact Refresh.store_notMem_asks
  | restarting | pausing => simp [awaits]

theorem Recovery.store_notMem_awaits {phase : Recovery} : (slot, Request.store id) ∉ phase.awaits := by
  cases phase with
  | reloading reload => exact Reload.store_notMem_awaits
  | refreshing refresh => exact Refresh.store_notMem_asks
  | checking | rechecking => simp [awaits]

theorem Switch.storing_of_mem_awaits {id' : String} {phase : Switch}
    (h : (slot, Request.store id) ∈ phase.awaits id') :
    id' = id ∧ ∃ remaining, phase = .storing remaining := by
  cases phase with
  | storing remaining =>
    obtain ⟨-, rfl⟩ : slot = 0 ∧ id = id' := by simpa [awaits] using h
    exact ⟨rfl, remaining, rfl⟩
  | probing probe => exact absurd h Probe.store_notMem_awaits
  | refreshing remaining refresh => exact absurd h Refresh.store_notMem_asks
  | _ => simp [awaits] at h

theorem Work.storing_of_mem_awaits {w : Work} (h : (slot, Request.store id) ∈ w.awaits) :
    ∃ remaining, w = .switch id (.storing remaining) := by
  cases w with
  | switch id' phase =>
    obtain ⟨rfl, remaining, rfl⟩ := Switch.storing_of_mem_awaits h
    exact ⟨remaining, rfl⟩
  | reload phase => exact absurd h Reload.store_notMem_awaits
  | recover attempt phase => exact absurd h Recovery.store_notMem_awaits
  | check => simp [awaits] at h
  | reconcile tick =>
    obtain ⟨profiles, proxies⟩ := tick
    cases profiles <;> cases proxies <;> simp [awaits, Tick.awaits] at h
  | refetch key => cases key <;> simp [awaits, CacheKey.request] at h
  | refresh refresh => exact absurd h Refresh.store_notMem_asks

end

namespace Work

/-- Whether a switch has begun to note its profile in the store. -/
def isNoting : Work → Bool
  | switch _ (.storing _) | switch _ (.refreshing ..) => true
  | _ => false

/-- What the store can hold while a piece of work goes on: the note is under way, or made. -/
def Permits (current held : Option String) : Work → Prop
  | switch id (.storing _) => held = current ∨ held = some id
  | switch id (.refreshing ..) => held = some id
  | _ => True

theorem permits_of_not_isNoting {w : Work} (h : w.isNoting = false) (current held : Option String) :
    w.Permits current held := by
  cases w with
  | switch id phase =>
    cases phase with
    | storing | refreshing => cases h
    | _ => trivial
  | _ => trivial

theorem permits_self (current : Option String) (id : String) (phase : Switch) :
    (switch id phase).Permits current (some id) := by
  cases phase with
  | storing => exact .inr rfl
  | refreshing => rfl
  | _ => trivial

theorem permits_still {current current' held : Option String} {id : String} {phase : Switch}
    (h : (switch id phase).Permits current held)
    (hc : current' = current ∨ ∃ remaining refresh, phase = .refreshing remaining refresh) :
    (switch id phase).Permits current' held := by
  rcases hc with rfl | ⟨remaining, refresh, rfl⟩ <;> exact h

theorem switch_of_isNoting {w : Work} (h : w.isNoting = true) :
    ∃ id phase, w = .switch id phase := by
  cases w with
  | switch id phase => exact ⟨id, phase, rfl⟩
  | _ => cases h

end Work

namespace Turn

/-- A note to the store is under way, before a turn or after it. -/
def Notes (t : Turn) (id : String) : Prop :=
  ∃ r, (r ∈ t.before.running ∨ r ∈ t.after.running) ∧ (0, .store id) ∈ r.work.awaits

/-- The store refuses a note, or a switch breaks down that has made one or was about to. -/
def Loosens (t : Turn) : Prop :=
  (∃ n id e, t.Answers n (.store id) (.store (.error e))) ∨
    ∃ r slot request, t.event = .answer r.id slot .collapsed ∧ t.before.find? r.id = some r ∧
      (slot, request) ∈ r.work.awaits ∧ r.work.isNoting = true

def Settles (t : Turn) : Prop :=
  (∃ n id, t.Answers n (.store id) (.store (.ok ()))) ∨
    ∃ r list proxies id, t.Concludes r (.ok list) (.ok proxies) ∧ list.current = some id

end Turn

/-- What a profile store does in a turn to which nobody but the controller writes. What it holds, by
the number of turns so far, is the same or what it is being told to hold; it is that once it has said
so; and a list tells what it has held at some moment since it was asked for. -/
structure StoreTurn (held : Nat → Option String) (past : List Turn) (t : Turn) : Prop where
  kept : held (past.length + 1) = held past.length ∨
    ∃ id, t.Notes id ∧ held (past.length + 1) = some id
  stored : ∀ n id, t.Answers n (.store id) (.store (.ok ())) → held (past.length + 1) = some id
  listed : ∀ n list, t.Answers n .list (.list (.ok list)) → ∃ k ≤ past.length,
    (∀ earlier u later, past = earlier ++ u :: later → u.Asks n .list → earlier.length < k) ∧
      list.current = held k

/-- A run beside which nobody but the controller writes to the store. -/
def StoreRun (held : Nat → Option String) (ts : List Turn) : Prop :=
  ∀ past t rest, ts = past ++ t :: rest → StoreTurn held past t

theorem StoreRun.left {held : Nat → Option String} {ts us : List Turn} (h : StoreRun held (ts ++ us)) :
    StoreRun held ts := by
  intro past t rest hsplit
  exact h past t (rest ++ us) (by simp [hsplit])

/-- The last that was heard of the store is not good: a note was refused or a switch broke down, and
since then the store has taken no note and no reconciliation has taken over what it says. -/
def Unsettled : List Turn → Prop := Since (fun _ u => u.Loosens) fun u => ¬ u.Settles

namespace Controller

/-- The store holds what is current, but for a switch that is noting its profile. -/
structure Agrees (held : Option String) (c : Controller) : Prop where
  permits : ∀ r ∈ c.running, r.work.Permits c.snapshot.currentConfig held
  held_eq : (∀ r ∈ c.running, r.work.isNoting = false) → held = c.snapshot.currentConfig

/-- What a reconciliation knows of the store: it has not changed since the list was asked for. -/
structure Follows (held : Nat → Option String) (past : List Turn) (r : Running) (tick : Tick) :
    Prop where
  listed : ∀ list, tick.profiles = some (.ok list) → list.current = held past.length
  asked : ∃ earlier u later, past = earlier ++ u :: later ∧ u.Asks r.id .list ∧
    ∀ k, earlier.length < k → k ≤ past.length → held k = held past.length

end Controller
end CoreWarden
