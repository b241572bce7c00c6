import CoreWarden.Proofs.Controller.InStep
import CoreWarden.Proofs.Controller.Turn

/-!
A controller and another one that shows it in a guise: over states that are alike, with some checks left
out, other numbers for the work that is shown, and some callers who do not hear of its end. The second
one takes the events that are shown as the first one does: `Guise.Fits.step`.
-/
namespace CoreWarden

/-- How the work of a controller is shown. -/
structure Guise where
  number : Nat → Nat
  /-- Work that is not shown. -/
  hides : Nat → Bool
  /-- Work whose end its caller does not hear of. -/
  deafens : Nat → Bool

/-- What is shown can be told apart, and all work from `start` on is shown, one number after the other. -/
structure Guise.Faithful (g : Guise) (start : Nat) : Prop where
  injective : ∀ {m n}, g.hides m = false → g.hides n = false → g.number m = g.number n → m = n
  shows : ∀ n, start ≤ n → g.hides n = false
  tells : ∀ n, start ≤ n → g.deafens n = false
  succ : ∀ n, start ≤ n → g.number (n + 1) = g.number n + 1

def Origin.deafen (deaf : Bool) : Origin → Origin
  | caller awaits => caller (awaits && !deaf)
  | origin => origin

theorem Origin.deafen_beq {origin : Origin} (h : ∀ awaits, origin ≠ caller awaits) (deaf : Bool)
    (o : Origin) : (o.deafen deaf == origin) = (o == origin) := by
  cases o with
  | caller awaits =>
    rw [deafen, beq_eq_false_iff_ne.mpr (h _).symm, beq_eq_false_iff_ne.mpr (h _).symm]
  | debounce | visibility | reconciler | poller => rfl

/-- The tickers of the second side. -/
def Likeness.background (L : Likeness) (b : Background) : Background :=
  if L.polls then b else { b with poller := none }

@[simp] theorem Likeness.background_reconciler (L : Likeness) (b : Background) :
    (L.background b).reconciler = b.reconciler := by
  unfold background
  split <;> rfl

theorem Likeness.background_withReconciler (L : Likeness) (b : Background) (ticker : Option Ticker) :
    { L.background b with reconciler := ticker } = L.background { b with reconciler := ticker } := by
  unfold background
  split <;> rfl

theorem Likeness.background_withoutPoller (L : Likeness) (b : Background) :
    { L.background b with poller := none } = L.background { b with poller := none } := by
  unfold background
  split <;> rfl

theorem Likeness.background_of_polls {L : Likeness} (h : L.polls = true) (b : Background) :
    L.background b = b := if_pos h

theorem Likeness.background_start (L : Likeness) (t : Timings) (now : Nat) :
    L.background {
      reconciler := Ticker.start? t.reconcileInterval.toNat (now + t.reconcileInterval.toNat)
      poller := Ticker.start? t.conflictPollInterval.toNat now } = {
      reconciler := Ticker.start? (L.timings t).reconcileInterval.toNat
        (now + (L.timings t).reconcileInterval.toNat)
      poller := Ticker.start? (L.timings t).conflictPollInterval.toNat now } := by
  unfold background timings
  split <;> rfl

namespace Controller

variable (c : Controller)

theorem span_le (ms : Nat) {due : Nat} (hd : due ∈ c.dues) : c.span ms ≤ due - c.now := by
  have hle : ∀ (dues : List Nat) (n : Nat),
      dues.foldl (fun n due => min n (due - c.now)) n ≤ n ∧
        ∀ due ∈ dues, dues.foldl (fun n due => min n (due - c.now)) n ≤ due - c.now := by
    intro dues
    induction dues with
    | nil => simp
    | cons first dues ih =>
      intro n
      obtain ⟨hn, hdues⟩ := ih (min n (first - c.now))
      rw [List.foldl_cons, List.forall_mem_cons]
      exact ⟨Nat.le_trans hn (Nat.min_le_left ..), Nat.le_trans hn (Nat.min_le_right ..), hdues⟩
  exact (hle c.dues ms).2 due hd

/-- No time passes while something is due, and otherwise none beyond the moment that it waits for. -/
theorem now_le_max_of_dues {t : Turn} {due : Nat} (hd : due ∈ t.before.later.dues) :
    t.after.now ≤ max t.now due := by
  obtain ⟨-, hnow | ⟨ms, -, hnow⟩⟩ := clock_of_act (act_step t.before t.event)
  · exact Nat.le_trans (Nat.le_of_eq hnow) (Nat.le_max_left ..)
  · have hspan := t.before.later.span_le ms hd
    have hsame : t.before.later.now = t.now := rfl
    change (t.before.step t.event).1.now ≤ _
    omega

theorem now_le_of_dues {t : Turn} {due : Nat} (hd : due ∈ t.before.later.dues) (hn : t.now ≤ due) :
    t.after.now ≤ due :=
  Nat.le_trans (now_le_max_of_dues hd) (Nat.max_le.mpr ⟨hn, Nat.le_refl _⟩)

theorem span_of_le {c : Controller} {ms : Nat} (h : ∀ due ∈ c.dues, ms ≤ due - c.now) :
    c.span ms = ms :=
  List.foldlRecOn (motive := (· = ms)) _ _ rfl fun n hn due hd => by
    rw [hn]
    exact Nat.min_eq_left (h due hd)

theorem step_pass_zero : c.step (.pass 0) = (c.later, []) := by
  have hspan : c.later.span 0 = 0 := span_of_le fun _ _ => Nat.zero_le _
  change (c.later.onShared fun s => { s with now := s.now + c.later.span 0 }, []) = _
  rw [hspan]
  rfl

end Controller

namespace Guise

variable (g : Guise)

def running (r : Running) : Running :=
  { r with id := g.number r.id, origin := r.origin.deafen (g.deafens r.id) }

def running? (r : Running) : Option Running := if g.hides r.id then none else some (g.running r)

def output? : Output → Option Output
  | .ask id slot request => if g.hides id then none else some (.ask (g.number id) slot request)
  | .ended id result =>
    if g.hides id || g.deafens id then none else some (.ended (g.number id) result)

def timer : Timer → Timer
  | .work id => .work (g.number id)
  | timer => timer

def event : Event → Event
  | .abandon id => .abandon (g.number id)
  | .answer id slot answer => .answer (g.number id) slot answer
  | .wake timer => .wake (g.timer timer)
  | event => event

def controller (L : Likeness) (state : SyncState) (c : Controller) : Controller :=
  { c with
    shared := { c.shared with timings := L.timings c.shared.timings, state }
    running := c.running.filterMap g.running?
    nextId := g.number c.nextId
    background := c.background.map L.background }

/-- Timers that wait for the same moment on both sides. -/
def ShowsTimer (L : Likeness) : Timer → Prop
  | .work id => g.hides id = false
  | .poller => L.polls = true ∧ ∀ n, g.hides n = false
  | _ => True

/-- Events that happen on both sides. -/
def Shows (L : Likeness) : Event → Prop
  | .abandon id | .answer id _ _ => g.hides id = false
  | .wake timer => g.ShowsTimer L timer
  | .pass _ => L.polls = true ∧ ∀ n, g.hides n = false
  | _ => True

/-- What is hidden are checks that callers or the poller have begun. -/
def HidesChecks (c : Controller) : Prop :=
  ∀ r ∈ c.running, g.hides r.id = true →
    r.work = .check ∧ (r.origin = .poller ∨ ∃ awaits, r.origin = .caller awaits)

@[simp] theorem running_id (r : Running) : (g.running r).id = g.number r.id := rfl

@[simp] theorem running_work (r : Running) : (g.running r).work = r.work := rfl

theorem running?_of_shown {r : Running} (h : g.hides r.id = false) : g.running? r = some (g.running r) := by
  simp [running?, h]

theorem running?_of_hidden {r : Running} (h : g.hides r.id = true) : g.running? r = none := by
  simp [running?, h]

theorem filterMap_running? {g : Guise} (h : ∀ n, g.hides n = false) (running : List Running) :
    running.filterMap g.running? = running.map g.running := by
  rw [← List.filterMap_eq_map]
  exact List.filterMap_congr fun r _ => g.running?_of_shown (h r.id)

theorem shows_of_plain {g : Guise} {L : Likeness} (hp : L.polls = true) (hs : ∀ n, g.hides n = false)
    (e : Event) : g.Shows L e := by
  cases e with
  | wake timer =>
    cases timer with
    | work id => exact hs id
    | poller => exact ⟨hp, hs⟩
    | reset | debounce | visibility | reconciler => trivial
  | abandon id | answer id slot answer => exact hs id
  | pass ms => exact ⟨hp, hs⟩
  | call | start | shutdown | visibility => trivial

theorem ne_of_hidden {g : Guise} {m n : Nat} (hm : g.hides m = true) (hn : g.hides n = false) :
    m ≠ n := by
  rintro rfl
  rw [hm] at hn
  cases hn

namespace Faithful

variable {g} {start : Nat}

theorem mono (hg : g.Faithful start) {later : Nat} (hle : start ≤ later) : g.Faithful later where
  injective := hg.injective
  shows n hn := hg.shows n (Nat.le_trans hle hn)
  tells n hn := hg.tells n (Nat.le_trans hle hn)
  succ n hn := hg.succ n (Nat.le_trans hle hn)

theorem number_beq (hg : g.Faithful start) {m n : Nat} (hm : g.hides m = false)
    (hn : g.hides n = false) : (g.number m == g.number n) = (m == n) := by
  rw [Bool.eq_iff_iff, beq_iff_eq, beq_iff_eq]
  exact ⟨hg.injective hm hn, congrArg g.number⟩

theorem any_running?_id (hg : g.Faithful start) {n : Nat} (hn : g.hides n = false) (r : Running) :
    (g.running? r).any (·.id == g.number n) = (r.id == n) := by
  cases hr : g.hides r.id with
  | false => simp [g.running?_of_shown hr, hg.number_beq hr hn]
  | true =>
    rw [g.running?_of_hidden hr, Option.any_none, eq_comm, beq_eq_false_iff_ne]
    exact ne_of_hidden hr hn

end Faithful

/-- The second controller shows the first one in a guise. -/
structure Fits (g : Guise) (L : Likeness) (c d : Controller) : Prop where
  faithful : g.Faithful c.nextId
  hides : g.HidesChecks c
  same : ∃ state, L.Alike c.state state ∧ d = g.controller L state c

/-- The second controller comes out in the same guise, and has done what is shown of what the first one
has done. -/
structure Tallies (g : Guise) (L : Likeness) (out out' : Controller × List Output) : Prop where
  fits : g.Fits L out.1 out'.1
  outputs : out'.2 = out.2.filterMap g.output?

namespace Fits

variable {g} {L : Likeness} {c d : Controller}

theorem silent (h : g.Fits L c d) : g.Tallies L (c, []) (d, []) := ⟨h, rfl⟩

theorem state (h : g.Fits L c d) : L.Alike c.state d.state := by
  obtain ⟨-, -, state, hstate, rfl⟩ := h
  exact hstate

theorem shared (h : g.Fits L c d) : L.Matches c.shared d.shared := by
  obtain ⟨-, -, state, hstate, rfl⟩ := h
  exact ⟨state, hstate, rfl⟩

theorem observedShape (h : g.Fits L c d) : d.observedShape = c.observedShape := by
  obtain ⟨-, -, state, -, rfl⟩ := h
  rfl

theorem background (h : g.Fits L c d) : d.background = c.background.map L.background := by
  obtain ⟨-, -, state, -, rfl⟩ := h
  rfl

theorem nextId (h : g.Fits L c d) : d.nextId = g.number c.nextId := by
  obtain ⟨-, -, state, -, rfl⟩ := h
  rfl

theorem now (h : g.Fits L c d) : d.now = c.now := by
  obtain ⟨-, -, state, -, rfl⟩ := h
  rfl

theorem find? (h : g.Fits L c d) {id : Nat} (hid : g.hides id = false) :
    d.find? (g.number id) = (c.find? id).map g.running := by
  obtain ⟨hfaithful, -, state, -, rfl⟩ := h
  simp only [Controller.find?, controller, List.find?_filterMap, hfaithful.any_running?_id hid]
  cases hr : c.running.find? (·.id == id) with
  | none => rfl
  | some r =>
    have hshown : g.hides r.id = false := by
      rw [Controller.id_of_find? hr]
      exact hid
    exact g.running?_of_shown hshown

theorem isRunning (h : g.Fits L c d) {origin : Origin} (hc : ∀ awaits, origin ≠ .caller awaits)
    (hp : origin = .poller → ∀ n, g.hides n = false) : d.isRunning origin = c.isRunning origin := by
  have hany : ∀ r ∈ c.running, (g.running? r).any (·.origin == origin) = (r.origin == origin) := by
    intro r hr
    cases hhides : g.hides r.id with
    | false =>
      rw [g.running?_of_shown hhides]
      exact Origin.deafen_beq hc _ r.origin
    | true =>
      rw [g.running?_of_hidden hhides, Option.any_none, eq_comm, beq_eq_false_iff_ne]
      intro heq
      rcases (h.hides r hr hhides).2 with ho | ⟨awaits, ho⟩
      · exact ne_of_hidden hhides (hp (heq.symm.trans ho) r.id) rfl
      · exact hc awaits (heq.symm.trans ho)
  obtain ⟨-, -, state, -, rfl⟩ := h
  rw [Bool.eq_iff_iff, Controller.isRunning, Controller.isRunning, List.any_eq_true, List.any_eq_true]
  constructor
  · rintro ⟨r', hr', ho⟩
    obtain ⟨r, hr, hshown⟩ := List.mem_filterMap.mp hr'
    exact ⟨r, hr, (hany r hr).symm.trans (by rw [hshown]; exact ho)⟩
  · rintro ⟨r, hr, ho⟩
    obtain ⟨r', hshown, ho'⟩ := (Option.any_eq_true _ _).mp ((hany r hr).trans ho)
    exact ⟨r', List.mem_filterMap.mpr ⟨r, hr, hshown⟩, ho'⟩

/-! ### The same moments are waited for -/

theorem due? (h : g.Fits L c d) {timer : Timer} (ht : g.ShowsTimer L timer) :
    d.due? (g.timer timer) = c.due? timer := by
  cases timer with
  | reset => exact congrArg TimerSlot.due? (L.reset h.state)
  | debounce | visibility =>
    obtain ⟨-, -, state, -, rfl⟩ := h
    rfl
  | reconciler =>
    simp only [timer, Controller.due?]
    rw [h.isRunning (by simp) (by simp), h.background]
    cases c.background <;> simp
  | poller =>
    simp only [timer, Controller.due?]
    rw [h.isRunning (by simp) fun _ => ht.2, h.background]
    cases c.background <;> simp [L.background_of_polls ht.1]
  | work id =>
    simp only [timer, Controller.due?]
    rw [h.find? ht]
    cases c.find? id <;> rfl

theorem dues (h : g.Fits L c d) (hp : L.polls = true) (hs : ∀ n, g.hides n = false) :
    d.dues = c.dues := by
  have htimers : d.timers = c.timers.map g.timer := by
    obtain ⟨-, -, state, -, rfl⟩ := h
    simp only [Controller.timers, controller, filterMap_running? hs, List.map_append, List.map_map]
    rfl
  rw [Controller.dues, Controller.dues, htimers, List.filterMap_map]
  exact List.filterMap_congr fun timer _ => h.due? (shows_of_plain hp hs (.wake timer))

theorem span (h : g.Fits L c d) (hp : L.polls = true) (hs : ∀ n, g.hides n = false) (ms : Nat) :
    d.span ms = c.span ms := by
  rw [Controller.span, Controller.span, h.dues hp hs, h.now]

/-- A second side that does not poll waits for no moments of its own. -/
theorem mem_dues (h : g.Fits L c d) (hp : L.polls = false) {due : Nat} (hd : due ∈ d.dues) :
    due ∈ c.dues := by
  have hshown : ∀ timer ∈ c.timers, g.ShowsTimer L timer → d.due? (g.timer timer) = some due →
      due ∈ c.dues := fun timer hm ht hdue =>
    List.mem_filterMap.mpr ⟨timer, hm, (h.due? ht).symm.trans hdue⟩
  obtain ⟨timer, hm, hdue⟩ := List.mem_filterMap.mp hd
  cases timer with
  | reset => exact hshown .reset (by simp [Controller.timers]) trivial hdue
  | debounce => exact hshown .debounce (by simp [Controller.timers]) trivial hdue
  | visibility => exact hshown .visibility (by simp [Controller.timers]) trivial hdue
  | reconciler => exact hshown .reconciler (by simp [Controller.timers]) trivial hdue
  | poller =>
    have hnone : d.background.bind Background.poller = none := by
      rw [h.background]
      cases c.background with
      | none => rfl
      | some b => simp [Likeness.background, hp]
    simp only [Controller.due?, hnone] at hdue
    split at hdue <;> cases hdue
  | work id =>
    obtain ⟨r, hr, hwork⟩ : ∃ r ∈ d.running, r.id = id := by
      simpa [Controller.timers] using hm
    obtain ⟨r₀, hr₀, hshows, rfl⟩ : ∃ r₀ ∈ c.running, g.hides r₀.id = false ∧ g.running r₀ = r := by
      obtain ⟨-, -, state, -, rfl⟩ := h
      obtain ⟨r₀, hr₀, hshows⟩ := List.mem_filterMap.mp hr
      unfold running? at hshows
      split at hshows
      · cases hshows
      · next hnot => exact ⟨r₀, hr₀, by simpa using hnot, Option.some.inj hshows⟩
    subst hwork
    exact hshown (.work r₀.id) (by simpa [Controller.timers] using ⟨r₀, hr₀, rfl⟩) hshows hdue

/-- As far as time goes on the first side, it can go on the second one. -/
theorem span_span (h : g.Fits L c d) (hp : L.polls = false) (ms : Nat) :
    d.span (c.span ms) = c.span ms :=
  Controller.span_of_le fun due hd => by
    rw [h.now]
    exact c.span_le ms (h.mem_dues hp hd)

/-! ### What changes on both sides -/

theorem onShared (h : g.Fits L c d) {s s' : Shared} (hs : L.Matches s s') :
    g.Fits L { c with shared := s } { d with shared := s' } := by
  obtain ⟨hfaithful, hhides, state, -, rfl⟩ := h
  obtain ⟨state', hstate', rfl⟩ := hs
  exact ⟨hfaithful, hhides, state', hstate', rfl⟩

theorem withState (h : g.Fits L c d) {t t' : SyncState} (ht : L.Alike t t') :
    g.Fits L { c with shared := { c.shared with state := t } }
      { d with shared := { d.shared with state := t' } } :=
  h.onShared (h.shared.withState ht)

theorem onState (h : g.Fits L c d) {f : SyncState → SyncState} (hf : L.Alike (f c.state) (f d.state)) :
    g.Fits L (c.onState f) (d.onState f) :=
  h.withState hf

theorem later (h : g.Fits L c d) : g.Fits L c.later d.later := by
  obtain ⟨hfaithful, hhides, state, hstate, rfl⟩ := h
  exact ⟨hfaithful, hhides, state, hstate, rfl⟩

theorem withDebounce (h : g.Fits L c d) (slot : TimerSlot Unit) :
    g.Fits L { c with debounce := slot } { d with debounce := slot } := by
  obtain ⟨hfaithful, hhides, state, hstate, rfl⟩ := h
  exact ⟨hfaithful, hhides, state, hstate, rfl⟩

theorem withVisibility (h : g.Fits L c d) (slot : TimerSlot Unit) :
    g.Fits L { c with visibility := slot } { d with visibility := slot } := by
  obtain ⟨hfaithful, hhides, state, hstate, rfl⟩ := h
  exact ⟨hfaithful, hhides, state, hstate, rfl⟩

theorem withBackground (h : g.Fits L c d) (background : Option Background) :
    g.Fits L { c with background } { d with background := background.map L.background } := by
  obtain ⟨hfaithful, hhides, state, hstate, rfl⟩ := h
  exact ⟨hfaithful, hhides, state, hstate, rfl⟩

theorem mapBackground (h : g.Fits L c d) {f : Background → Background}
    (hf : ∀ b, f (L.background b) = L.background (f b)) :
    g.Fits L { c with background := c.background.map f } { d with background := d.background.map f } := by
  have hmapped := h.withBackground (c.background.map f)
  rw [Option.map_map] at hmapped
  rw [h.background, Option.map_map, show f ∘ L.background = L.background ∘ f from funext hf]
  exact hmapped

theorem withObservedShape (h : g.Fits L c d) (observedShape : Option GroupShape) :
    g.Fits L { c with observedShape } { d with observedShape } := by
  obtain ⟨hfaithful, hhides, state, hstate, rfl⟩ := h
  exact ⟨hfaithful, hhides, state, hstate, rfl⟩

/-- Hidden work holds no activity, so it does not matter whether it ends on the first side. -/
theorem drop (h : g.Fits L c d) {p p' : Running → Bool}
    (hp : ∀ r, g.hides r.id = false → p' (g.running r) = p r) :
    g.Fits L (c.drop p) (d.drop p') := by
  obtain ⟨hfaithful, hhides, state, hstate, rfl⟩ := h
  have hkept : (c.running.filterMap g.running?).filter (!p' ·) =
      (c.running.filter (!p ·)).filterMap g.running? := by
    rw [List.filter_filterMap, List.filterMap_filter]
    congr 1
    funext r
    cases hr : g.hides r.id with
    | false => simp [g.running?_of_shown hr, Option.filter, hp r hr]
    | true => simp [g.running?_of_hidden hr]
  have hactivities : ((c.running.filterMap g.running?).filter p').filterMap (·.work.activity?) =
      (c.running.filter p).filterMap (·.work.activity?) := by
    rw [List.filter_filterMap, List.filterMap_filterMap, List.filterMap_filter]
    refine List.filterMap_congr fun r hr => ?_
    cases hshown : g.hides r.id with
    | false =>
      rw [g.running?_of_shown hshown, Option.filter_some, hp r hshown]
      split <;> rfl
    | true =>
      rw [g.running?_of_hidden hshown, (hhides r hr hshown).1]
      split <;> rfl
  have hleft := Likeness.foldl_leave hstate ((c.running.filter p).filterMap (·.work.activity?))
  refine ⟨hfaithful, fun r hr => hhides r (List.mem_filter.mp hr).1, _, hleft, ?_⟩
  simp only [Controller.drop, controller, hactivities, hkept]
  rfl

theorem dropId (h : g.Fits L c d) {id : Nat} (hid : g.hides id = false) :
    g.Fits L (c.drop (·.id == id)) (d.drop (·.id == g.number id)) :=
  h.drop fun _ hr => h.faithful.number_beq hr hid

theorem abort (h : g.Fits L c d) {origin : Origin} (hc : ∀ awaits, origin ≠ .caller awaits) :
    g.Fits L (c.abort origin) (d.abort origin) :=
  h.drop fun r _ => Origin.deafen_beq hc _ r.origin

theorem update (h : g.Fits L c d) {id : Nat} (hid : g.hides id = false) {f f' : Running → Running}
    (hf : ∀ r, (f r).id = r.id) (hf' : ∀ r, g.running (f r) = f' (g.running r)) :
    g.Fits L { c with running := c.running.map fun r => if r.id == id then f r else r }
      { d with running := d.running.map fun r => if r.id == g.number id then f' r else r } := by
  obtain ⟨hfaithful, hhides, state, hstate, rfl⟩ := h
  have hne : ∀ r : Running, g.hides r.id = true → (r.id == id) = false := fun r hr =>
    beq_eq_false_iff_ne.mpr (ne_of_hidden hr hid)
  refine ⟨hfaithful, ?_, state, hstate, ?_⟩
  · intro r' hr' hhidden
    obtain ⟨r, hr, rfl⟩ := List.mem_map.mp hr'
    have hkept : g.hides r.id = true := by
      split at hhidden
      · rwa [hf] at hhidden
      · exact hhidden
    rw [hne r hkept]
    exact hhides r hr hkept
  · simp only [controller, List.map_filterMap, List.filterMap_map]
    congr 1
    refine List.filterMap_congr fun r _ => ?_
    cases hr : g.hides r.id with
    | true =>
      rw [g.running?_of_hidden hr, Option.map_none, Function.comp_apply, hne r hr]
      exact (g.running?_of_hidden hr).symm
    | false =>
      simp only [g.running?_of_shown hr, Option.map_some, Function.comp_apply, running_id,
        hfaithful.number_beq hr hid]
      split
      · rw [g.running?_of_shown ((congrArg g.hides (hf r)).trans hr), hf']
      · exact (g.running?_of_shown hr).symm

theorem replaceWork (h : g.Fits L c d) {id : Nat} (hid : g.hides id = false) (work : Work) :
    g.Fits L (c.replaceWork id work) (d.replaceWork (g.number id) work) :=
  h.update hid (fun _ => rfl) (fun _ => rfl)

theorem filterMap_asks {id : Nat} (hid : g.hides id = false) (asks : List (Nat × Request)) :
    (asks.map fun a => Output.ask id a.1 a.2).filterMap g.output? =
      asks.map fun a => Output.ask (g.number id) a.1 a.2 := by
  simp [List.filterMap_map, Function.comp_def, output?, hid]

theorem launch (h : g.Fits L c d) (origin : Origin) (work : Work) (asks : List (Nat × Request)) :
    g.Tallies L (c.launch origin work asks) (d.launch origin work asks) := by
  obtain ⟨hfaithful, hhides, state, hstate, rfl⟩ := h
  have hshown := hfaithful.shows _ (Nat.le_refl _)
  have hhears := hfaithful.tells _ (Nat.le_refl _)
  have hsucc := hfaithful.succ _ (Nat.le_refl _)
  refine ⟨⟨hfaithful.mono (Nat.le_succ _), ?_, state, hstate, ?_⟩, (filterMap_asks hshown asks).symm⟩
  · intro r hr hhidden
    rcases List.mem_append.mp hr with hr | hr
    · exact hhides r hr hhidden
    · obtain rfl := List.mem_singleton.mp hr
      rw [hshown] at hhidden
      cases hhidden
  · have hlaunched : g.running? ⟨c.nextId, origin, work⟩ = some ⟨g.number c.nextId, origin, work⟩ := by
      rw [g.running?_of_shown hshown, running, hhears]
      cases origin <;> simp [Origin.deafen]
    simp [Controller.launch, controller, hlaunched, hsucc]

theorem answerAtOnce (h : g.Fits L c d) (result : Result) :
    g.Tallies L (c.answerAtOnce result) (d.answerAtOnce result) := by
  obtain ⟨hfaithful, hhides, state, hstate, rfl⟩ := h
  have hshown := hfaithful.shows _ (Nat.le_refl _)
  have hhears := hfaithful.tells _ (Nat.le_refl _)
  have hsucc := hfaithful.succ _ (Nat.le_refl _)
  refine ⟨⟨hfaithful.mono (Nat.le_succ _), hhides, state, hstate, ?_⟩, ?_⟩
  · simp [Controller.answerAtOnce, controller, hsucc]
  · simp [Controller.answerAtOnce, controller, output?, hshown, hhears]

theorem report_running {r : Running} (hr : g.hides r.id = false) (result : Result) :
    Controller.report (g.running r) result = (Controller.report r result).filterMap g.output? := by
  obtain ⟨id, origin, work⟩ := r
  cases origin with
  | caller awaits =>
    cases hdeaf : g.deafens id <;> cases awaits <;>
      simp_all [Controller.report, running, Origin.deafen, output?]
  | debounce | visibility | reconciler | poller => rfl

theorem finish (h : g.Fits L c d) {r : Running} (hr : g.hides r.id = false) (result : Result) :
    g.Tallies L (c.finish r result) (d.finish (g.running r) result) :=
  ⟨h.dropId hr, report_running hr result⟩

theorem scheduleRefresh (h : g.Fits L c d) : g.Fits L c.scheduleRefresh d.scheduleRefresh := by
  have haborted := h.abort (show ∀ awaits, Origin.debounce ≠ .caller awaits by simp)
  have hslot : (d.abort .debounce).debounce.replace (d.abort .debounce).now
      (d.abort .debounce).shared.timings.invalidateDebounce.toNat () =
        (c.abort .debounce).debounce.replace (c.abort .debounce).now
          (c.abort .debounce).shared.timings.invalidateDebounce.toNat () := by
    obtain ⟨poll, hpoll⟩ := L.timings_eq (c.abort .debounce).shared.timings
    rw [haborted.now, haborted.shared.timings, hpoll]
    rfl
  unfold Controller.scheduleRefresh
  dsimp only
  rw [hslot]
  exact haborted.withDebounce _

theorem recordReconcile (h : g.Fits L c d) :
    g.Fits L (c.onState (·.recordReconcile c.shared.wall))
      (d.onState (·.recordReconcile d.shared.wall)) := by
  rw [h.shared.wall]
  exact h.onState (Likeness.recordReconcile h.state _)

theorem conclude (h : g.Fits L c d) (f : Tick.Finding) : g.Fits L (c.conclude f) (d.conclude f) := by
  have hshape := h.withObservedShape (f.shape.or c.observedShape)
  unfold Controller.conclude
  rw [h.observedShape]
  obtain ⟨shape, reported, outcome⟩ := f
  apply recordReconcile
  cases outcome with
  | changed | fetchFailed =>
    apply scheduleRefresh
    cases reported with
    | none => exact hshape
    | some id => exact hshape.onState (Likeness.adopt hshape.state id)
  | skipped | unchanged =>
    cases reported with
    | none => exact hshape
    | some id => exact hshape.onState (Likeness.adopt hshape.state id)

/-! ### What is begun -/

theorem startTick (h : g.Fits L c d) (origin : Origin) :
    g.Tallies L (c.startTick origin) (d.startTick origin) := by
  have hskipped := h.onState (Likeness.recordSkippedTick h.state)
  unfold Controller.startTick
  rcases Likeness.enter h.state .reconciling with ⟨active, hc, hd⟩ | ⟨t, t', hc, hd, ht⟩
  · rw [hc, hd]
    cases origin with
    | caller awaits => exact hskipped.answerAtOnce _
    | debounce | visibility | reconciler | poller => exact hskipped.silent
  · rw [hc, hd]
    exact (h.withState ht).launch origin _ _

theorem startSwitch (h : g.Fits L c d) (id : String) :
    g.Tallies L (c.startSwitch id) (d.startSwitch id) := by
  have hcurrent : d.snapshot.currentConfig = c.snapshot.currentConfig := L.currentConfig h.state
  unfold Controller.startSwitch
  split
  · exact h.answerAtOnce _
  · rw [hcurrent]
    split
    · exact h.answerAtOnce _
    · rcases Likeness.enter h.state .switching with ⟨active, hc, hd⟩ | ⟨t, t', hc, hd, ht⟩
      · rw [hc, hd]
        exact h.answerAtOnce _
      · rw [hc, hd]
        exact (h.withState (Likeness.setError ht none)).launch _ _ _

theorem startReload (h : g.Fits L c d) : g.Tallies L c.startReload d.startReload := by
  unfold Controller.startReload
  rcases Likeness.enter h.state .reloading with ⟨active, hc, hd⟩ | ⟨t, t', hc, hd, ht⟩
  · rw [hc, hd]
    exact h.answerAtOnce _
  · rw [hc, hd]
    exact (h.withState (Likeness.setError ht none)).launch _ _ _

theorem startRecovery (h : g.Fits L c d) : g.Tallies L c.startRecovery d.startRecovery := by
  have hattempts : d.snapshot.recoveryAttempts = c.snapshot.recoveryAttempts :=
    L.recoveryAttempts h.state
  have hmax : d.shared.timings.maxRecoveryAttempts = c.shared.timings.maxRecoveryAttempts := by
    obtain ⟨poll, hpoll⟩ := L.timings_eq c.shared.timings
    rw [h.shared.timings, hpoll]
  unfold Controller.startRecovery
  rw [L.activity h.state, hmax, hattempts]
  split
  · exact h.answerAtOnce _
  · split
    · exact (h.onState (Likeness.setError h.state _)).answerAtOnce _
    · rcases Likeness.enter h.state .recovering with ⟨active, hc, hd⟩ | ⟨t, t', hc, hd, ht⟩
      · rw [hc, hd]
        exact h.answerAtOnce _
      · rw [hc, hd]
        have hincremented := Likeness.incrementAttempts ht
        have hattempt : t'.incrementAttempts.snapshot.recoveryAttempts =
            t.incrementAttempts.snapshot.recoveryAttempts := L.recoveryAttempts hincremented
        dsimp only [Recovery.start]
        rw [hattempt]
        exact (h.withState hincremented).launch _ _ _

theorem startCall (h : g.Fits L c d) (call : Call) :
    g.Tallies L (c.startCall call) (d.startCall call) := by
  cases call with
  | switch id => exact h.startSwitch id
  | reload => exact h.startReload
  | recover => exact h.startRecovery
  | check => exact h.launch _ _ _
  | reconcile => exact h.startTick _
  | refetch key => exact h.launch _ _ _

theorem startDebounced (h : g.Fits L c d) : g.Tallies L c.startDebounced d.startDebounced := by
  have hempty := h.withDebounce .empty
  unfold Controller.startDebounced
  dsimp only
  rcases Likeness.enter hempty.state .reconciling with ⟨active, hc, hd⟩ | ⟨t, t', hc, hd, ht⟩
  · rw [hc, hd]
    exact hempty.silent
  · rw [hc, hd]
    have hshared : L.Matches { c.shared with state := t } { d.shared with state := t' } :=
      h.shared.withState ht
    obtain ⟨hmatches, hsame⟩ := hshared.startRefresh id
    have hrefresh : { d.shared with state := t' }.startRefresh.1 =
        { c.shared with state := t }.startRefresh.1 := hsame
    dsimp only
    rw [hrefresh]
    exact (hempty.onShared hmatches).launch _ _ _

/-! ### What goes on -/

theorem proceed (h : g.Fits L c d) {r : Running} (hr : g.hides r.id = false) {φ ρ : Type}
    (point : φ → Work) (result : ρ → Result) {step step' : Shared × Progress φ ρ}
    (hstep : L.InStep step step') :
    g.Tallies L (c.proceed r point result step) (d.proceed (g.running r) point result step') := by
  obtain ⟨s, progress⟩ := step
  obtain ⟨s', progress'⟩ := step'
  obtain ⟨hs, rfl⟩ : L.Matches s s' ∧ progress' = progress := hstep
  cases progress' with
  | waiting phase asks =>
    exact ⟨(h.onShared hs).replaceWork hr (point phase), (filterMap_asks hr asks).symm⟩
  | done value => exact (h.onShared hs).finish hr (result value)

theorem finding (h : g.Fits L c d) (profiles : Except Error ProfileList)
    (proxies : Except Error ProxySnapshot) :
    Tick.finding d.observedShape d.state profiles proxies =
      Tick.finding c.observedShape c.state profiles proxies := by
  unfold Tick.finding
  rw [h.observedShape, Likeness.differs h.state]

theorem resume (h : g.Fits L c d) {r : Running} (hr : g.hides r.id = false) (signal : Signal) :
    g.Tallies L (c.resume r signal) (d.resume (g.running r) signal) := by
  obtain ⟨n, origin, work⟩ := r
  have hs := h.shared
  cases work with
  | switch id phase => exact h.proceed hr _ _ (Switch.inStep_resume hs id phase signal)
  | reload phase =>
    exact h.proceed hr _ _ (Reload.inStep_reloadEnded (Reload.inStep_resume hs phase signal))
  | recover attempt phase =>
    exact h.proceed hr _ _ (Recovery.inStep_resume hs attempt phase signal)
  | check =>
    simp only [Controller.resume, running]
    split
    · next result => exact (h.onShared (hs.check result)).finish hr _
    · exact h.silent
  | reconcile tick =>
    simp only [Controller.resume, running]
    split
    · next profiles proxies hresults =>
      rw [h.finding]
      exact (h.conclude _).finish hr _
    · exact ⟨h.replaceWork hr _, rfl⟩
  | refetch key =>
    simp only [Controller.resume, running]
    split
    · split
      · next value hvalue =>
        have hset : L.Matches { c.shared with cache := c.shared.cache.set key value c.shared.wall }
            { d.shared with cache := d.shared.cache.set key value d.shared.wall } := by
          rw [hs.cache, hs.wall]
          exact hs.withCache _
        exact (h.onShared hset).finish hr _
      · exact h.finish hr _
      · exact h.silent
    · exact h.silent
  | refresh refresh =>
    obtain ⟨hrefresh, hmatches⟩ := hs.resumeRefresh refresh signal
    simp only [Controller.resume, running]
    rw [hrefresh]
    split
    · exact ((h.onShared hmatches).dropId hr).silent
    · exact ((h.onShared hmatches).replaceWork hr _).silent

theorem stopTicker (h : g.Fits L c d) (origin : Origin) :
    g.Fits L (c.stopTicker origin) (d.stopTicker origin) := by
  cases origin with
  | caller awaits | debounce | visibility => exact h
  | reconciler => exact h.mapBackground fun b => L.background_withReconciler b none
  | poller => exact h.mapBackground L.background_withoutPoller

theorem collapse (h : g.Fits L c d) {r : Running} (hr : g.hides r.id = false) :
    g.Tallies L (c.collapse r) (d.collapse (g.running r)) := by
  have hstop : d.stopTicker (g.running r).origin = d.stopTicker r.origin := by
    unfold running
    cases r.origin <;> rfl
  unfold Controller.collapse
  rw [hstop]
  exact ⟨(h.stopTicker r.origin).dropId hr, report_running hr _⟩

theorem takeAnswer (h : g.Fits L c d) {id : Nat} (hid : g.hides id = false) (slot : Nat)
    (answer : Answer) :
    g.Tallies L (c.takeAnswer id slot answer) (d.takeAnswer (g.number id) slot answer) := by
  unfold Controller.takeAnswer
  rw [h.find? hid]
  cases hfound : c.find? id with
  | none => exact h.silent
  | some r =>
    have hr : g.hides r.id = false := by
      rw [Controller.id_of_find? hfound]
      exact hid
    dsimp only [Option.map]
    rw [g.running_work]
    split
    · split
      · exact h.collapse hr
      · exact h.resume hr _
    · exact h.silent

theorem detach (h : g.Fits L c d) {id : Nat} (hid : g.hides id = false) :
    g.Fits L (c.detach id) (d.detach (g.number id)) :=
  h.update hid (fun _ => rfl) (fun r => by simp [running, Origin.deafen])

theorem abandon (h : g.Fits L c d) {id : Nat} (hid : g.hides id = false) :
    g.Fits L (c.abandon id) (d.abandon (g.number id)) := by
  unfold Controller.abandon
  rw [h.find? hid]
  match c.find? id with
  | none => exact h
  | some ⟨n, .caller awaits, work⟩ =>
    dsimp only [Option.map, running, Origin.deafen]
    split
    · exact h.detach hid
    · exact h.dropId hid
  | some ⟨n, .debounce, work⟩ | some ⟨n, .visibility, work⟩ | some ⟨n, .reconciler, work⟩
    | some ⟨n, .poller, work⟩ => exact h

/-! ### What comes by itself -/

theorem startBackground (h : g.Fits L c d) : g.Fits L c.startBackground d.startBackground := by
  unfold Controller.startBackground
  rw [h.background, h.shared.timings, h.now]
  cases hb : c.background with
  | some b =>
    exact h
  | none =>
    have hbegun := h.withBackground (some {
      reconciler := Ticker.start? c.shared.timings.reconcileInterval.toNat
        (c.now + c.shared.timings.reconcileInterval.toNat)
      poller := Ticker.start? c.shared.timings.conflictPollInterval.toNat c.now })
    rw [Option.map_some, L.background_start] at hbegun
    exact hbegun

theorem shutdown (h : g.Fits L c d) : g.Fits L c.shutdown d.shutdown := by
  have hreconciler := h.abort (show ∀ awaits, Origin.reconciler ≠ .caller awaits by simp)
  have hpoller := hreconciler.abort (show ∀ awaits, Origin.poller ≠ .caller awaits by simp)
  have hdebounce := hpoller.abort (show ∀ awaits, Origin.debounce ≠ .caller awaits by simp)
  have hvisibility := hdebounce.abort (show ∀ awaits, Origin.visibility ≠ .caller awaits by simp)
  have hempty := ((hvisibility.withBackground none).withDebounce .empty).withVisibility .empty
  exact hempty.onState (Likeness.shutdown hempty.state)

theorem changeVisibility (h : g.Fits L c d) (visible : Bool) :
    g.Fits L (c.changeVisibility visible) (d.changeVisibility visible) := by
  have hcaller : ∀ awaits, Origin.visibility ≠ .caller awaits := by simp
  have hdelay : d.shared.timings.visibilityDelay = c.shared.timings.visibilityDelay := by
    obtain ⟨poll, hpoll⟩ := L.timings_eq c.shared.timings
    rw [h.shared.timings, hpoll]
  unfold Controller.changeVisibility
  rw [hdelay, h.isRunning hcaller (by simp)]
  dsimp only
  split
  · split
    · exact ((h.onState (Likeness.recordSkippedTick h.state)).abort hcaller).withVisibility _
    · have haborted := h.abort hcaller
      rw [haborted.now]
      exact haborted.withVisibility _
  · exact (h.abort hcaller).withVisibility _

theorem fire (h : g.Fits L c d) {timer : Timer} (ht : g.ShowsTimer L timer) :
    g.Tallies L (c.fire timer) (d.fire (g.timer timer)) := by
  cases timer with
  | reset =>
    have hexpired := L.expire h.state c.now
    simp only [Guise.timer, Controller.fire]
    rw [h.now]
    exact (h.onState hexpired).silent
  | debounce => exact h.startDebounced
  | visibility => exact (h.withVisibility .empty).startTick _
  | reconciler =>
    have hticker : d.background.bind Background.reconciler = c.background.bind Background.reconciler := by
      rw [h.background]
      cases c.background <;> simp
    simp only [Guise.timer, Controller.fire]
    rw [hticker, h.now]
    split
    · next t _ =>
      exact (h.mapBackground fun b => L.background_withReconciler b (some (t.take c.now))).startTick _
    · exact h.silent
  | poller =>
    have hticker : d.background.bind Background.poller = c.background.bind Background.poller := by
      rw [h.background]
      cases c.background <;> simp [L.background_of_polls ht.1]
    simp only [Guise.timer, Controller.fire]
    rw [hticker, h.now]
    split
    · next t _ =>
      refine (h.mapBackground (f := ({ · with poller := some (t.take c.now) })) fun b => ?_).launch _ _ _
      rw [L.background_of_polls ht.1, L.background_of_polls ht.1]
    · exact h.silent
  | work id =>
    simp only [Guise.timer, Controller.fire]
    rw [h.find? ht]
    cases hfound : c.find? id with
    | none => exact h.silent
    | some r =>
      have hr : g.hides r.id = false := by
        rw [Controller.id_of_find? hfound]
        exact ht
      exact h.resume hr _

theorem wake (h : g.Fits L c d) {timer : Timer} (ht : g.ShowsTimer L timer) :
    g.Tallies L (c.step (.wake timer)) (d.step (.wake (g.timer timer))) := by
  have hdue := h.due? ht
  by_cases hwoken : ∃ due, c.due? timer = some due ∧ due ≤ c.now
  · obtain ⟨due, hd, hn⟩ := hwoken
    rw [Controller.step_wake hd hn, Controller.step_wake (hdue.trans hd) (h.now ▸ hn)]
    exact h.later.fire ht
  · have hearly : ∀ due, c.due? timer = some due → ¬ due ≤ c.now := fun due hd hn =>
      hwoken ⟨due, hd, hn⟩
    rw [Controller.step_of_not_due hearly, Controller.step_of_not_due]
    · exact h.later.silent
    · rw [hdue, h.now]
      exact hearly

theorem pass (h : g.Fits L c d) {ms ms' : Nat} (hspan : d.later.span ms' = c.later.span ms) :
    g.Tallies L (c.step (.pass ms)) (d.step (.pass ms')) := by
  have hshared : L.Matches { c.later.shared with now := c.later.shared.now + c.later.span ms }
      { d.later.shared with now := d.later.shared.now + d.later.span ms' } := by
    rw [hspan]
    obtain ⟨state, hstate, hsame⟩ := h.later.shared
    rw [hsame]
    exact ⟨state, hstate, rfl⟩
  exact (h.later.onShared hshared).silent

/-- What happens on both sides has the same effect on both. -/
theorem step (h : g.Fits L c d) {e : Event} (he : g.Shows L e) :
    g.Tallies L (c.step e) (d.step (g.event e)) := by
  cases e with
  | call call => exact h.later.startCall call
  | abandon id => exact (h.later.abandon he).silent
  | start => exact h.later.startBackground.silent
  | shutdown => exact h.later.shutdown.silent
  | visibility visible => exact (h.later.changeVisibility visible).silent
  | answer id slot answer => exact h.later.takeAnswer he slot answer
  | wake timer => exact h.wake he
  | pass ms => exact h.pass (h.later.span he.1 he.2 ms)

end Fits

end Guise

end CoreWarden
