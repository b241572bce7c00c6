import CoreWarden.Proofs.Controller.Guise

/-!
Checks of the running cores only look. A turn is bare when everything is left out of it that checks are
made of or leave behind; `bareTurns_eq` says that the bare turns of a run are those of a run without
checks, which is told only what they do not ask for.
-/
namespace CoreWarden

/-! ### What checks leave behind -/

def Snapshot.withoutConflict (s : Snapshot) : Snapshot :=
  { s with multiCoreWarning := false, conflict := .noConflict, runningCores := [] }

namespace SyncState

/-- The state but for what checks find, of which observers are told. -/
def withoutConflict (s : SyncState) : SyncState :=
  { s with snapshot := s.snapshot.withoutConflict, revision := 0 }

variable (s : SyncState)

theorem withoutConflict_applyConflict (report : ConflictReport) :
    (s.applyConflict report).withoutConflict = s.withoutConflict := rfl

/-- What an operation does to the rest of a state does not depend on what checks have found. -/
theorem withoutConflict_apply (now : Nat) (wall : Time.Timestamp) (op : Operation) :
    ((Timeline.mk now wall s.withoutConflict).apply op).state.withoutConflict =
      ((Timeline.mk now wall s).apply op).state.withoutConflict := by
  cases op with
  | enter target =>
    by_cases h : s.activity = .idle
    · have h' : s.withoutConflict.activity = .idle := h
      simp only [Timeline.apply, enter_of_idle _ _ h, enter_of_idle _ _ h']
      rfl
    · have h' : s.withoutConflict.activity ≠ .idle := h
      simp only [Timeline.apply, enter_of_ne_idle _ _ h, enter_of_ne_idle _ _ h']
      rfl
  | leave activity =>
    by_cases h : s.activity = activity
    · have h' : s.withoutConflict.activity = activity := h
      simp only [Timeline.apply, leave, if_pos h, if_pos h']
      rfl
    · have h' : s.withoutConflict.activity ≠ activity := h
      simp only [Timeline.apply, leave, if_neg h, if_neg h']
      rfl
  | setError error =>
    have herror : s.withoutConflict.snapshot.switchError = s.snapshot.switchError := rfl
    simp only [Timeline.apply, setError, herror]
    split <;> rfl
  | recordFailure error =>
    have herror : s.withoutConflict.cancelReset.snapshot.switchError = s.cancelReset.snapshot.switchError := rfl
    simp only [Timeline.apply, recordFailure, setError, herror]
    split <;> rfl
  | resetAttempts =>
    have hattempts : s.withoutConflict.snapshot.recoveryAttempts = s.snapshot.recoveryAttempts := rfl
    simp only [Timeline.apply, resetAttempts, hattempts]
    split <;> rfl
  | adopt configId =>
    have hdiffers : s.withoutConflict.differs configId = s.differs configId := rfl
    simp only [Timeline.apply, adopt, hdiffers]
    split <;> rfl
  | recordSuccess | incrementAttempts | applyConflict | commitSwitch | recordSwitchFailure
    | recordReconcile | recordSkippedTick | shutdown | advance => rfl

theorem withoutConflict_expire (now : Nat) :
    (s.withoutConflict.expire now).withoutConflict = (s.expire now).withoutConflict := by
  have hreset : s.withoutConflict.reset = s.reset := rfl
  simp only [expire, hreset]
  split
  · next alarm reset _ => exact withoutConflict_apply { s with reset } now .epoch .resetAttempts
  · rfl

end SyncState

def Likeness.unchecked : Likeness where
  Alike s s' := s'.withoutConflict = s.withoutConflict
  polls := false
  activity h := congrArg (·.snapshot.activity) h
  currentConfig h := congrArg (·.snapshot.currentConfig) h
  recoveryAttempts h := congrArg (·.snapshot.recoveryAttempts) h
  reset h := congrArg (·.reset) h
  operate {s s'} h now wall op := by
    rw [← s'.withoutConflict_apply, h, s.withoutConflict_apply]
  expire {s s'} h now := by
    rw [← s'.withoutConflict_expire, h, s.withoutConflict_expire]

/-- The piece of work that an event is addressed to. -/
def Event.addressee? : Event → Option Nat
  | .abandon id | .answer id _ _ | .wake (.work id) => some id
  | _ => none

/-- Whether an event asks for a check: a caller does, or it is time for a poll. -/
def Event.isCheck : Event → Bool
  | .call .check | .wake .poller => true
  | _ => false

theorem Event.isCheck_of_addressee? {e : Event} {id : Nat} (h : e.addressee? = some id) :
    e.isCheck = false := by
  cases e with
  | wake timer =>
    cases timer with
    | work => rfl
    | reset | debounce | visibility | reconciler | poller => cases h
  | abandon | answer => rfl
  | call | start | shutdown | visibility | pass => cases h

theorem Guise.addressee?_event (g : Guise) (e : Event) :
    (g.event e).addressee? = e.addressee?.map g.number := by
  cases e with
  | wake timer => cases timer <;> rfl
  | call | abandon | start | shutdown | visibility | answer | pass => rfl

theorem Guise.shows_of_addressee? {g : Guise} {L : Likeness} {e : Event} {id : Nat}
    (h : e.addressee? = some id) (hid : g.hides id = false) : g.Shows L e := by
  cases e with
  | wake timer =>
    cases timer with
    | work => exact Option.some.inj h ▸ hid
    | reset | debounce | visibility | reconciler | poller => cases h
  | abandon | answer => exact Option.some.inj h ▸ hid
  | call | start | shutdown | visibility | pass => cases h

namespace Guise

/-! ### Leaving out -/

/-- Leaves out the work of these numbers; what is left is numbered without gaps. -/
def leavingOut (checks : List Nat) : Guise where
  number n := (List.range n).countP (· ∉ checks)
  hides n := decide (n ∈ checks)
  deafens _ := false

variable {checks : List Nat}

theorem number_leavingOut_succ (n : Nat) : (leavingOut checks).number (n + 1) =
    (leavingOut checks).number n + if n ∈ checks then 0 else 1 := by
  simp only [leavingOut, List.range_succ, List.countP_append]
  split <;> simp_all

theorem number_leavingOut_mono {m n : Nat} (h : m ≤ n) :
    (leavingOut checks).number m ≤ (leavingOut checks).number n := by
  induction h with
  | refl => exact Nat.le_refl _
  | step h ih =>
    rw [number_leavingOut_succ]
    exact Nat.le_add_right_of_le ih

theorem number_leavingOut_lt {m n : Nat} (h : m < n) (hm : m ∉ checks) :
    (leavingOut checks).number m < (leavingOut checks).number n := by
  have hle : (leavingOut checks).number (m + 1) ≤ (leavingOut checks).number n :=
    number_leavingOut_mono h
  rw [number_leavingOut_succ, if_neg hm] at hle
  exact hle

theorem faithful_leavingOut {start : Nat} (h : ∀ n ∈ checks, n < start) :
    (leavingOut checks).Faithful start where
  injective {m n} hm hn heq := by
    rcases Nat.lt_trichotomy m n with hlt | rfl | hlt
    · exact absurd heq (Nat.ne_of_lt (number_leavingOut_lt hlt (of_decide_eq_false hm)))
    · rfl
    · exact absurd heq.symm (Nat.ne_of_lt (number_leavingOut_lt hlt (of_decide_eq_false hn)))
  shows n hn := decide_eq_false fun hmem => Nat.not_lt.mpr hn (h n hmem)
  tells _ _ := rfl
  succ n hn := by
    rw [number_leavingOut_succ, if_neg fun hmem => Nat.not_lt.mpr hn (h n hmem)]

theorem mem_lt_of_faithful {start : Nat} (h : (leavingOut checks).Faithful start) :
    ∀ n ∈ checks, n < start := by
  intro n hn
  by_contra hle
  exact of_decide_eq_false (h.shows n (Nat.not_lt.mp hle)) hn

theorem number_leavingOut_cons {n new : Nat} (h : n ≤ new) :
    (leavingOut (new :: checks)).number n = (leavingOut checks).number n := by
  refine List.countP_congr fun m hm => ?_
  have hne : m ≠ new := Nat.ne_of_lt (Nat.lt_of_lt_of_le (List.mem_range.mp hm) h)
  simp [hne]

theorem running?_leavingOut_cons {new : Nat} {r : Running} (h : r.id < new) :
    (leavingOut (new :: checks)).running? r = (leavingOut checks).running? r := by
  have hnumber : (leavingOut (new :: checks)).number r.id = (leavingOut checks).number r.id :=
    number_leavingOut_cons (Nat.le_of_lt h)
  have hhides : (leavingOut (new :: checks)).hides r.id = (leavingOut checks).hides r.id := by
    simp [leavingOut, Nat.ne_of_lt h]
  rw [running?, running?, running, running, hhides, hnumber]
  rfl

namespace Fits

variable {g : Guise} {L : Likeness} {c d : Controller}

/-! ### What hidden work does is not shown -/

theorem filterMap_report (r : Running) (hr : g.hides r.id = true) (result : Result) :
    (Controller.report r result).filterMap g.output? = [] := by
  unfold Controller.report
  split <;> simp [output?, hr]

theorem dropHidden (h : g.Fits L c d) {id : Nat} (hid : g.hides id = true) :
    g.Fits L (c.drop (·.id == id)) d := by
  have hnone : ∀ r : Running, g.hides r.id = false → false = (r.id == id) := fun r hr =>
    (beq_eq_false_iff_ne.mpr (ne_of_hidden hid hr).symm).symm
  have hdropped : g.Fits L (c.drop (·.id == id)) (d.drop fun _ => false) := h.drop hnone
  have hkept : d.drop (fun _ => false) = d := by
    simp [Controller.drop, Controller.onState, Controller.onShared, Shared.onState]
  rwa [hkept] at hdropped

theorem onPoller (h : g.Fits L c d) (hp : L.polls = false) (poller : Option Ticker) :
    g.Fits L { c with background := c.background.map ({ · with poller }) } d := by
  obtain ⟨hfaithful, hhides, state, hstate, rfl⟩ := h
  have hpoller : L.background ∘ ({ · with poller }) = L.background := by
    funext b
    simp [Likeness.background, hp]
  refine ⟨hfaithful, hhides, state, hstate, ?_⟩
  simp only [controller, Option.map_map, hpoller]

theorem stopHiddenTicker (h : g.Fits L c d) (hp : L.polls = false) {r : Running}
    (ho : r.origin = .poller ∨ ∃ awaits, r.origin = .caller awaits) :
    g.Fits L (c.stopTicker r.origin) d := by
  obtain ho | ⟨awaits, ho⟩ := ho
  · rw [ho]
    exact h.onPoller hp none
  · rw [ho]
    exact h

theorem finishHidden (h : g.Fits L c d) {r : Running} (hr : g.hides r.id = true) (result : Result) :
    g.Tallies L (c.finish r result) (d, []) :=
  ⟨h.dropHidden hr, (filterMap_report r hr result).symm⟩

/-- What a check finds does not show. -/
def Overlooks (L : Likeness) : Prop :=
  ∀ s s' report, L.Alike s s' → L.Alike (s.applyConflict report) s'

theorem resumeHidden (h : g.Fits L c d) (hL : Overlooks L) {r : Running} (hm : r ∈ c.running)
    (hr : g.hides r.id = true) (signal : Signal) : g.Tallies L (c.resume r signal) (d, []) := by
  simp only [Controller.resume, (h.hides r hm hr).1]
  split
  · next result =>
    have hfound : g.Fits L { c with shared := (c.shared.check result).2 } d := by
      obtain ⟨hfaithful, hhides, state, hstate, rfl⟩ := h
      exact ⟨hfaithful, hhides, state, hL _ _ _ hstate, rfl⟩
    exact hfound.finishHidden hr _
  · exact h.silent

theorem takeHiddenAnswer (h : g.Fits L c d) (hL : Overlooks L) (hp : L.polls = false) {id : Nat}
    (hid : g.hides id = true) (slot : Nat) (answer : Answer) :
    g.Tallies L (c.takeAnswer id slot answer) (d, []) := by
  unfold Controller.takeAnswer
  split
  · exact h.silent
  · next r hfound =>
    obtain rfl := Controller.id_of_find? hfound
    have hm := Controller.mem_of_find? hfound
    split
    · split
      · exact ⟨(h.stopHiddenTicker hp (h.hides r hm hid).2).dropHidden hid,
          (filterMap_report r hid _).symm⟩
      · exact h.resumeHidden hL hm hid _
    · exact h.silent

theorem abandonHidden (h : g.Fits L c d) {id : Nat} (hid : g.hides id = true) :
    g.Fits L (c.abandon id) d := by
  unfold Controller.abandon
  split
  · next n awaits work hfound =>
    have hn : n = id := Controller.id_of_find? hfound
    have hwork := (h.hides _ (Controller.mem_of_find? hfound) (hn ▸ hid)).1
    dsimp only at hwork
    rw [hwork]
    exact h.dropHidden hid
  · exact h

theorem due?_hidden (h : g.Fits L c d) {id : Nat} (hid : g.hides id = true) :
    c.due? (.work id) = none := by
  simp only [Controller.due?]
  cases hfound : c.find? id with
  | none => rfl
  | some r =>
    obtain rfl := Controller.id_of_find? hfound
    rw [Option.bind_some, (h.hides r (Controller.mem_of_find? hfound) hid).1]
    rfl

theorem stepHidden (h : g.Fits L c d) (hL : Overlooks L) (hp : L.polls = false) {e : Event} {id : Nat}
    (he : e.addressee? = some id) (hid : g.hides id = true) :
    g.Tallies L (c.step e) (d.step (.pass 0)) := by
  rw [d.step_pass_zero]
  cases e with
  | abandon n =>
    obtain rfl := Option.some.inj he
    exact (h.later.abandonHidden hid).silent
  | answer n slot answer =>
    obtain rfl := Option.some.inj he
    exact h.later.takeHiddenAnswer hL hp hid slot answer
  | wake timer =>
    cases timer with
    | work n =>
      obtain rfl := Option.some.inj he
      have hnever : ∀ due, c.due? (.work n) = some due → ¬ due ≤ c.now := by
        simp [h.due?_hidden hid]
      rw [Controller.step_of_not_due hnever]
      exact h.later.silent
    | reset | debounce | visibility | reconciler | poller => cases he
  | call | start | shutdown | visibility | pass => cases he

theorem beginsCheck (h : (leavingOut checks).Fits L c d) (hn : c.Numbered) {origin : Origin}
    (ho : origin = .poller ∨ ∃ awaits, origin = .caller awaits) (asks : List (Nat × Request)) :
    (leavingOut (c.nextId :: checks)).Tallies L (c.launch origin .check asks) (d, []) := by
  obtain ⟨hfaithful, hhides, state, hstate, rfl⟩ := h
  have hlt := mem_lt_of_faithful hfaithful
  have hnew : (leavingOut (c.nextId :: checks)).hides c.nextId = true := by simp [leavingOut]
  refine ⟨⟨faithful_leavingOut ?_, ?_, state, hstate, ?_⟩, ?_⟩
  · rw [List.forall_mem_cons]
    exact ⟨Nat.lt_succ_self _, fun n hn => Nat.lt_succ_of_lt (hlt n hn)⟩
  · intro r hr hhidden
    rcases List.mem_append.mp hr with hr | hr
    · have hne := Nat.ne_of_lt (hn.ids_lt r hr)
      exact hhides r hr (by simpa [leavingOut, hne] using hhidden)
    · obtain rfl := List.mem_singleton.mp hr
      exact ⟨rfl, ho⟩
  · have hshown : c.running.filterMap (leavingOut (c.nextId :: checks)).running? =
        c.running.filterMap (leavingOut checks).running? :=
      List.filterMap_congr fun r hr => running?_leavingOut_cons (hn.ids_lt r hr)
    have hhidden : (leavingOut (c.nextId :: checks)).running? ⟨c.nextId, origin, .check⟩ = none :=
      running?_of_hidden _ hnew
    have hnumber : (leavingOut (c.nextId :: checks)).number (c.nextId + 1) =
        (leavingOut checks).number c.nextId := by
      rw [number_leavingOut_succ, if_pos (List.mem_cons_self ..), number_leavingOut_cons (Nat.le_refl _)]
      rfl
    simp [Controller.launch, controller, hshown, hhidden, hnumber]
  · simp [Controller.launch, List.filterMap_map, Function.comp_def, output?, hnew]

end Fits

end Guise

/-! ### Runs without their checks -/

/-- The controller without the checks of these numbers and their ticker. -/
def Controller.bare (checks : List Nat) (c : Controller) : Controller :=
  { c with
    shared := { c.shared with
      timings := { c.shared.timings with conflictPollInterval := 0 }
      state := c.state.withoutConflict }
    running := c.running.filterMap (Guise.leavingOut checks).running?
    nextId := (Guise.leavingOut checks).number c.nextId
    background := c.background.map ({ · with poller := none }) }

/-- The controller when all work under way has callers who wait for its result. -/
def Controller.attended (c : Controller) : Controller :=
  { c with running := c.running.map ({ · with origin := .caller true }) }

structure BareTurn where
  after : Controller
  outputs : List Output
  results : List Output

namespace Turn

variable (checks : List Nat) (t : Turn)

/-- The numbers of the checks once the turn is over. -/
def checksAfter : List Nat :=
  if t.event.isCheck && t.before.nextId != t.after.nextId then t.before.nextId :: checks else checks

/-- What happens in the turn to a controller without these checks: nothing, if it is to do with a check, and
time passes there as far as it does here. -/
def bareEvent : Event :=
  if t.event.isCheck || t.event.addressee?.any (· ∈ checks) then .pass 0
  else match t.event with
    | .pass ms => .pass (t.before.span ms)
    | e => (Guise.leavingOut checks).event e

/-- What the work that goes on in the turn would tell callers, whether or not there are any. -/
def results : List Output :=
  if t.event.addressee?.isSome then (t.before.attended.step t.event).2 else []

def bare : BareTurn where
  after := t.after.bare checks
  outputs := t.outputs.filterMap (Guise.leavingOut checks).output?
  results := t.results.filterMap (Guise.leavingOut checks).output?

variable {checks t}

theorem bareEvent_of_mem {id : Nat} (ha : t.event.addressee? = some id) (hid : id ∈ checks) :
    t.bareEvent checks = .pass 0 := by
  simp [bareEvent, ha, hid]

theorem bareEvent_of_not_mem {id : Nat} (ha : t.event.addressee? = some id) (hid : id ∉ checks) :
    t.bareEvent checks = (Guise.leavingOut checks).event t.event := by
  have hc := Event.isCheck_of_addressee? ha
  obtain ⟨c, e⟩ := t
  cases e with
  | pass ms => cases ha
  | call | abandon | start | shutdown | visibility | answer | wake => simp [bareEvent, ha, hc, hid]

theorem checksAfter_of_addressee? {id : Nat} (ha : t.event.addressee? = some id) :
    t.checksAfter checks = checks := by
  simp [checksAfter, Event.isCheck_of_addressee? ha]

theorem addressee?_bareEvent (ha : t.event.addressee? = none) : (t.bareEvent checks).addressee? = none := by
  unfold bareEvent
  split
  · rfl
  · split
    · rfl
    · rw [Guise.addressee?_event, ha, Option.map_none]

end Turn

/-- The events of some turns without those of checks; these checks have been begun before. -/
def bareEvents : List Nat → List Turn → List Event
  | _, [] => []
  | checks, t :: ts => t.bareEvent checks :: bareEvents (t.checksAfter checks) ts

def bareTurns : List Nat → List Turn → List BareTurn
  | _, [] => []
  | checks, t :: ts => t.bare (t.checksAfter checks) :: bareTurns (t.checksAfter checks) ts

namespace Guise.Fits

variable {checks : List Nat} {t : Turn} {d : Controller}

theorem overlooks_unchecked : Overlooks .unchecked := fun s _ report h =>
  h.trans (s.withoutConflict_applyConflict report).symm

end Guise.Fits

namespace Controller

theorem step_of_isCheck (c : Controller) {e : Event} (he : e.isCheck = true) :
    c.step e = (c.later, []) ∨ c.step e = c.later.launch (.caller true) .check [(0, .status)] ∨
      ∃ ticker, c.step e = (c.later.setPoller ticker).launch .poller .check [(0, .status)] := by
  cases e with
  | call call =>
    cases call with
    | check => exact .inr (.inl rfl)
    | switch | reload | recover | reconcile | refetch => cases he
  | wake timer =>
    cases timer with
    | poller =>
      by_cases hwoken : ∃ due, c.due? .poller = some due ∧ due ≤ c.now
      · obtain ⟨due, hd, hn⟩ := hwoken
        rw [step_wake hd hn, fire]
        split
        · exact .inr (.inr ⟨_, rfl⟩)
        · exact .inl rfl
      · exact .inl (step_of_not_due fun due hd hn => hwoken ⟨due, hd, hn⟩)
    | reset | debounce | visibility | reconciler | work => cases he
  | abandon | start | shutdown | visibility | answer | pass => cases he

end Controller

namespace Guise.Fits

variable {checks : List Nat} {t : Turn} {d : Controller}

theorem turn_of_isCheck (h : (leavingOut checks).Fits .unchecked t.before d) (hn : t.before.Numbered)
    (he : t.event.isCheck = true) :
    (leavingOut (t.checksAfter checks)).Tallies .unchecked (t.before.step t.event) (d.step (.pass 0)) := by
  have hnone : t.after.nextId = t.before.nextId → t.checksAfter checks = checks := by
    intro hnext
    simp [Turn.checksAfter, hnext]
  have hbegun : t.after.nextId = t.before.nextId + 1 →
      t.checksAfter checks = t.before.nextId :: checks := by
    intro hnext
    simp [Turn.checksAfter, hnext, he]
  rw [d.step_pass_zero]
  rcases t.before.step_of_isCheck he with hstep | hstep | ⟨ticker, hstep⟩
  · rw [hnone (congrArg (·.1.nextId) hstep), hstep]
    exact h.later.silent
  · rw [hbegun (congrArg (·.1.nextId) hstep), hstep]
    exact h.later.beginsCheck ⟨hn.ids_nodup, hn.ids_lt⟩ (.inr ⟨true, rfl⟩) _
  · rw [hbegun (congrArg (·.1.nextId) hstep), hstep]
    have hset := h.later.onPoller rfl (some ticker)
    exact hset.beginsCheck ⟨hn.ids_nodup, hn.ids_lt⟩ (.inl rfl) _

theorem turn (h : (leavingOut checks).Fits .unchecked t.before d) (hn : t.before.Numbered) :
    (leavingOut (t.checksAfter checks)).Tallies .unchecked (t.before.step t.event)
      (d.step (t.bareEvent checks)) := by
  cases he : t.event.isCheck with
  | true =>
    have hbare : t.bareEvent checks = .pass 0 := by simp [Turn.bareEvent, he]
    rw [hbare]
    exact h.turn_of_isCheck hn he
  | false =>
    have hchecks : t.checksAfter checks = checks := by simp [Turn.checksAfter, he]
    rw [hchecks]
    cases ha : t.event.addressee? with
    | some id =>
      by_cases hid : id ∈ checks
      · rw [Turn.bareEvent_of_mem ha hid]
        exact h.stepHidden overlooks_unchecked rfl ha (decide_eq_true hid)
      · rw [Turn.bareEvent_of_not_mem ha hid]
        exact h.step (shows_of_addressee? ha (decide_eq_false hid))
    | none =>
      obtain ⟨c, e⟩ := t
      simp only [Turn.bareEvent, he, ha]
      cases e with
      | pass ms => exact h.pass (h.later.span_span rfl ms)
      | call | start | shutdown | visibility => exact h.step trivial
      | abandon | answer => cases ha
      | wake timer =>
        cases timer with
        | work => cases ha
        | poller => cases he
        | reset | debounce | visibility | reconciler => exact h.step (e := .wake _) trivial

theorem attended {c : Controller} (h : (leavingOut checks).Fits .unchecked c d) :
    (leavingOut checks).Fits .unchecked c.attended d.attended := by
  obtain ⟨hfaithful, hhides, state, hstate, rfl⟩ := h
  refine ⟨hfaithful, ?_, state, hstate, ?_⟩
  · intro r' hr' hhidden
    obtain ⟨r, hr, rfl⟩ := List.mem_map.mp hr'
    exact ⟨(hhides r hr hhidden).1, .inr ⟨true, rfl⟩⟩
  · simp only [Controller.attended, controller, List.map_filterMap, List.filterMap_map]
    congr 1
    refine List.filterMap_congr fun r _ => ?_
    simp only [running?, Function.comp_apply]
    split <;> rfl

theorem results (h : (leavingOut checks).Fits .unchecked t.before d) :
    (Turn.mk d (t.bareEvent checks)).results =
      t.results.filterMap (leavingOut (t.checksAfter checks)).output? := by
  cases ha : t.event.addressee? with
  | none => simp [Turn.results, ha, Turn.addressee?_bareEvent ha]
  | some id =>
    have hresults : t.results = (t.before.attended.step t.event).2 := by simp [Turn.results, ha]
    rw [Turn.checksAfter_of_addressee? ha, hresults]
    by_cases hid : id ∈ checks
    · have hstep := h.attended.stepHidden overlooks_unchecked rfl ha (decide_eq_true hid)
      rw [← hstep.outputs, d.attended.step_pass_zero, Turn.bareEvent_of_mem ha hid]
      rfl
    · have hstep := h.attended.step (shows_of_addressee? ha (decide_eq_false hid))
      rw [← hstep.outputs, Turn.bareEvent_of_not_mem ha hid]
      simp [Turn.results, addressee?_event, ha]

end Guise.Fits

/-- A turn in which there are no checks, besides what they would leave behind. -/
def Turn.plain (t : Turn) : BareTurn where
  after := t.after.onState SyncState.withoutConflict
  outputs := t.outputs
  results := t.results

namespace Controller

variable {timings : Timings}

theorem bare_eq {checks : List Nat} {c d : Controller}
    (h : (Guise.leavingOut checks).Fits .unchecked c d) :
    c.bare checks = d.onState SyncState.withoutConflict := by
  obtain ⟨-, -, state, hstate, rfl⟩ := h
  have halike : state.withoutConflict = c.state.withoutConflict := hstate
  simp only [bare, onState, onShared, Shared.onState, Guise.controller, halike]
  rfl

theorem bareTurns_eq {checks : List Nat} {c d : Controller} (hs : c.Sound timings)
    (h : (Guise.leavingOut checks).Fits .unchecked c d) (es : List Event) :
    bareTurns checks (c.turns es) = (d.turns (bareEvents checks (c.turns es))).map Turn.plain := by
  induction es generalizing checks c d with
  | nil => rfl
  | cons e es ih =>
    let t : Turn := ⟨c, e⟩
    have hturn := Guise.Fits.turn (t := t) h hs.toNumbered
    have hbare : t.bare (t.checksAfter checks) = (Turn.mk d (t.bareEvent checks)).plain := by
      simp only [Turn.bare, Turn.plain, Turn.after, Turn.outputs]
      rw [bare_eq hturn.fits, hturn.outputs, Guise.Fits.results (t := t) h]
    change t.bare (t.checksAfter checks) :: bareTurns (t.checksAfter checks) ((c.step e).1.turns es) = _
    rw [hbare, ih (hs.step e) hturn.fits]
    rfl

theorem fits_initial (timings : Timings) (currentConfig : Option String) :
    (Guise.leavingOut []).Fits .unchecked (initial timings currentConfig)
      (initial { timings with conflictPollInterval := 0 } currentConfig) :=
  ⟨Guise.faithful_leavingOut (by simp), by simp [Guise.HidesChecks, initial], _, rfl, rfl⟩

/-- Checks only look. Let the same happen to two controllers at the same moments, with the same answers to
the status queries that workflows make for themselves, but for the checks that callers and polls make there,
each under way for as long as it takes and with any answer. Then both do the same and stay the same at
every moment, but for what checks find. -/
theorem checks_are_read_only (timings : Timings) (poll : UInt64) (currentConfig : Option String)
    (es es' : List Event) :
    let past := (initial timings currentConfig).turns es
    let past' := (initial { timings with conflictPollInterval := poll } currentConfig).turns es'
    bareEvents [] past = bareEvents [] past' → bareTurns [] past = bareTurns [] past' := by
  intro past past' hevents
  have hbare := bareTurns_eq (sound_initial timings currentConfig) (fits_initial timings currentConfig) es
  have hbare' := bareTurns_eq (sound_initial _ _)
    (fits_initial { timings with conflictPollInterval := poll } currentConfig) es'
  rw [hbare, hbare', ← hevents]

/-- A poll and a call find two cores while a reload fails, which goes as it would have without them. -/
theorem checks_beside_failing_reload :
    let c := initial Timings.standard none
    let core (pid : UInt32) : Instance := ⟨pid, "core", none, true⟩
    let status : Answer := .status (.ok ⟨[core 1, core 2], .null, .unknown⟩)
    let failure : Answer := .restart (.error .notConfigured)
    let checked : List Event := [.start, .wake .poller, .call .reload, .call .check, .answer 0 0 status,
      .answer 2 0 status, .answer 1 0 failure]
    let unchecked : List Event := [.start, .pass 0, .call .reload, .pass 0, .pass 0, .pass 0,
      .answer 0 0 failure]
    bareEvents [] (c.turns checked) = bareEvents [] (c.turns unchecked) ∧
      bareTurns [] (c.turns checked) = bareTurns [] (c.turns unchecked) ∧
      (c.run checked).1.snapshot.multiCoreWarning = true ∧
      (c.run unchecked).1.snapshot.multiCoreWarning = false ∧
      (c.run checked).1.snapshot.switchError = some Error.notConfigured.message := by
  intro c core status failure checked unchecked
  have hchecked : bareEvents [] (c.turns checked) = unchecked := rfl
  have hunchecked : bareEvents [] (c.turns unchecked) = unchecked := rfl
  have hevents := hchecked.trans hunchecked.symm
  exact ⟨hevents, checks_are_read_only Timings.standard Timings.standard.conflictPollInterval none checked
    unchecked hevents, rfl, rfl, rfl⟩

end Controller

end CoreWarden
