import CoreWarden.Proofs.Controller.Breakdown
import CoreWarden.Proofs.Controller.Guise
import CoreWarden.Proofs.Controller.TickCourse

/-!
A reconciliation under way is seen by nobody. What it has fetched so far makes no difference to anything
else that happens: `Masks.step` says it of one event, for a controller and for the same one in which
nothing was answered to the reconciliation.
-/
namespace CoreWarden

/-- Nothing has been answered to the reconciliation of this number. -/
def Running.mask (n : Nat) (r : Running) : Running :=
  if r.id == n then { r with work := .reconcile .start } else r

namespace Running

variable {n : Nat}

@[simp] theorem id_mask (r : Running) : (r.mask n).id = r.id := by
  unfold mask
  split <;> rfl

@[simp] theorem origin_mask (r : Running) : (r.mask n).origin = r.origin := by
  unfold mask
  split <;> rfl

theorem mask_of_ne {r : Running} (h : r.id ≠ n) : r.mask n = r := if_neg (by simpa using h)

theorem mask_of_work {r : Running} (h : r.id = n → r.work = .reconcile .start) : r.mask n = r := by
  by_cases hid : r.id = n
  · obtain ⟨id, origin, work⟩ := r
    obtain rfl : work = .reconcile .start := h hid
    unfold mask
    split <;> rfl
  · exact mask_of_ne hid

end Running

namespace Controller

def mask (c : Controller) (n : Nat) : Controller := c.replaceWork n (.reconcile .start)

theorem running_mask (c : Controller) (n : Nat) : (c.mask n).running = c.running.map (Running.mask n) :=
  rfl

theorem mask_replaceWork (c : Controller) (n : Nat) (work : Work) :
    (c.replaceWork n work).mask n = c.mask n := by
  simp only [mask, replaceWork, List.map_map]
  congr 1
  refine List.map_congr_left fun r _ => ?_
  by_cases hid : r.id = n <;> simp [hid]

theorem mask_eq {c : Controller} {n : Nat}
    (h : ∀ r ∈ c.running, r.id = n → r.work = .reconcile .start) : c.mask n = c := by
  have hrunning : c.running.map (Running.mask n) = c.running :=
    (List.map_congr_left fun r hr => Running.mask_of_work (h r hr)).trans (List.map_id' _)
  exact congrArg (fun running => { c with running }) hrunning

end Controller

/-- The second controller is the first one, but for what was answered to a reconciliation. -/
structure Masks (n : Nat) (c d : Controller) : Prop where
  same : d = c.mask n
  begun : n < c.nextId
  ticks : ∀ r ∈ c.running, r.id = n → ∃ tick, r.work = .reconcile tick

/-- The second controller comes out as the first one, but for the reconciliation, and has done the same. -/
structure Masks.Both (n : Nat) (out out' : Controller × List Output) : Prop where
  masks : Masks n out.1 out'.1
  outputs : out'.2 = out.2

namespace Masks

variable {n : Nat} {c d : Controller}

theorem silent (h : Masks n c d) : Both n (c, []) (d, []) := ⟨h, rfl⟩

theorem shared (h : Masks n c d) : d.shared = c.shared := by rw [h.same]; rfl

theorem state (h : Masks n c d) : d.state = c.state := congrArg Shared.state h.shared

theorem observedShape (h : Masks n c d) : d.observedShape = c.observedShape := by rw [h.same]; rfl

theorem background (h : Masks n c d) : d.background = c.background := by rw [h.same]; rfl

theorem now (h : Masks n c d) : d.now = c.now := congrArg Shared.now h.shared

theorem find? (h : Masks n c d) (id : Nat) : d.find? id = (c.find? id).map (Running.mask n) := by
  have hid : (fun r : Running => r.id == id) ∘ Running.mask n = fun r => r.id == id :=
    funext fun r => by simp
  rw [h.same, Controller.find?, Controller.running_mask, List.find?_map, hid]
  rfl

theorem find?_of_ne (h : Masks n c d) {id : Nat} (hid : id ≠ n) : d.find? id = c.find? id := by
  rw [h.find?]
  cases hr : c.find? id with
  | none => rfl
  | some r =>
    have hne : r.id ≠ n := Controller.id_of_find? hr ▸ hid
    rw [Option.map_some, Running.mask_of_ne hne]

theorem isRunning (h : Masks n c d) (origin : Origin) : d.isRunning origin = c.isRunning origin := by
  rw [h.same, Controller.isRunning, Controller.running_mask, List.any_map]
  simp [Controller.isRunning, Function.comp_def]

theorem due?_mask (h : Masks n c d) {r : Running} (hr : r ∈ c.running) :
    (r.mask n).work.due? = r.work.due? := by
  by_cases hid : r.id = n
  · obtain ⟨tick, hw⟩ := h.ticks r hr hid
    rw [hw]
    simp [Running.mask, hid, Work.due?]
  · rw [Running.mask_of_ne hid]

theorem activity?_mask (h : Masks n c d) {r : Running} (hr : r ∈ c.running) :
    (r.mask n).work.activity? = r.work.activity? := by
  by_cases hid : r.id = n
  · obtain ⟨tick, hw⟩ := h.ticks r hr hid
    rw [hw]
    simp [Running.mask, hid, Work.activity?]
  · rw [Running.mask_of_ne hid]

theorem due? (h : Masks n c d) (timer : Timer) : d.due? timer = c.due? timer := by
  cases timer with
  | reset => exact congrArg (·.reset.due?) h.state
  | debounce | visibility =>
    rw [h.same]
    rfl
  | reconciler | poller =>
    simp only [Controller.due?]
    rw [h.isRunning, h.background]
  | work id =>
    simp only [Controller.due?]
    rw [h.find?]
    cases hr : c.find? id with
    | none => rfl
    | some r => exact h.due?_mask (Controller.mem_of_find? hr)

theorem span (h : Masks n c d) (ms : Nat) : d.span ms = c.span ms := by
  have htimers : d.timers = c.timers := by
    rw [h.same, Controller.timers, Controller.running_mask, List.map_map]
    simp [Controller.timers, Function.comp_def]
  have hdues : d.dues = c.dues := by
    rw [Controller.dues, Controller.dues, htimers]
    exact List.filterMap_congr fun timer _ => h.due? timer
  rw [Controller.span, Controller.span, hdues, h.now]

/-! ### What changes on both sides -/

theorem onShared (h : Masks n c d) (f : Shared → Shared) : Masks n (c.onShared f) (d.onShared f) := by
  obtain ⟨rfl, hbegun, hticks⟩ := h
  exact ⟨rfl, hbegun, hticks⟩

theorem withShared (h : Masks n c d) (shared : Shared) :
    Masks n { c with shared } { d with shared } :=
  h.onShared fun _ => shared

theorem onState (h : Masks n c d) (f : SyncState → SyncState) : Masks n (c.onState f) (d.onState f) :=
  h.onShared _

theorem later (h : Masks n c d) : Masks n c.later d.later := h.onShared _

theorem withDebounce (h : Masks n c d) (slot : TimerSlot Unit) :
    Masks n { c with debounce := slot } { d with debounce := slot } := by
  obtain ⟨rfl, hbegun, hticks⟩ := h
  exact ⟨rfl, hbegun, hticks⟩

theorem withVisibility (h : Masks n c d) (slot : TimerSlot Unit) :
    Masks n { c with visibility := slot } { d with visibility := slot } := by
  obtain ⟨rfl, hbegun, hticks⟩ := h
  exact ⟨rfl, hbegun, hticks⟩

theorem withBackground (h : Masks n c d) (background : Option Background) :
    Masks n { c with background } { d with background } := by
  obtain ⟨rfl, hbegun, hticks⟩ := h
  exact ⟨rfl, hbegun, hticks⟩

theorem withObservedShape (h : Masks n c d) (observedShape : Option GroupShape) :
    Masks n { c with observedShape } { d with observedShape } := by
  obtain ⟨rfl, hbegun, hticks⟩ := h
  exact ⟨rfl, hbegun, hticks⟩

/-- The reconciliation holds the same activity whatever was answered to it. -/
theorem drop (h : Masks n c d) {p : Running → Bool} (hp : ∀ r : Running, p (r.mask n) = p r) :
    Masks n (c.drop p) (d.drop p) := by
  have hactivities : (d.running.filter p).filterMap (·.work.activity?) =
      (c.running.filter p).filterMap (·.work.activity?) := by
    rw [h.same, Controller.running_mask, List.filter_map, List.filterMap_map,
      show p ∘ Running.mask n = p from funext hp]
    exact List.filterMap_congr fun r hr => h.activity?_mask (List.mem_filter.mp hr).1
  have hkept : d.running.filter (!p ·) = (c.running.filter (!p ·)).map (Running.mask n) := by
    rw [h.same, Controller.running_mask, List.filter_map]
    simp [Function.comp_def, hp]
  refine ⟨?_, h.begun, fun r hr => h.ticks r (List.mem_filter.mp hr).1⟩
  unfold Controller.drop
  rw [hactivities, hkept, h.same]
  rfl

theorem dropId (h : Masks n c d) (id : Nat) : Masks n (c.drop (·.id == id)) (d.drop (·.id == id)) :=
  h.drop fun r => by simp

theorem abort (h : Masks n c d) (origin : Origin) : Masks n (c.abort origin) (d.abort origin) :=
  h.drop fun r => by simp

theorem update (h : Masks n c d) {id : Nat} (hid : id ≠ n) {f : Running → Running}
    (hf : ∀ r, (f r).id = r.id) :
    Masks n { c with running := c.running.map fun r => if r.id == id then f r else r }
      { d with running := d.running.map fun r => if r.id == id then f r else r } := by
  refine ⟨?_, h.begun, ?_⟩
  · rw [h.same]
    simp only [Controller.mask, Controller.replaceWork, List.map_map]
    congr 1
    refine List.map_congr_left fun r _ => ?_
    by_cases hn : r.id = n
    · simp [hn, Ne.symm hid]
    · by_cases he : r.id = id
      · simp [he, hf, hid]
      · simp [hn, he]
  · intro r hr hn
    obtain ⟨r₀, hr₀, rfl⟩ := List.mem_map.mp hr
    split at hn
    · next he => exact absurd ((beq_iff_eq.mp he).symm.trans ((hf r₀).symm.trans hn)) hid
    · next he =>
      rw [if_neg he]
      exact h.ticks r₀ hr₀ hn

theorem replaceWork (h : Masks n c d) {id : Nat} (hid : id ≠ n) (work : Work) :
    Masks n (c.replaceWork id work) (d.replaceWork id work) :=
  h.update hid fun _ => rfl

theorem launch (h : Masks n c d) (origin : Origin) (work : Work) (asks : List (Nat × Request)) :
    Both n (c.launch origin work asks) (d.launch origin work asks) := by
  obtain ⟨rfl, hbegun, hticks⟩ := h
  refine ⟨⟨?_, Nat.lt_succ_of_lt hbegun, ?_⟩, rfl⟩
  · have hnew : c.nextId ≠ n := Nat.ne_of_gt hbegun
    simp [Controller.launch, Controller.mask, Controller.replaceWork, hnew]
  · intro r hr hid
    rcases List.mem_append.mp hr with hr | hr
    · exact hticks r hr hid
    · obtain rfl := List.mem_singleton.mp hr
      exact absurd hid (Nat.ne_of_gt hbegun)

theorem answerAtOnce (h : Masks n c d) (result : Result) :
    Both n (c.answerAtOnce result) (d.answerAtOnce result) := by
  obtain ⟨rfl, hbegun, hticks⟩ := h
  exact ⟨⟨rfl, Nat.lt_succ_of_lt hbegun, hticks⟩, rfl⟩

theorem finish (h : Masks n c d) (r : Running) (result : Result) :
    Both n (c.finish r result) (d.finish r result) :=
  ⟨h.dropId r.id, rfl⟩

theorem scheduleRefresh (h : Masks n c d) : Masks n c.scheduleRefresh d.scheduleRefresh := by
  have haborted := h.abort .debounce
  have hslot : (d.abort .debounce).debounce.replace (d.abort .debounce).now
      (d.abort .debounce).shared.timings.invalidateDebounce.toNat () =
        (c.abort .debounce).debounce.replace (c.abort .debounce).now
          (c.abort .debounce).shared.timings.invalidateDebounce.toNat () := by
    rw [haborted.now, haborted.shared]
    rfl
  unfold Controller.scheduleRefresh
  dsimp only
  rw [hslot]
  exact haborted.withDebounce _

theorem conclude (h : Masks n c d) (f : Tick.Finding) : Masks n (c.conclude f) (d.conclude f) := by
  have hshape := h.withObservedShape (f.shape.or c.observedShape)
  have hrecord : ∀ {c d : Controller}, Masks n c d →
      Masks n (c.onState (·.recordReconcile c.shared.wall)) (d.onState (·.recordReconcile d.shared.wall)) := by
    intro c d h
    rw [h.shared]
    exact h.onState _
  unfold Controller.conclude
  rw [h.observedShape]
  obtain ⟨shape, reported, outcome⟩ := f
  apply hrecord
  cases outcome with
  | changed | fetchFailed =>
    apply scheduleRefresh
    cases reported with
    | none => exact hshape
    | some id => exact hshape.onState _
  | skipped | unchanged =>
    cases reported with
    | none => exact hshape
    | some id => exact hshape.onState _

/-! ### What is begun -/

theorem startTick (h : Masks n c d) (origin : Origin) :
    Both n (c.startTick origin) (d.startTick origin) := by
  have hskipped := h.onState .recordSkippedTick
  unfold Controller.startTick
  rw [h.state]
  split
  · next state _ =>
    rw [h.shared]
    exact (h.withShared { c.shared with state }).launch origin _ _
  · cases origin with
    | caller awaits => exact hskipped.answerAtOnce _
    | debounce | visibility | reconciler | poller => exact hskipped.silent

theorem startSwitch (h : Masks n c d) (id : String) : Both n (c.startSwitch id) (d.startSwitch id) := by
  have hcurrent : d.snapshot = c.snapshot := congrArg SyncState.snapshot h.state
  unfold Controller.startSwitch
  split
  · exact h.answerAtOnce _
  · rw [hcurrent]
    split
    · exact h.answerAtOnce _
    · rw [h.state]
      split
      · exact h.answerAtOnce _
      · next state _ =>
        rw [h.shared]
        exact (h.withShared _).launch _ _ _

theorem startReload (h : Masks n c d) : Both n c.startReload d.startReload := by
  unfold Controller.startReload
  rw [h.state]
  split
  · exact h.answerAtOnce _
  · rw [h.shared]
    exact (h.withShared _).launch _ _ _

theorem startRecovery (h : Masks n c d) : Both n c.startRecovery d.startRecovery := by
  have hsnapshot : d.snapshot = c.snapshot := congrArg SyncState.snapshot h.state
  unfold Controller.startRecovery
  rw [h.state, hsnapshot, h.shared]
  split
  · exact h.answerAtOnce _
  · split
    · exact (h.onState _).answerAtOnce _
    · split
      · exact h.answerAtOnce _
      · exact (h.withShared _).launch _ _ _

theorem startCall (h : Masks n c d) (call : Call) : Both n (c.startCall call) (d.startCall call) := by
  cases call with
  | switch id => exact h.startSwitch id
  | reload => exact h.startReload
  | recover => exact h.startRecovery
  | check => exact h.launch _ _ _
  | reconcile => exact h.startTick _
  | refetch key => exact h.launch _ _ _

theorem startDebounced (h : Masks n c d) : Both n c.startDebounced d.startDebounced := by
  have hempty := h.withDebounce .empty
  unfold Controller.startDebounced
  dsimp only
  rw [hempty.state]
  split
  · exact hempty.silent
  · rw [h.shared]
    exact (hempty.withShared _).launch _ _ _

/-! ### What goes on -/

theorem proceed (h : Masks n c d) {r : Running} (hr : r.id ≠ n) {φ ρ : Type} (point : φ → Work)
    (result : ρ → Result) (step : Shared × Progress φ ρ) :
    Both n (c.proceed r point result step) (d.proceed r point result step) := by
  obtain ⟨s, progress⟩ := step
  cases progress with
  | waiting phase asks => exact ⟨(h.withShared s).replaceWork hr (point phase), rfl⟩
  | done value => exact (h.withShared s).finish r (result value)

theorem resume (h : Masks n c d) {r : Running} (hr : r.id ≠ n) (signal : Signal) :
    Both n (c.resume r signal) (d.resume r signal) := by
  obtain rfl := h.same
  unfold Controller.resume
  split
  · exact h.proceed hr _ _ _
  · exact h.proceed hr _ _ _
  · exact h.proceed hr _ _ _
  · split
    · exact (h.withShared _).finish r _
    · exact h.silent
  · next tick _ =>
    dsimp only
    split
    · exact (h.conclude _).finish r _
    · exact (h.replaceWork hr _).silent
  · split
    · split
      · exact (h.onShared _).finish r _
      · exact h.finish r _
      · exact h.silent
    · exact h.silent
  · next refresh _ =>
    dsimp only
    rw [h.shared]
    split
    · exact ((h.withShared _).dropId r.id).silent
    · exact ((h.withShared _).replaceWork hr _).silent

theorem stopTicker (h : Masks n c d) (origin : Origin) :
    Masks n (c.stopTicker origin) (d.stopTicker origin) := by
  unfold Controller.stopTicker
  rw [h.background]
  split
  · exact h.withBackground _
  · exact h.withBackground _
  · exact h

theorem collapse (h : Masks n c d) (r : Running) : Both n (c.collapse r) (d.collapse r) :=
  ⟨(h.stopTicker r.origin).dropId r.id, rfl⟩

theorem takeAnswer (h : Masks n c d) {id : Nat} (hid : id ≠ n) (slot : Nat) (answer : Answer) :
    Both n (c.takeAnswer id slot answer) (d.takeAnswer id slot answer) := by
  unfold Controller.takeAnswer
  rw [h.find?_of_ne hid]
  split
  · exact h.silent
  · next r hr =>
    have hr' : r.id ≠ n := Controller.id_of_find? hr ▸ hid
    split
    · split
      · exact h.collapse r
      · exact h.resume hr' _
    · exact h.silent

theorem abandon (h : Masks n c d) (id : Nat) : Masks n (c.abandon id) (d.abandon id) := by
  by_cases hid : id = n
  · subst hid
    unfold Controller.abandon
    rw [h.find?]
    cases hr : c.find? id with
    | none => exact h
    | some r =>
      obtain ⟨tick, hw⟩ := h.ticks r (Controller.mem_of_find? hr) (Controller.id_of_find? hr)
      obtain ⟨m, origin, work⟩ := r
      obtain rfl : work = .reconcile tick := hw
      obtain rfl : m = id := Controller.id_of_find? hr
      simp only [Option.map_some, Running.mask, beq_self_eq_true, if_true]
      cases origin with
      | caller awaits => exact h.dropId m
      | debounce | visibility | reconciler | poller => exact h
  · unfold Controller.abandon
    rw [h.find?_of_ne hid]
    split
    · split
      · exact h.update hid fun _ => rfl
      · exact h.dropId id
    · exact h

/-! ### What comes by itself -/

theorem startBackground (h : Masks n c d) : Masks n c.startBackground d.startBackground := by
  obtain rfl := h.same
  unfold Controller.startBackground
  rw [h.background]
  split
  · exact h
  · exact h.withBackground _

theorem shutdown (h : Masks n c d) : Masks n c.shutdown d.shutdown := by
  have haborted := (((h.abort .reconciler).abort .poller).abort .debounce).abort .visibility
  exact (((haborted.withBackground none).withDebounce .empty).withVisibility .empty).onState .shutdown

theorem changeVisibility (h : Masks n c d) (visible : Bool) :
    Masks n (c.changeVisibility visible) (d.changeVisibility visible) := by
  unfold Controller.changeVisibility
  rw [h.shared, h.isRunning]
  dsimp only
  split
  · split
    · exact ((h.onState .recordSkippedTick).abort .visibility).withVisibility _
    · have haborted := h.abort .visibility
      rw [haborted.now]
      exact haborted.withVisibility _
  · exact (h.abort .visibility).withVisibility _

theorem fire (h : Masks n c d) {timer : Timer} (ht : timer ≠ .work n) :
    Both n (c.fire timer) (d.fire timer) := by
  cases timer with
  | reset =>
    simp only [Controller.fire]
    rw [h.now]
    exact (h.onState _).silent
  | debounce => exact h.startDebounced
  | visibility => exact (h.withVisibility .empty).startTick _
  | reconciler =>
    obtain rfl := h.same
    simp only [Controller.fire]
    rw [h.background]
    split
    · exact (h.withBackground _).startTick _
    · exact h.silent
  | poller =>
    obtain rfl := h.same
    simp only [Controller.fire]
    rw [h.background]
    split
    · exact (h.withBackground _).launch _ _ _
    · exact h.silent
  | work id =>
    have hid : id ≠ n := fun he => ht (congrArg Timer.work he)
    simp only [Controller.fire]
    rw [h.find?_of_ne hid]
    split
    · next r hr => exact h.resume (Controller.id_of_find? hr ▸ hid) _
    · exact h.silent

theorem due?_work (h : Masks n c d) : c.due? (.work n) = none := by
  simp only [Controller.due?]
  cases hr : c.find? n with
  | none => rfl
  | some r =>
    obtain ⟨tick, hw⟩ := h.ticks r (Controller.mem_of_find? hr) (Controller.id_of_find? hr)
    simp [hw, Work.due?]

theorem wake (h : Masks n c d) (timer : Timer) : Both n (c.step (.wake timer)) (d.step (.wake timer)) := by
  have hdue := h.due? timer
  by_cases hwoken : ∃ due, c.due? timer = some due ∧ due ≤ c.now
  · obtain ⟨due, hd, hn⟩ := hwoken
    have ht : timer ≠ .work n := by
      rintro rfl
      rw [h.due?_work] at hd
      cases hd
    rw [Controller.step_wake hd hn, Controller.step_wake (hdue.trans hd) (h.now ▸ hn)]
    exact h.later.fire ht
  · have hearly : ∀ due, c.due? timer = some due → ¬ due ≤ c.now := fun due hd hn =>
      hwoken ⟨due, hd, hn⟩
    rw [Controller.step_of_not_due hearly, Controller.step_of_not_due]
    · exact h.later.silent
    · rw [hdue, h.now]
      exact hearly

theorem step (h : Masks n c d) {e : Event} (he : ∀ slot answer, e ≠ .answer n slot answer) :
    Both n (c.step e) (d.step e) := by
  cases e with
  | call call => exact h.later.startCall call
  | abandon id => exact (h.later.abandon id).silent
  | start => exact h.later.startBackground.silent
  | shutdown => exact h.later.shutdown.silent
  | visibility visible => exact (h.later.changeVisibility visible).silent
  | answer id slot answer =>
    exact h.later.takeAnswer (fun hid => he slot answer (congrArg (Event.answer · slot answer) hid)) slot answer
  | wake timer => exact h.wake timer
  | pass ms =>
    have hpassed := h.later.onShared fun s => { s with now := s.now + c.later.span ms }
    change Both n (_, []) (d.later.onShared fun s => { s with now := s.now + d.later.span ms }, [])
    rw [h.later.span]
    exact hpassed.silent

end Masks

/-- The fetches of a reconciliation are not answered; a moment passes instead. -/
def Event.mute (n : Nat) : Event → Event
  | .answer id slot reply => if id = n then .pass 0 else .answer id slot reply
  | e => e

theorem Event.mute_of_ne {n : Nat} {e : Event} (h : ∀ slot reply, e ≠ .answer n slot reply) :
    e.mute n = e := by
  cases e with
  | answer id slot reply =>
    have hid : id ≠ n := by
      rintro rfl
      exact h slot reply rfl
    simp [mute, hid]
  | _ => rfl

namespace Controller

variable {timings : Timings} {c : Controller} {r : Running} {tick : Tick}

/-- An answer after which a reconciliation still goes on has told nobody but it. -/
theorem mask_of_answer (hs : c.Sound timings) (hr : r ∈ c.running) (hw : r.work = .reconcile tick)
    (slot : Nat) (answer : Answer)
    (hgoes : ∃ r' ∈ (c.step (.answer r.id slot answer)).1.running, r'.id = r.id) :
    (c.step (.answer r.id slot answer)).1.mask r.id = c.later.mask r.id := by
  have hfind : c.later.find? r.id = some r := hs.later.find?_eq_some hr
  have hdropped : ∀ {c' : Controller}, ¬ ∃ r' ∈ (c'.drop (·.id == r.id)).running, r'.id = r.id := by
    rintro c' ⟨r', hr', hid⟩
    simpa [hid] using (List.mem_filter.mp hr').2
  have hstep : c.step (.answer r.id slot answer) = c.later.takeAnswer r.id slot answer := rfl
  rw [hstep] at hgoes ⊢
  revert hgoes
  unfold takeAnswer
  rw [hfind]
  dsimp only
  split
  · split
    · intro hgoes
      exact absurd hgoes hdropped
    · unfold resume
      simp only [hw]
      split
      · intro hgoes
        exact absurd hgoes hdropped
      · intro
        exact mask_replaceWork _ _ _
  · intro
    rfl

theorem step_mute_of_le (hs : c.Sound timings) {n : Nat} (hn : c.nextId ≤ n) (e : Event) :
    c.step (e.mute n) = c.step e := by
  by_cases he : ∃ slot reply, e = .answer n slot reply
  · obtain ⟨slot, reply, rfl⟩ := he
    have hgone : ∀ r ∈ c.running, r.id ≠ n := fun r hr =>
      Nat.ne_of_lt (Nat.lt_of_lt_of_le (hs.ids_lt r hr) hn)
    rw [step_of_gone hgone, Event.mute, if_pos rfl, step_pass_zero]
  · rw [Event.mute_of_ne fun slot reply h => he ⟨slot, reply, h⟩]

/-- A run up to the middle of a reconciliation, and the same run in which nothing is answered to it: the
controllers are the same but for the reconciliation. -/
theorem masks_run (timings : Timings) (currentConfig : Option String) (es : List Event) :
    let c := initial timings currentConfig
    (∀ n, (c.run es).1.nextId ≤ n → (c.run (es.map (·.mute n))).1 = (c.run es).1) ∧
      ∀ r ∈ (c.run es).1.running, ∀ tick, r.work = .reconcile tick →
        Masks r.id (c.run es).1 (c.run (es.map (·.mute r.id))).1 := by
  intro c
  induction es using List.reverseRecOn with
  | nil =>
    refine ⟨fun _ _ => rfl, fun r hr => ?_⟩
    cases hr
  | append_singleton es e ih =>
    have hs : (c.run es).1.Sound timings := (sound_initial timings currentConfig).run es
    let t : Turn := ⟨(c.run es).1, e⟩
    obtain ⟨hbefore, hduring⟩ := ih
    simp only [List.map_append, List.map_cons, List.map_nil, run_snoc]
    have hfresh : ∀ n, (c.run es).1.nextId ≤ n →
        ((c.run (es.map (·.mute n))).1.step (e.mute n)).1 = t.after := by
      intro n hn
      rw [hbefore n hn, step_mute_of_le hs hn]
      rfl
    refine ⟨fun n hn => hfresh n (Nat.le_trans (nextId_le_of_turn t) hn), ?_⟩
    intro r hr tick hw
    have hbegun : r.id < t.after.nextId := (hs.step e).ids_lt r hr
    have hticks : ∀ r' ∈ t.after.running, r'.id = r.id → ∃ tick, r'.work = .reconcile tick := by
      intro r' hr' hid
      obtain rfl := (hs.step e).eq_of_id hr' hr hid
      exact ⟨tick, hw⟩
    rcases Turn.tick_before_or_begins (t := t) hs hr hw with ⟨r₀, hr₀, hid, tick₀, hw₀⟩ | ⟨hbegins, rfl⟩
    · have hmasks := hduring r₀ hr₀ tick₀ hw₀
      rw [hid] at hmasks
      by_cases he : ∃ slot reply, e = .answer r.id slot reply
      · obtain ⟨slot, reply, rfl⟩ := he
        refine ⟨?_, hbegun, hticks⟩
        have hmask := mask_of_answer hs hr₀ hw₀ slot reply
        rw [hid] at hmask
        rw [hmask ⟨r, hr, rfl⟩, Event.mute, if_pos rfl, step_pass_zero]
        exact hmasks.later.same
      · have hother : ∀ slot reply, e ≠ .answer r.id slot reply := fun slot reply h => he ⟨slot, reply, h⟩
        rw [Event.mute_of_ne hother]
        exact (hmasks.step hother).masks
    · refine ⟨?_, hbegun, hticks⟩
      rw [hfresh r.id (Nat.le_of_eq hbegins.fresh), mask_eq]
      · rfl
      · intro r' hr' hid
        obtain rfl := (hs.step e).eq_of_id hr' hr hid
        exact hw

end Controller

end CoreWarden
