import CoreWarden.Proofs.Controller.Bystander
import CoreWarden.Proofs.Controller.Certificate
import CoreWarden.Proofs.Controller.SourceOfTruth
import CoreWarden.Proofs.Controller.WorkflowEnds

/-!
The course of a reconciliation. It begins while nothing is going on, waits for both its fetches, and
concludes with the second answer, unless it is called off or taken along before. Everything that it
leaves behind it leaves when it concludes.
-/
namespace CoreWarden

open Controller (Hears Act Resumed)
open Time (pauseEnd)

/-- What outlasts a piece of work: all that is remembered, apart from the activity and the work that
goes on. -/
structure Lasting where
  snapshot : Snapshot
  reset : TimerSlot Unit
  cache : Cache
  observedShape : Option GroupShape
  debounce : TimerSlot Unit

@[simp] theorem Snapshot.withActivity_withActivity (s : Snapshot) (a b : Activity) :
    (s.withActivity a).withActivity b = s.withActivity b := rfl

namespace Controller

def lasting (c : Controller) : Lasting :=
  ⟨c.snapshot.withActivity .idle, c.state.reset, c.cache, c.observedShape, c.debounce⟩

@[simp] theorem lasting_later (c : Controller) : c.later.lasting = c.lasting := rfl

@[simp] theorem lasting_replaceWork (c : Controller) (id : Nat) (work : Work) :
    (c.replaceWork id work).lasting = c.lasting := rfl

theorem work_of_mem_replaceWork {c : Controller} {id : Nat} {work : Work} {r : Running}
    (hr : r ∈ (c.replaceWork id work).running) (hid : r.id = id) : r.work = work := by
  obtain ⟨r₀, -, rfl⟩ := List.mem_map.mp hr
  by_cases hid₀ : r₀.id = id
  · simp [hid₀]
  · simp [hid₀] at hid

theorem lasting_drop (c : Controller) (p : Running → Bool) : (c.drop p).lasting = c.lasting := by
  have hsnapshot : (c.drop p).snapshot.withActivity .idle = c.snapshot.withActivity .idle := by
    refine state_drop (fun s => s.snapshot.withActivity .idle) (fun s a => ?_) c p
    rw [SyncState.snapshot_leave]
    split <;> rfl
  have hreset : (c.drop p).state.reset = c.state.reset :=
    state_drop SyncState.reset SyncState.reset_leave c p
  unfold lasting
  rw [hsnapshot, hreset]
  rfl

theorem lasting_abort (c : Controller) (origin : Origin) : (c.abort origin).lasting = c.lasting :=
  c.lasting_drop _

theorem lasting_shutdown (c : Controller) :
    c.shutdown.lasting = { c.lasting with reset := .empty, debounce := .empty } := by
  have haborted : ((((c.abort .reconciler).abort .poller).abort .debounce).abort .visibility).lasting =
      c.lasting := by
    rw [lasting_abort, lasting_abort, lasting_abort, lasting_abort]
  exact congrArg (fun l : Lasting => { l with reset := .empty, debounce := .empty }) haborted

theorem not_mem_shutdown {c : Controller} {r : Running} (ho : ∀ awaits, r.origin ≠ .caller awaits) :
    r ∉ c.shutdown.running := by
  intro hr
  have haborted : r ∈ ((((c.abort .reconciler).abort .poller).abort .debounce).abort
      .visibility).running := hr
  simp only [abort, drop, onState, onShared, List.mem_filter] at haborted
  cases horigin : r.origin with
  | caller awaits => exact ho awaits horigin
  | _ => simp [horigin] at haborted

theorem begins_of_act {c : Controller} (hs : c.Exclusive) {e : Event} {out : Controller × List Output}
    (h : Act c e out) {r : Running} (hr : r ∈ out.1.running) (hnew : r.id = c.nextId)
    (ha : r.work.activity?.isSome = true) :
    ∃ origin c' s', Onset c e origin c' ∧ c.state.activity = .idle ∧ Opening c.shared e r.work s' ∧
      out = { c' with shared := s' }.launch origin r.work r.work.awaits := by
  have hold : ∀ r' ∈ c.running, r'.id ≠ c.nextId := fun r' hr' => Nat.ne_of_lt (hs.ids_lt r' hr')
  cases h with
  | begins ho hi hw =>
    obtain ⟨-, hrun, hid, -⟩ := ho.frame
    simp only [launch, hrun, hid, List.mem_append, List.mem_singleton] at hr
    rcases hr with hr | rfl
    · exact absurd hnew (hold r hr)
    · exact ⟨_, _, _, ho, hi, hw, rfl⟩
  | joins ho hw =>
    obtain ⟨-, hrun, hid, -⟩ := ho.frame
    simp only [launch, hrun, hid, List.mem_append, List.mem_singleton] at hr
    rcases hr with hr | rfl
    · exact absurd hnew (hold r hr)
    · cases hw <;> cases ha
  | nothing | refused | exhausted | skippedCall | droppedRefresh | expired | passed =>
    exact absurd hnew (hold r hr)
  | skippedTick ho =>
    obtain ⟨-, hrun, -, -⟩ := ho.frame
    exact absurd hnew (hold r (hrun ▸ hr))
  | started => exact absurd hnew (hold r (c.running_startBackground ▸ hr))
  | shutDown => exact absurd hnew (hold r (mem_of_mem_shutdown hr))
  | visibility => exact absurd hnew (hold r (mem_of_mem_changeVisibility hr))
  | abandoned => exact absurd hnew (hold r (mem_of_mem_drop hr))
  | @collapsed r₀ =>
    have hr' : r ∈ (c.stopTicker r₀.origin).running := mem_of_mem_drop hr
    exact absurd hnew (hold r (c.running_stopTicker r₀.origin ▸ hr'))
  | detached =>
    obtain ⟨r₀, hr₀, rfl⟩ := List.mem_map.mp hr
    refine absurd hnew ?_
    split <;> exact hold r₀ hr₀
  | @resumed _ r₀ signal _ hears ho =>
    cases ho with
    | nothing => exact absurd hnew (hold r hr)
    | advance =>
      obtain ⟨r₁, hr₁, rfl⟩ := List.mem_map.mp hr
      refine absurd hnew ?_
      split <;> exact hold r₁ hr₁
    | ending => exact absurd hnew (hold r (mem_of_mem_drop (c := { c with shared := _ }) hr))
    | conclusion => exact absurd hnew (hold r (mem_of_mem_conclude (mem_of_mem_drop hr)))

end Controller

namespace Turn

/-- A reconciliation begins: it takes the activity, asks for the profiles and for the proxies, and does
nothing else. -/
structure BeginsTick (t : Turn) (n : Nat) : Prop where
  fresh : t.before.nextId = n
  idle : t.before.state.activity = .idle
  lasting : t.after.lasting = t.before.lasting
  outputs : t.outputs = [.ask n 0 .list, .ask n 1 .proxies]

/-- A reconciliation is called off: its caller goes away, a change of visibility takes the place of the
one that it was asked for by, or all periodic work ends. -/
inductive CallsOff (t : Turn) (r : Running) : Prop
  | abandoned {awaits} (he : t.event = .abandon r.id) (ho : r.origin = .caller awaits)
  | visibility {visible} (he : t.event = .visibility visible) (ho : r.origin = .visibility)
  | shutDown (he : t.event = .shutdown) (ho : ∀ awaits, r.origin ≠ .caller awaits)

def IsDeaf (t : Turn) (n : Nat) : Prop :=
  ∀ r signal, r.id = n → ¬ Hears t.before.later r t.event signal

/-- What becomes of a reconciliation in a turn: as long as a fetch is not answered it goes on. -/
inductive TickFate (t : Turn) (r : Running) (tick : Tick) : Prop
  | stays (hdeaf : t.IsDeaf r.id) (h : r ∈ t.after.running)
  | advances {signal} (hears : Hears t.before.later r t.event signal)
      (hopen : (tick.resume signal).results? = none)
      (h : t.before.step t.event =
        (t.before.later.replaceWork r.id (.reconcile (tick.resume signal)), []))
  | concludes {profiles proxies} (h : t.Concludes r profiles proxies)
  | calledOff (h : t.CallsOff r)
  | brokeDown (h : t.BreaksDown r.id)

variable {timings : Timings} {t : Turn} {r : Running} {tick : Tick} {n : Nat}

theorem step_of_hears_tick (hw : r.work = .reconcile tick) {signal : Signal}
    (hears : Hears t.before.later r t.event signal) (hopen : (tick.resume signal).results? = none) :
    t.before.step t.event =
      (t.before.later.replaceWork r.id (.reconcile (tick.resume signal)), []) := by
  rw [Controller.step_of_hears hears]
  unfold Controller.resume
  simp only [hw, hopen]

/-- What a reconciliation hears it goes on with, or it concludes. -/
theorem tickFate_of_hears (hw : r.work = .reconcile tick) {signal : Signal}
    (hears : Hears t.before.later r t.event signal) : t.TickFate r tick := by
  cases hresults : (tick.resume signal).results? with
  | none => exact .advances hears hresults (step_of_hears_tick hw hears hresults)
  | some results => exact .concludes ⟨tick, signal, hw, hears, hresults⟩

/-- A caller who goes away ends only the work that he has called for. -/
theorem mem_or_callsOff_of_abandon (hs : t.before.Sound timings) (hr : r ∈ t.before.running) {id : Nat}
    (he : t.event = .abandon id) (hd : r.work.isDetached = false) :
    r ∈ t.after.running ∨ t.CallsOff r := by
  by_cases hid : r.id = id
  · subst hid
    cases ho : r.origin with
    | caller awaits => exact .inr (.abandoned he ho)
    | _ =>
      have hfind : t.before.later.find? r.id = some r := hs.later.find?_eq_some hr
      have hafter : t.after = t.before.later := by
        rw [after, he]
        change t.before.later.abandon r.id = t.before.later
        obtain ⟨n, origin, work⟩ := r
        obtain rfl : origin = _ := ho
        rw [Controller.abandon, hfind]
      exact .inl (hafter ▸ hr)
  · have hkept : (r.id == id) = false := beq_eq_false_iff_ne.mpr hid
    refine .inl ?_
    rw [after, he]
    change r ∈ (t.before.later.abandon id).running
    unfold Controller.abandon
    split
    · split
      · exact List.mem_map.mpr ⟨r, hr, by simp [hkept]⟩
      · exact Controller.mem_drop hr hkept
    · exact hr

/-- A reconciliation that hears nothing stays, is called off, or is taken along. -/
theorem tickFate_of_deaf (hs : t.before.Sound timings) (hr : r ∈ t.before.running)
    (hw : r.work = .reconcile tick) (hdeaf : t.IsDeaf r.id) : t.TickFate r tick := by
  have hact := Controller.act_step t.before t.event
  generalize hout : t.before.step t.event = out at hact
  have hafter : t.after = out.1 := congrArg Prod.fst hout
  have hstays : r ∈ out.1.running → t.TickFate r tick := fun h => .stays hdeaf (hafter ▸ h)
  generalize he : t.event = e at hact
  cases hact with
  | nothing | refused | exhausted | skippedCall | droppedRefresh | expired | passed => exact hstays hr
  | skippedTick ho =>
    obtain ⟨-, hrun, -, -⟩ := ho.frame
    exact hstays (hrun ▸ hr)
  | begins ho | joins ho =>
    obtain ⟨-, hrun, -, -⟩ := ho.frame
    exact hstays (List.mem_append_left _ (hrun ▸ hr))
  | started => exact hstays (t.before.later.running_startBackground ▸ hr)
  | detached | abandoned =>
    rcases mem_or_callsOff_of_abandon hs hr he (by rw [hw]; rfl) with hmem | hoff
    · exact .stays hdeaf hmem
    · exact .calledOff hoff
  | shutDown =>
    by_cases ho : ∃ awaits, r.origin = .caller awaits
    · exact hstays (Controller.mem_shutdown hr ho)
    · exact .calledOff (.shutDown he (not_exists.mp ho))
  | visibility =>
    by_cases ho : r.origin = .visibility
    · exact .calledOff (.visibility he ho)
    · exact hstays (Controller.mem_changeVisibility hr ho)
  | @collapsed r₀ slot request hr₀ ha =>
    by_cases hid : r.id = r₀.id
    · obtain rfl := hs.eq_of_id hr (Controller.mem_of_find? hr₀) hid
      exact .brokeDown ⟨request, slot, r, he, hr₀, ha⟩
    · refine hstays (Controller.mem_drop ?_ (beq_eq_false_iff_ne.mpr hid))
      exact t.before.later.running_stopTicker r₀.origin ▸ hr
  | @resumed _ r₀ signal _ hears ho =>
    have hid : r.id ≠ r₀.id := fun hid => hdeaf r₀ signal hid.symm (he ▸ hears)
    have hkept : (r.id == r₀.id) = false := beq_eq_false_iff_ne.mpr hid
    cases ho with
    | nothing => exact hstays hr
    | advance => exact hstays (List.mem_map.mpr ⟨r, hr, by simp [hkept]⟩)
    | ending => exact hstays (Controller.mem_drop (c := { t.before.later with shared := _ }) hr hkept)
    | conclusion hwork =>
      -- another reconciliation would hold the activity as well
      have heq : r = r₀ := hs.eq_of_activity? hr (Controller.mem_of_find? hears.find?)
        (by simp [hw, Work.activity?]) (by simp [hwork, Work.activity?])
      exact absurd (congrArg Running.id heq) hid

theorem isDeaf_of_not_hears (hs : t.before.Sound timings) (hr : r ∈ t.before.running)
    (h : ∀ signal, ¬ Hears t.before.later r t.event signal) : t.IsDeaf r.id := by
  intro r' signal hid hears
  obtain rfl := hs.eq_of_id (Controller.mem_of_find? hears.find?) hr hid
  exact h signal hears

theorem tickFate (hs : t.before.Sound timings) (hr : r ∈ t.before.running)
    (hw : r.work = .reconcile tick) : t.TickFate r tick := by
  by_cases hheard : ∃ signal, Hears t.before.later r t.event signal
  · obtain ⟨signal, hears⟩ := hheard
    exact tickFate_of_hears hw hears
  · exact tickFate_of_deaf hs hr hw (isDeaf_of_not_hears hs hr (not_exists.mp hheard))

theorem Concludes.mem {profiles : Except Error ProfileList} {proxies : Except Error ProxySnapshot}
    (h : t.Concludes r profiles proxies) : r ∈ t.before.running := by
  obtain ⟨tick, signal, -, hears, -⟩ := h
  exact Controller.mem_of_find? hears.find?

theorem Concludes.event {profiles : Except Error ProfileList} {proxies : Except Error ProxySnapshot}
    (h : t.Concludes r profiles proxies) : ∃ slot answer, t.event = .answer r.id slot answer := by
  obtain ⟨tick, signal, hw, hears, -⟩ := h
  generalize t.event = e at hears
  cases hears with
  | answer => exact ⟨_, _, rfl⟩
  | timeUp hr hd =>
    rw [hw] at hd
    cases hd

theorem Concludes.unique {r' : Running} {profiles profiles' : Except Error ProfileList}
    {proxies proxies' : Except Error ProxySnapshot} (h : t.Concludes r profiles proxies)
    (h' : t.Concludes r' profiles' proxies') : r = r' ∧ profiles = profiles' ∧ proxies = proxies' := by
  obtain ⟨tick, signal, hw, hears, hresults⟩ := h
  obtain ⟨tick', signal', hw', hears', hresults'⟩ := h'
  have hsame : (r, signal) = (r', signal') :=
    Option.some.inj (hears.heard?.symm.trans hears'.heard?)
  obtain ⟨rfl, rfl⟩ := Prod.mk.inj hsame
  obtain rfl : tick = tick' := by simpa [hw] using hw'
  obtain ⟨rfl, rfl⟩ := Prod.mk.inj (Option.some.inj (hresults.symm.trans hresults'))
  exact ⟨rfl, rfl, rfl⟩

/-- A reconciliation takes an answer and waits for the other one; all else stays as it is. -/
def Ponders (t : Turn) (n : Nat) : Prop :=
  ∃ r tick signal, r.id = n ∧ r.work = .reconcile tick ∧ Hears t.before.later r t.event signal ∧
    t.before.step t.event =
      (t.before.later.replaceWork n (.reconcile (tick.resume signal)), [])

theorem not_tick_of_debounce (he : t.event = .wake .debounce) (hi : t.before.state.activity = .idle)
    (hr : r ∈ t.after.running) (hnew : r ∉ t.before.running) : r.work ≠ .reconcile tick := by
  intro hw
  by_cases hfires : t.Fires
  · obtain ⟨shared, hstart⟩ := t.before.later.startDebounced_of_idle hi
    rw [after, step_of_fires hfires, hstart] at hr
    rcases List.mem_append.mp hr with hr | hr
    · exact hnew hr
    · obtain rfl := List.mem_singleton.mp hr
      cases hw
  · rw [step_of_not_fires he hfires] at hr
    exact hnew hr

theorem beginsTick_of_fresh (hs : t.before.Sound timings) (hr : r ∈ t.after.running)
    (hnew : r.id = t.before.nextId) (hw : r.work = .reconcile tick) :
    t.BeginsTick r.id ∧ tick = .start := by
  have hnotin : r ∉ t.before.running := fun hmem => Nat.ne_of_lt (hs.ids_lt r hmem) hnew
  obtain ⟨origin, c', s', onset, hi, hopening, hout⟩ :=
    Controller.begins_of_act hs.later.toExclusive (Controller.act_step t.before t.event) hr hnew
      (by simp [hw, Work.activity?])
  obtain ⟨-, -, hid, hshape⟩ := onset.frame
  have hdebounce : t.event ≠ .wake .debounce := fun he => not_tick_of_debounce he hi hr hnotin hw
  have hslot : c'.debounce = t.before.debounce := onset.debounce_eq hdebounce
  rw [hw] at hopening hout
  generalize t.event = e at hopening
  cases hopening
  refine ⟨⟨hnew.symm, hi, ?_, ?_⟩, rfl⟩
  · rw [after, hout]
    simp only [Controller.launch, Controller.lasting, hslot, hshape]
    rfl
  · rw [outputs, hout, hnew]
    simp [Controller.launch, hid, Work.awaits, Tick.awaits, Tick.start]
    rfl

theorem tick_before_or_begins (hs : t.before.Sound timings) (hr : r ∈ t.after.running)
    (hw : r.work = .reconcile tick) :
    (∃ r₀ ∈ t.before.running, r₀.id = r.id ∧ ∃ tick₀, r₀.work = .reconcile tick₀) ∨
      t.BeginsTick r.id ∧ tick = .start := by
  have hsource := Controller.source_of_turn hs hr
  generalize t.outputs = outputs at hsource
  cases hsource with
  | @kept r₀ _ _ hr₀ => exact .inl ⟨r₀, hr₀, rfl, tick, hw⟩
  | @advanced r₀ signal s' work asks hears ha =>
    have hr₀ := Controller.mem_of_find? hears.find?
    cases hw₀ : r₀.work with
    | reconcile tick₀ => exact .inl ⟨r₀, hr₀, rfl, tick₀, hw₀⟩
    | _ =>
      obtain rfl : work = .reconcile tick := hw
      rw [hw₀] at ha
      cases ha
  | opened | joined => exact .inr (beginsTick_of_fresh hs hr rfl hw)

/-- A reconciliation has come to its end with these groups among the proxies. -/
def Sees (t : Turn) (shape : GroupShape) : Prop :=
  ∃ r profiles proxies, t.Concludes r profiles (.ok proxies) ∧ proxies.groupShape = shape

end Turn

/-- The groups that were seen by the last of those reconciliations which have come to their end with the
proxies. -/
def LastSeen (past : List Turn) : Option GroupShape → Prop
  | some shape => Since (fun _ u => u.Sees shape) (fun u => ∀ other, ¬ u.Sees other) past
  | none => ∀ u ∈ past, ∀ shape, ¬ u.Sees shape

theorem LastSeen.snoc {past : List Turn} {seen : Option GroupShape} {t : Turn} (h : LastSeen past seen)
    (ht : ∀ shape, ¬ t.Sees shape) : LastSeen (past ++ [t]) seen := by
  cases seen with
  | some shape => exact Since.snoc h ht
  | none =>
    intro u hu
    rcases List.mem_append.mp hu with hu | hu
    · exact h u hu
    · exact List.mem_singleton.mp hu ▸ ht

theorem Tick.shape_finding (observed : Option GroupShape) (state : SyncState)
    (profiles : Except Error ProfileList) (proxies : Except Error ProxySnapshot) :
    (finding observed state profiles proxies).shape = proxies.toOption.map ProxySnapshot.groupShape := by
  cases profiles <;> cases proxies <;> rfl

namespace Controller

variable {timings : Timings} {past : List Turn} {t : Turn}

/-- Each reconciliation under way waits for an answer, and has changed nothing since it began. -/
def Pondering (past : List Turn) (c : Controller) : Prop :=
  ∀ r ∈ c.running, ∀ tick, r.work = .reconcile tick → tick.results? = none ∧
    Since (fun _ u => u.BeginsTick r.id) (fun u => u.Ponders r.id ∨ u.IsDeaf r.id) past

def Spent (past : List Turn) (c : Controller) : Prop :=
  ∀ u ∈ past, ∀ r profiles proxies, u.Concludes r profiles proxies →
    r.id < c.nextId ∧ ∀ r' ∈ c.running, r'.id ≠ r.id

/-- Work that holds no activity was begun by a caller or by the poller. -/
def AttendsAsides (c : Controller) : Prop :=
  ∀ r ∈ c.running, r.work.activity? = none → r.origin = .poller ∨ ∃ awaits, r.origin = .caller awaits

theorem attendsAsides_turn (hs : t.before.Sound timings) (h : t.before.AttendsAsides) :
    t.after.AttendsAsides := by
  intro r hr hnone
  have hsource := source_of_turn hs hr
  generalize t.outputs = outputs at hsource
  generalize t.event = e at hsource
  cases hsource with
  | @kept r₀ origin _ hr₀ ho =>
    rcases ho with rfl | rfl
    · exact h r₀ hr₀ hnone
    · exact .inr ⟨false, rfl⟩
  | opened onset hi hopening => cases hopening <;> cases hnone
  | joined onset haside =>
    cases haside with
    | check | refetch =>
      cases onset
      exact .inr ⟨true, rfl⟩
    | poll =>
      cases onset
      exact .inl rfl
  | @advanced r₀ _ _ _ _ hears ha =>
    exact h r₀ (mem_of_find? hears.find?) (ha.activity?.symm.trans hnone)

theorem pondering_turn (hs : t.before.Sound timings) (h : t.before.Pondering past) :
    t.after.Pondering (past ++ [t]) := by
  intro r hr tick hw
  rcases Turn.tick_before_or_begins hs hr hw with ⟨r₀, hr₀, hid, tick₀, hw₀⟩ | ⟨hbegins, rfl⟩
  · obtain ⟨hopen, hsince⟩ := h r₀ hr₀ tick₀ hw₀
    rw [hid] at hsince
    by_cases hheard : ∃ signal, Hears t.before.later r₀ t.event signal
    · obtain ⟨signal, hears⟩ := hheard
      cases hresults : (tick₀.resume signal).results? with
      | none =>
        have hstep := Turn.step_of_hears_tick hw₀ hears hresults
        rw [Turn.after, hstep] at hr
        have hwork := work_of_mem_replaceWork hr hid.symm
        obtain rfl : tick₀.resume signal = tick := by simpa [hwork] using hw
        exact ⟨hresults, hsince.snoc (.inl ⟨r₀, tick₀, signal, hid, hw₀, hears, hid ▸ hstep⟩)⟩
      | some results =>
        have hconcludes : t.Concludes r₀ results.1 results.2 := ⟨tick₀, signal, hw₀, hears, hresults⟩
        have hnone := Turn.activity?_of_concludes hs hconcludes hr
        simp [hw, Work.activity?] at hnone
    · have hdeaf : ∀ signal, ¬ Hears t.before.later r₀ t.event signal := not_exists.mp hheard
      have hwork := (Turn.work_of_deaf hs hr₀ hr hid.symm hdeaf).symm
      obtain rfl : tick₀ = tick := by simpa [hw, hw₀] using hwork
      exact ⟨hopen, hsince.snoc (.inr (hid ▸ Turn.isDeaf_of_not_hears hs hr₀ hdeaf))⟩
  · exact ⟨rfl, Since.last hbegins⟩

theorem spent_turn (hs : t.before.Sound timings) (h : t.before.Spent past) :
    t.after.Spent (past ++ [t]) := by
  intro u hu r profiles proxies hconcludes
  rcases List.mem_append.mp hu with hu | hu
  · obtain ⟨hn, hgone⟩ := h u hu r profiles proxies hconcludes
    exact ⟨Nat.lt_of_lt_of_le hn (nextId_le_of_turn t), Chronicled.gone_after hs hn hgone⟩
  · obtain rfl := List.mem_singleton.mp hu
    obtain ⟨tick, signal, -, hears, -⟩ := id hconcludes
    refine ⟨Nat.lt_of_lt_of_le (hs.ids_lt r (mem_of_find? hears.find?)) (nextId_le_of_turn u), ?_⟩
    rw [Turn.step_of_concludes hconcludes]
    intro r' hr'
    simpa using (List.mem_filter.mp hr').2

theorem lastSeen_turn (h : LastSeen past t.before.observedShape) :
    LastSeen (past ++ [t]) t.after.observedShape := by
  by_cases hconcludes : ∃ r profiles proxies, t.Concludes r profiles proxies
  · obtain ⟨r, profiles, proxies, hconcludes⟩ := hconcludes
    have hshape : t.after.observedShape =
        (proxies.toOption.map ProxySnapshot.groupShape).or t.before.observedShape := by
      rw [Turn.step_of_concludes hconcludes, ← Tick.shape_finding t.before.observedShape
        t.before.state profiles]
      exact observedShape_conclude _ _
    rw [hshape]
    cases proxies with
    | ok proxies => exact Since.last ⟨r, profiles, proxies, hconcludes, rfl⟩
    | error e =>
      refine h.snoc ?_
      rintro shape ⟨r', profiles', proxies', hconcludes', -⟩
      cases (hconcludes.unique hconcludes').2.2
  · have hnone : ∀ r profiles proxies, ¬ t.Concludes r profiles proxies :=
      fun r profiles proxies hc => hconcludes ⟨r, profiles, proxies, hc⟩
    rw [Turn.observedShape_eq hnone]
    exact h.snoc fun shape ⟨r, profiles, proxies, hc, _⟩ => hnone r profiles _ hc

structure Reconciling (past : List Turn) (c : Controller) : Prop where
  pondering : c.Pondering past
  spent : c.Spent past
  asides : c.AttendsAsides
  lastSeen : LastSeen past c.observedShape

theorem reconciling_run (timings : Timings) (currentConfig : Option String) (es : List Event) :
    let c := initial timings currentConfig
    (c.run es).1.Sound timings ∧ (c.run es).1.Reconciling (c.turns es) := by
  intro c
  refine turns_induction (P := fun past c' => c'.Sound timings ∧ c'.Reconciling past) ?_ ?_ es
  · refine ⟨sound_initial timings currentConfig, ⟨?_, ?_, ?_, ?_⟩⟩
    · intro r hr
      cases hr
    · intro u hu
      cases hu
    · intro r hr
      cases hr
    · intro u hu
      cases hu
  · rintro past t ⟨hs, h⟩
    exact ⟨hs.step t.event, pondering_turn hs h.pondering, spent_turn hs h.spent,
      attendsAsides_turn hs h.asides, lastSeen_turn h.lastSeen⟩

end Controller

end CoreWarden
