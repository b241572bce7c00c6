import CoreWarden.Proofs.Controller.Renewal

/-!
What becomes of a change that a reconciliation detects. A refresh of the whole cache is armed for some
time later. If work is going on when its time has come, it is dropped, for that work renews the cache
itself; but a workflow that fails does not, nor does a reconciliation that finds no change of its own.
-/
namespace CoreWarden

open Controller (Hears Act)

/-- Whether a reconciliation asks for a refresh of the cache. -/
def TickOutcome.isChange : TickOutcome → Bool
  | changed | fetchFailed => true
  | skipped | unchanged => false

def Output.request? : Output → Option Request
  | .ask _ _ request => some request
  | .ended .. => none

namespace Turn

/-- A reconciliation detects a change. -/
def Detects (t : Turn) (n : Nat) : Prop :=
  ∃ r profiles proxies, t.Concludes r profiles proxies ∧ r.id = n ∧
    (Tick.finding t.before.observedShape t.before.state profiles proxies).outcome.isChange = true

def Fires (t : Turn) : Prop :=
  t.event = .wake .debounce ∧ ∃ due, t.before.debounce.due? = some due ∧ due ≤ t.now

/-- The debounced refresh is dropped, for this work goes on. -/
def Drops (t : Turn) (r : Running) : Prop :=
  t.Fires ∧ r ∈ t.before.running ∧ r.work.activity?.isSome = true

end Turn

namespace Controller

/-! ### The debounced refresh waits -/

theorem debounce_conclude (c : Controller) {f : Tick.Finding} (h : f.outcome.isChange = false) :
    (c.conclude f).debounce = c.debounce := by
  obtain ⟨shape, reported, outcome⟩ := f
  cases outcome <;> cases reported <;> first | rfl | cases h

theorem isPending_conclude (c : Controller) {f : Tick.Finding} (h : f.outcome.isChange = true) :
    (c.conclude f).debounce.isPending = true := by
  obtain ⟨shape, reported, outcome⟩ := f
  cases outcome <;> cases reported <;> first | rfl | cases h

/-- The debounced refresh waits, and none is under way. -/
def Armed (c : Controller) : Prop :=
  c.debounce.isPending = true ∧ ∀ r ∈ c.running, ∀ refresh, r.work ≠ .refresh refresh

def Renewing (past : List Turn) (c : Controller) : Prop :=
  ∃ r ∈ c.running, r.origin = .debounce ∧ (∃ refresh, r.work = .refresh refresh) ∧
    ∃ u ∈ past, u.Fires ∧ u.Begins r.id

theorem debounce_stopTicker (c : Controller) (origin : Origin) :
    (c.stopTicker origin).debounce = c.debounce := by
  unfold stopTicker
  split <;> rfl

theorem debounce_startBackground (c : Controller) : c.startBackground.debounce = c.debounce := by
  unfold startBackground
  split <;> rfl

theorem debounce_changeVisibility (c : Controller) (visible : Bool) :
    (c.changeVisibility visible).debounce = c.debounce := by
  obtain ⟨c₁, slot, rfl | rfl, hc⟩ := c.changeVisibility_eq visible <;> rw [hc] <;> rfl

theorem Onset.debounce_eq {c c' : Controller} {e : Event} {origin : Origin} (h : Onset c e origin c')
    (hne : e ≠ .wake .debounce) : c'.debounce = c.debounce := by
  cases h with
  | debounce => exact absurd rfl hne
  | call | visibility | reconciler | poller => rfl

theorem startDebounced_of_idle (c : Controller) (h : c.state.activity = .idle) :
    ∃ shared, c.startDebounced = { c with shared, debounce := .empty }.launch .debounce
      (.refresh (Refresh.start true CacheKey.all c.cache).1)
      (Refresh.start true CacheKey.all c.cache).1.asks := by
  have henter : { c with debounce := .empty }.state.enter .reconciling = _ :=
    SyncState.enter_of_idle _ _ h
  unfold startDebounced
  dsimp only
  rw [henter]
  exact ⟨_, rfl⟩

theorem mem_abandon {c : Controller} (hn : c.Numbered) {r : Running} (hr : r ∈ c.running)
    (ho : r.origin = .debounce) (id : Nat) : r ∈ (c.abandon id).running := by
  unfold abandon
  split
  · next id' awaits work hfind =>
    have hid : (r.id == id) = false := by
      refine beq_eq_false_iff_ne.mpr ?_
      rintro rfl
      rw [hn.find?_eq_some hr] at hfind
      cases hfind
      cases ho
    split
    · exact List.mem_map.mpr ⟨r, hr, by simp [hid]⟩
    · exact mem_drop hr hid
  · exact hr

inductive RefreshFate (c : Controller) (e : Event) (r : Running) (running : List Running) : Prop
  | goesOn {refresh} (h : { r with work := .refresh refresh } ∈ running)
  | completes {signal} (hs : Hears c r e signal) (h : r.work.stage.renews c.shared signal = true)
  | collapses {slot request} (he : e = .answer r.id slot .collapsed)
      (ha : (slot, request) ∈ r.work.awaits)

theorem RefreshFate.same {c : Controller} {e : Event} {r : Running} {running : List Running}
    {refresh : Refresh} (hw : r.work = .refresh refresh) (hr : r ∈ running) :
    RefreshFate c e r running := by
  obtain ⟨id, origin, work⟩ := r
  obtain rfl : work = .refresh refresh := hw
  exact .goesOn hr

theorem refreshFate_of_resumed {c : Controller} (hs : c.Exclusive) {e : Event} {r r' : Running}
    {signal : Signal} {out : Controller × List Output} (hears : Hears c r e signal)
    (h : Resumed c r signal out) (hr : r' ∈ c.running) {refresh : Refresh}
    (hw : r'.work = .refresh refresh) : RefreshFate c e r' out.1.running := by
  by_cases hid : r'.id = r.id
  · obtain rfl := hs.eq_of_id hr (mem_of_find? hears.find?) hid
    cases h with
    | nothing => exact .same hw hr
    | advance hadvance =>
      generalize hw' : r'.work = w at hadvance
      obtain rfl := hw'.symm.trans hw
      cases hadvance
      exact .goesOn (mem_replaceWork (c := { c with shared := _ }) hr _)
    | ending hending =>
      generalize hw' : r'.work = w at hending
      obtain rfl := hw'.symm.trans hw
      cases hending with
      | refresh hresume hd => exact .completes hears (hw ▸ Stage.renews_of_done hresume hd)
    | conclusion hwork =>
      rw [hw] at hwork
      cases hwork
  · have hkept : (r'.id == r.id) = false := beq_eq_false_iff_ne.mpr hid
    cases h with
    | nothing => exact .same hw hr
    | advance => exact .same hw (List.mem_map.mpr ⟨r', hr, by simp [hkept]⟩)
    | ending => exact .same hw (mem_drop (c := { c with shared := _ }) hr hkept)
    | conclusion hwork =>
      -- a reconciliation holds the activity, as the refresh does
      have heq : r' = r := hs.eq_of_activity? hr (mem_of_find? hears.find?)
        (by simp [hw, Work.activity?]) (by simp [hwork, Work.activity?])
      exact absurd (congrArg Running.id heq) hid

theorem refreshFate_of_act {c : Controller} (hs : c.Exclusive) {e : Event}
    {out : Controller × List Output} (h : Act c e out) {r : Running} (hr : r ∈ c.running)
    (ho : r.origin = .debounce) {refresh : Refresh} (hw : r.work = .refresh refresh)
    (hne : e ≠ .shutdown) (hleft : ∀ id, e ≠ .abandon id) : RefreshFate c e r out.1.running := by
  cases h with
  | nothing | refused | exhausted | skippedCall | droppedRefresh | expired | passed =>
    exact .same hw hr
  | skippedTick honset =>
    obtain ⟨-, hrun, -, -⟩ := honset.frame
    exact .same hw (hrun ▸ hr)
  | begins honset | joins honset =>
    obtain ⟨-, hrun, -, -⟩ := honset.frame
    exact .same hw (List.mem_append_left _ (hrun ▸ hr))
  | started => exact .same hw (c.running_startBackground ▸ hr)
  | shutDown => exact absurd rfl hne
  | detached | abandoned => exact absurd rfl (hleft _)
  | visibility => exact .same hw (mem_changeVisibility hr (by simp [ho]))
  | @collapsed r₀ slot request hr₀ ha =>
    by_cases hid : r.id = r₀.id
    · obtain rfl := hs.eq_of_id hr (mem_of_find? hr₀) hid
      exact .collapses rfl ha
    · exact .same hw (mem_drop (c.running_stopTicker _ ▸ hr) (beq_eq_false_iff_ne.mpr hid))
  | resumed hears hresumed => exact refreshFate_of_resumed hs hears hresumed hr hw

end Controller

namespace Turn

open Controller

variable {timings : Timings} {past : List Turn} {t : Turn} {n : Nat}

/-- Only a reconciliation that detects a change arms the debounced refresh, and only its own time and
the end of all periodic work take it away. -/
theorem debounce_eq (hne : t.event ≠ .shutdown) (hw : t.event ≠ .wake .debounce)
    (h : ∀ n, ¬ t.Detects n) : t.after.debounce = t.before.debounce := by
  have hact := act_step t.before t.event
  rw [after]
  generalize hout : t.before.step t.event = out at hact
  generalize he : t.event = e at hact hne hw
  cases hact with
  | nothing | refused | exhausted | skippedCall | detached | abandoned | expired | passed => rfl
  | skippedTick ho | joins ho => exact ho.debounce_eq hw
  | begins ho => exact ho.debounce_eq hw
  | droppedRefresh => exact absurd rfl hw
  | shutDown => exact absurd rfl hne
  | collapsed => exact t.before.later.debounce_stopTicker _
  | started => exact t.before.later.debounce_startBackground
  | visibility visible => exact t.before.later.debounce_changeVisibility visible
  | @resumed _ r signal _ hs ho =>
    cases ho with
    | nothing | advance | ending => rfl
    | @conclusion tick profiles proxies hwork hresults =>
      refine t.before.later.debounce_conclude (Bool.eq_false_iff.mpr fun hchange => ?_)
      exact h r.id ⟨r, profiles, proxies, ⟨tick, signal, hwork, he ▸ hs, hresults⟩, rfl, hchange⟩

theorem step_of_concludes {r : Running} {profiles : Except Error ProfileList}
    {proxies : Except Error ProxySnapshot} (h : t.Concludes r profiles proxies) :
    t.after = (t.before.later.conclude
      (Tick.finding t.before.observedShape t.before.state profiles proxies)).drop (·.id == r.id) := by
  obtain ⟨tick, signal, hw, hs, hresults⟩ := h
  rw [after, step_of_hears hs]
  unfold resume
  simp only [hw, hresults]
  rfl

theorem activity?_of_concludes (hs : t.before.Sound timings) {r : Running}
    {profiles : Except Error ProfileList} {proxies : Except Error ProxySnapshot}
    (h : t.Concludes r profiles proxies) {r' : Running} (hr' : r' ∈ t.after.running) :
    r'.work.activity? = none := by
  rw [step_of_concludes h] at hr'
  obtain ⟨hmem, hid⟩ := List.mem_filter.mp hr'
  obtain ⟨tick, signal, hw, hears, -⟩ := h
  cases ha : r'.work.activity? with
  | none => rfl
  | some a =>
    have heq : r' = r := hs.eq_of_activity? (mem_of_mem_conclude (c := t.before.later) hmem)
      (mem_of_find? hears.find?) (by simp [ha]) (by simp [hw, Work.activity?])
    simp [heq] at hid

theorem armed_of_detects (hs : t.before.Sound timings) (h : t.Detects n) : t.after.Armed := by
  obtain ⟨r, profiles, proxies, hconcludes, -, hchange⟩ := h
  refine ⟨?_, ?_⟩
  · rw [step_of_concludes hconcludes]
    exact isPending_conclude _ hchange
  · intro r' hr' refresh hw
    have hnone := activity?_of_concludes hs hconcludes hr'
    simp [hw, Work.activity?] at hnone

theorem staged_of_detects (hs : t.before.Sound timings) (h : t.Detects n) : t.after.Staged [] := by
  obtain ⟨r, profiles, proxies, hconcludes, -, -⟩ := h
  intro r' hr'
  have hnone := activity?_of_concludes hs hconcludes hr'
  cases hw : r'.work with
  | check | refetch => trivial
  | _ => simp [hw, Work.activity?] at hnone

/-! ### Its time comes -/

theorem step_of_fires (h : t.Fires) : t.before.step t.event = t.before.later.startDebounced := by
  obtain ⟨he, due, hd, hn⟩ := h
  have hdue : t.before.due? .debounce = some due := hd
  rw [he, step_wake hdue hn]
  rfl

theorem step_of_not_fires (hw : t.event = .wake .debounce) (h : ¬ t.Fires) :
    t.after = t.before.later := by
  have hnot : ∀ due, t.before.due? .debounce = some due → ¬ due ≤ t.before.now :=
    fun due hd hn => h ⟨hw, due, hd, hn⟩
  rw [after, hw, step_of_not_due hnot]

/-- The refresh begins if nothing is going on, and is dropped for the work that is. -/
theorem renewing_or_drops (hs : t.before.Sound timings) (h : t.Fires) :
    t.after.Renewing (past ++ [t]) ∨ ∃ r, t.Drops r := by
  by_cases hi : t.before.state.activity = .idle
  · obtain ⟨shared, hstart⟩ := t.before.later.startDebounced_of_idle hi
    rw [← step_of_fires h] at hstart
    let refresh := (Refresh.start true CacheKey.all t.before.cache).1
    refine .inl ⟨⟨t.before.nextId, .debounce, .refresh refresh⟩, ?_, rfl, ⟨refresh, rfl⟩,
      exists_mem_last ⟨h, begins_of_asks t.before.cache ?_⟩⟩
    · rw [after, hstart]
      exact List.mem_append_right _ (List.mem_singleton.mpr rfl)
    · intro a ha
      rw [outputs, hstart]
      exact List.mem_map.mpr ⟨a, ha, rfl⟩
  · obtain ⟨r, hr, ha⟩ := hs.exists_holder hi
    exact .inr ⟨r, h, hr, by simp [ha]⟩

/-- Until its time comes an armed refresh stays armed. -/
theorem armed_or_fires (hs : t.before.Sound timings) (h : t.before.Armed) (hne : t.event ≠ .shutdown)
    (hdetects : ∀ n, ¬ t.Detects n) : t.after.Armed ∨ t.Fires := by
  by_cases hfires : t.Fires
  · exact .inr hfires
  refine .inl ?_
  by_cases hw : t.event = .wake .debounce
  · rw [step_of_not_fires hw hfires]
    exact h
  · obtain ⟨hpending, hquiet⟩ := h
    refine ⟨debounce_eq hne hw hdetects ▸ hpending, ?_⟩
    intro r hr refresh hwork
    have hsource := source_of_turn hs hr
    generalize t.outputs = outputs at hsource
    generalize he : t.event = e at hsource
    cases hsource with
    | @kept r₀ _ _ hr₀ => exact hquiet r₀ hr₀ refresh hwork
    | opened onset hi hopening =>
      cases hwork
      cases hopening
      exact hw he
    | joined onset haside =>
      cases hwork
      cases haside
    | @advanced r₀ _ _ _ _ hears ha =>
      have hr₀ := mem_of_find? hears.find?
      generalize hw₀ : r₀.work = w at ha
      cases hwork
      cases ha
      exact hquiet r₀ hr₀ _ hw₀

/-- A debounced refresh goes on, completes, or is taken along when a collaborator breaks down. -/
theorem refresh_turn (hs : t.before.Sound timings) (h : t.before.Renewing past)
    (hne : t.event ≠ .shutdown) :
    t.after.Renewing (past ++ [t]) ∨ (∃ n, Renewed n (past ++ [t])) ∨
      ∃ n, (∃ u ∈ past, u.Fires ∧ u.Begins n) ∧ t.BreaksDown n := by
  obtain ⟨r, hr, ho, ⟨refresh, hw⟩, hbegins⟩ := h
  have hkept : ∀ refresh', { r with work := .refresh refresh' } ∈ t.after.running →
      t.after.Renewing (past ++ [t]) := by
    intro refresh' hr'
    exact ⟨_, hr', ho, ⟨refresh', rfl⟩, exists_mem_snoc hbegins t⟩
  by_cases hleft : ∃ id, t.event = .abandon id
  · obtain ⟨id, hid⟩ := hleft
    have hr' : r ∈ t.after.running := by
      rw [after, hid]
      exact mem_abandon hs.later.toNumbered hr ho id
    exact .inl (hkept refresh (hw ▸ hr'))
  cases refreshFate_of_act hs.later.toExclusive (act_step t.before t.event) hr ho hw hne
      (not_exists.mp hleft) with
  | goesOn hr' => exact .inl (hkept _ hr')
  | completes hears hrenews =>
    obtain ⟨u, hu, -, hbegun⟩ := hbegins
    exact .inr (.inl ⟨r.id, Since.last ⟨⟨u, hu, hbegun⟩, r, _, hears, rfl, hrenews⟩⟩)
  | @collapses slot request he ha =>
    exact .inr (.inr ⟨r.id, hbegins, request, slot, r, he, hs.find?_eq_some hr, ha⟩)

end Turn

/-- Why the refresh that a change asks for does not come about. -/
inductive Lost (past : List Turn) : Prop
  /-- It was dropped for a workflow that fails. -/
  | failed {r : Running} (hd : ∃ u ∈ past, u.Drops r) (h : ∃ u ∈ past, u.Fails r.id)
  /-- It was dropped for a reconciliation that has detected no change since. -/
  | overlooked {r : Running} {tick : Tick} (hw : r.work = .reconcile tick)
      (h : Since (fun _ u => u.Drops r) (fun u => ¬ u.Detects r.id) past)
  /-- A collaborator breaks down in it, or in the work that it was dropped for. -/
  | brokeDown {n : Nat} (hb : ∃ u ∈ past, u.Fires ∧ u.Begins n ∨ ∃ r, u.Drops r ∧ r.id = n)
      (h : ∃ u ∈ past, u.BreaksDown n)

namespace Controller

variable {timings : Timings} {past : List Turn} {t : Turn}

/-- How it stands with the refresh that a change asks for. -/
inductive Owed (past : List Turn) (c : Controller) : Prop
  | armed (h : c.Armed)
  | renewing (h : c.Renewing past)
  | renewed {n : Nat} (h : Renewed n past)
  | brokeDown {n : Nat} (hb : ∃ u ∈ past, u.Fires ∧ u.Begins n) (h : ∃ u ∈ past, u.BreaksDown n)
  | dropped {r : Running} (hw : ∀ refresh, r.work ≠ .refresh refresh)
      (h : Since (fun _ u => u.Drops r) (fun u => ¬ u.Detects r.id) past)

theorem owed_turn (hs : t.before.Sound timings) (h : t.before.Owed past) (hne : t.event ≠ .shutdown) :
    t.after.Owed (past ++ [t]) := by
  by_cases hdetects : ∃ n, t.Detects n
  · obtain ⟨n, hdetects⟩ := hdetects
    exact .armed (Turn.armed_of_detects hs hdetects)
  have hnone : ∀ n, ¬ t.Detects n := not_exists.mp hdetects
  cases h with
  | armed harmed =>
    rcases Turn.armed_or_fires hs harmed hne hnone with hstill | hfires
    · exact .armed hstill
    · rcases Turn.renewing_or_drops hs hfires with hrenewing | ⟨r, hdrops⟩
      · exact .renewing hrenewing
      · exact .dropped (harmed.2 r hdrops.2.1) (Since.last hdrops)
  | renewing hrenewing =>
    rcases Turn.refresh_turn hs hrenewing hne with hstill | ⟨n, hrenewed⟩ | ⟨n, hbegins, hbreaks⟩
    · exact .renewing hstill
    · exact .renewed hrenewed
    · exact .brokeDown (exists_mem_snoc hbegins t) (exists_mem_last hbreaks)
  | renewed hrenewed => exact .renewed (hrenewed.snoc t)
  | brokeDown hbegins hbreaks => exact .brokeDown (exists_mem_snoc hbegins t) (exists_mem_snoc hbreaks t)
  | dropped hw hsince => exact .dropped hw (hsince.snoc (hnone _))

theorem owed_run {c : Controller} (hs : c.Sound timings) (h : c.Owed []) (es : List Event)
    (hes : .shutdown ∉ es) : (c.run es).1.Owed (c.turns es) := by
  have howed := turns_induction (P := fun past c => c.Sound timings ∧
    ((∀ u ∈ past, u.event ≠ .shutdown) → c.Owed past)) (c := c) ⟨hs, fun _ => h⟩ ?_ es
  · refine howed.2 ?_
    rintro u hu hevent
    exact hes (hevent ▸ event_mem_of_turns hu)
  · rintro past t ⟨hs, howed⟩
    refine ⟨hs.step t.event, ?_⟩
    intro hpast
    refine owed_turn hs (howed fun u hu => hpast u (List.mem_append_left _ hu)) ?_
    exact hpast t (List.mem_append_right _ (List.mem_singleton.mpr rfl))

theorem renewed_or_lost_of_dropped {r : Running} (hw : ∀ refresh, r.work ≠ .refresh refresh)
    (h : Since (fun _ u => u.Drops r) (fun u => ¬ u.Detects r.id) past)
    (hsettled : ∀ u ∈ past, u.Drops r → r.work.isDetached = true → Settled past r.id) :
    (∃ n, Renewed n past) ∨ Lost past := by
  obtain ⟨u, hu, hdrops⟩ : ∃ u ∈ past, u.Drops r := by
    obtain ⟨earlier, u, later, hsplit, hdrops, -⟩ := h
    exact ⟨u, hsplit ▸ List.mem_append_right _ (.head _), hdrops⟩
  have hworkflow : r.work.isDetached = true → (∃ n, Renewed n past) ∨ Lost past := by
    intro hd
    cases hsettled u hu hdrops hd with
    | renewed hrenewed => exact .inl ⟨_, hrenewed⟩
    | failed hfails => exact .inr (.failed ⟨u, hu, hdrops⟩ hfails)
    | brokeDown hbreaks => exact .inr (.brokeDown ⟨u, hu, .inr ⟨r, hdrops, rfl⟩⟩ hbreaks)
  have hholds := hdrops.2.2
  cases hwork : r.work with
  | switch | reload | recover => exact hworkflow (by simp [hwork, Work.isDetached])
  | reconcile tick => exact .inr (.overlooked hwork h)
  | refresh refresh => exact absurd hwork (hw refresh)
  | check | refetch => simp [hwork, Work.activity?] at hholds

/-- In every run, after a reconciliation that detects a change, until all periodic work ends: whenever
nothing is going on and the debounced refresh does not wait, the data of all keys have been fetched
anew since, or the refresh is lost: it was dropped for a workflow that failed or for a reconciliation
that saw no change of its own, or a collaborator broke down. A workflow for which it was dropped has
fetched the data of all keys itself, unless it failed or was taken along. -/
theorem detected_change_is_renewed_or_lost (timings : Timings) (currentConfig : Option String)
    (es₀ : List Event) (e : Event) (n : Nat) (es : List Event)
    (hdetects : (⟨((initial timings currentConfig).run es₀).1, e⟩ : Turn).Detects n)
    (hes : .shutdown ∉ es) :
    let t : Turn := ⟨((initial timings currentConfig).run es₀).1, e⟩
    let past := t.after.turns es
    let c := (t.after.run es).1
    t.after.debounce.isPending = true ∧
    (c.snapshot.activity = .idle →
      (c.debounce.isPending = false → (∃ m, Renewed m past) ∨ Lost past) ∧
      ∀ u ∈ past, ∀ r, u.Drops r → r.work.isDetached = true → Settled past r.id) := by
  intro t past c
  have hs : t.before.Sound timings := (sound_initial timings currentConfig).run es₀
  have harmed := Turn.armed_of_detects hs hdetects
  have howed : c.Owed past := owed_run (hs.step e) (.armed harmed) es hes
  obtain ⟨hsound, -, hworkflows⟩ :=
    workflow_run (hs.step e) (Turn.staged_of_detects hs hdetects) es
  refine ⟨harmed.1, fun hidle => ?_⟩
  have hsettled : ∀ u ∈ past, ∀ r, u.Drops r → r.work.isDetached = true → Settled past r.id := by
    intro u hu r hdrops hd
    rcases hworkflows u hu r hdrops.2.1 hd with ⟨r', hr', -, hd'⟩ | hsettled
    · have hnone := hsound.activity?_eq_none hidle hr'
      cases hw : r'.work <;> simp [hw, Work.isDetached, Work.activity?] at hd' hnone
    · exact hsettled
  refine ⟨fun hpending => ?_, hsettled⟩
  cases howed with
  | armed harmed => simp [harmed.1] at hpending
  | renewing hrenewing =>
    obtain ⟨r, hr, -, ⟨refresh, hw⟩, -⟩ := hrenewing
    have hnone := hsound.activity?_eq_none hidle hr
    simp [hw, Work.activity?] at hnone
  | renewed hrenewed => exact .inl ⟨_, hrenewed⟩
  | brokeDown hbegins hbreaks =>
    obtain ⟨u, hu, hu'⟩ := hbegins
    exact .inr (.brokeDown ⟨u, hu, .inl hu'⟩ hbreaks)
  | @dropped r hw hsince =>
    exact renewed_or_lost_of_dropped hw hsince fun u hu => hsettled u hu r

def failedFetch : List Event := [.call .reconcile, .answer 0 0 (.list (.error .notConfigured))]

def lastFetch : Event := .answer 0 1 (.proxies (.error .notConfigured))

def calm : List Event :=
  [.pass 500, .wake .debounce, .answer 1 0 (.list (.error .notConfigured)),
    .answer 1 1 (.proxies (.error .notConfigured)), .answer 1 2 (.config (.error .notConfigured))]

/-- The time of the debounced refresh comes while a switch is going on, which the core then rejects. -/
def rejectedSwitch : List Event :=
  [.call (.switch "b"), .answer 1 0 (.status (.error .notConfigured)), .pass 500, .wake .debounce,
    .answer 1 0 (.switch (.error (.switchRejected "no"))), .answer 1 0 (.status (.error .notConfigured))]

theorem detects_lastFetch :
    (⟨((initial Timings.standard (some "a")).run failedFetch).1, lastFetch⟩ : Turn).Detects 0 :=
  ⟨⟨0, .caller true, .reconcile ⟨some (.error .notConfigured), none⟩⟩, .error .notConfigured,
    .error .notConfigured, ⟨_, _, rfl, .answer rfl (.head _) (by simp), rfl⟩, rfl, rfl⟩

/-- After the switch that was rejected nothing is going on and no refresh waits, and the data of no key
have been asked for since the change was detected. -/
theorem change_lost_to_rejected_switch :
    let t : Turn := ⟨((initial Timings.standard (some "a")).run failedFetch).1, lastFetch⟩
    let c := (t.after.run rejectedSwitch).1
    t.Detects 0 ∧ c.snapshot.activity = .idle ∧ c.debounce.isPending = false ∧
      ∀ u ∈ t.after.turns rejectedSwitch, ∀ m, ∀ key : CacheKey, ¬ u.Asks m key.request := by
  intro t c
  refine ⟨detects_lastFetch, by decide +kernel, by decide +kernel, ?_⟩
  rintro u hu m key ⟨slot, hasks⟩
  have hrequests : ((t.after.turns rejectedSwitch).flatMap Turn.outputs).filterMap Output.request? =
      [.status, .switch "b", .status] := by decide +kernel
  have hmem : key.request ∈
      ((t.after.turns rejectedSwitch).flatMap Turn.outputs).filterMap Output.request? :=
    List.mem_filterMap.mpr ⟨_, List.mem_flatMap.mpr ⟨u, hu, hasks⟩, rfl⟩
  rw [hrequests] at hmem
  cases key <;> simp [CacheKey.request] at hmem

theorem detected_change_is_renewed_when_calm :
    let t : Turn := ⟨((initial Timings.standard (some "a")).run failedFetch).1, lastFetch⟩
    let past := t.after.turns calm
    let c := (t.after.run calm).1
    t.Detects 0 ∧ .shutdown ∉ calm ∧ c.snapshot.activity = .idle ∧ c.debounce.isPending = false ∧
      ((∃ m, Renewed m past) ∨ Lost past) := by
  have hes : .shutdown ∉ calm := by simp [calm]
  refine ⟨detects_lastFetch, hes, by decide +kernel, by decide +kernel, ?_⟩
  have h := detected_change_is_renewed_or_lost Timings.standard (some "a") failedFetch lastFetch 0 calm
    detects_lastFetch hes
  exact (h.2 (by decide +kernel)).1 (by decide +kernel)

end Controller
end CoreWarden
