import CoreWarden.Proofs.Controller.Store

/-!
What the store holds and what the controller takes for current agree, turn by turn: a note is made
before the switch that makes it commits, a reconciliation hears of nothing but what the store holds,
and the two do not go on side by side.
-/
namespace CoreWarden

open Controller (Hears Source Fate)

namespace Switch

variable {s s' : Shared} {id : String} {phase phase' : Switch} {signal : Signal}
  {asks : List (Nat × Request)}

/-- How a switch comes to note its profile, and goes on with that. -/
inductive Noting : Switch → Signal → Switch → Prop
  | begins (signal : Signal) (remaining : Bool) : Noting confirming signal (storing remaining)
  | made (remaining : Bool) (result : Except Error Unit) (refresh : Refresh) :
      Noting (storing remaining) (.answer 0 (.store result)) (refreshing remaining refresh)
  | still (signal : Signal) (phase : Switch) : Noting phase signal phase
  | refreshes (signal : Signal) (remaining : Bool) (refresh refresh' : Refresh) :
      Noting (refreshing remaining refresh) signal (refreshing remaining refresh')

theorem noting_of_resume (h : resume s id phase signal = (s', .waiting phase' asks))
    (hn : (Work.switch id phase').isNoting = true) : Noting phase signal phase' := by
  revert h
  fun_cases resume s id phase signal <;> intro h
  case case10 =>
    cases h
    exact .begins _ _
  case case11 =>
    cases h
    exact .made _ _ _
  case case12 remaining refresh refresh' u hu =>
    unfold refreshed at h
    split at h <;> cases h
    exact .refreshes _ _ _ _
  case case14 =>
    cases h
    exact .still _ _
  case case9 probe =>
    generalize probe.resume s.pace s.now signal = progress at h
    fun_cases probed s id progress <;> cases h <;> cases hn
  case case13 => cases h
  all_goals
    cases h
    cases hn

theorem resume_of_isNoting {step : Step} (h : resume s id phase signal = (s', step))
    (hn : (Work.switch id phase).isNoting = true) :
    (∃ phase' asks, step = .waiting phase' asks ∧ (Work.switch id phase').isNoting = true) ∨
      ∃ remaining refresh, phase = .refreshing remaining refresh ∧
        step = .done (.ok (.switched id remaining)) := by
  revert h
  fun_cases resume s id phase signal <;> intro h
  case case11 =>
    cases h
    exact .inl ⟨_, _, rfl, rfl⟩
  case case12 remaining refresh refresh' u hu =>
    unfold refreshed at h
    split at h <;> cases h
    · exact .inr ⟨remaining, refresh, rfl, rfl⟩
    · exact .inl ⟨_, _, rfl, rfl⟩
  case case14 =>
    cases h
    exact .inl ⟨_, _, rfl, hn⟩
  all_goals cases hn

end Switch

namespace Turn

variable {timings : Timings} {t : Turn}

theorem noting_source (hs : t.before.Sound timings) {r : Running} (hr : r ∈ t.after.running)
    (hn : r.work.isNoting = true) :
    ∃ r₀ ∈ t.before.running, r₀.id = r.id ∧ ∃ id phase phase', r₀.work = .switch id phase ∧
      r.work = .switch id phase' ∧
      (phase = phase' ∨ ∃ signal, Hears t.before.later r₀ t.event signal ∧
        phase.Noting signal phase') := by
  have hsource := Controller.source_of_turn hs hr
  generalize t.outputs = outputs at hsource
  cases hsource with
  | @kept r₀ _ _ hr₀ =>
    obtain ⟨id, phase, hw⟩ := Work.switch_of_isNoting hn
    exact ⟨r₀, hr₀, rfl, id, phase, phase, hw, hw, .inl rfl⟩
  | opened onset hi hw =>
    generalize t.event = e at hw
    cases hw <;> cases hn
  | joined onset hw =>
    generalize t.event = e at hw
    cases hw <;> cases hn
  | @advanced r₀ signal s' work asks hears ha =>
    generalize hw : r₀.work = w at ha
    cases ha with
    | @switch id phase _ _ phase' _ hresume =>
      exact ⟨r₀, Controller.mem_of_find? hears.find?, rfl, id, phase, phase', hw, rfl,
        .inr ⟨signal, hears, Switch.noting_of_resume hresume hn⟩⟩
    | _ => cases hn

theorem storing_of_notes {id : String} (h : t.Notes id) :
    ∃ r remaining, (r ∈ t.before.running ∨ r ∈ t.after.running) ∧
      r.work = .switch id (.storing remaining) := by
  obtain ⟨r, hr, ha⟩ := h
  obtain ⟨remaining, hw⟩ := Work.storing_of_mem_awaits ha
  exact ⟨r, remaining, hr, hw⟩

/-- A note is under way only if the switch that makes it goes on before the turn. -/
theorem switch_of_notes (hs : t.before.Sound timings) {id : String} (h : t.Notes id) :
    ∃ r ∈ t.before.running, ∃ phase, r.work = .switch id phase := by
  obtain ⟨r, remaining, hr | hr, hw⟩ := storing_of_notes h
  · exact ⟨r, hr, _, hw⟩
  · obtain ⟨r₀, hr₀, -, id₀, phase, phase', hw₀, hw', -⟩ := noting_source hs hr (by rw [hw]; rfl)
    obtain ⟨rfl, -⟩ : id₀ = id ∧ phase' = .storing remaining := by simpa [hw] using hw'.symm
    exact ⟨r₀, hr₀, phase, hw₀⟩

theorem not_notes_of_tick (hs : t.before.Sound timings) {r : Running} {tick : Tick}
    (hr : r ∈ t.before.running) (hw : r.work = .reconcile tick) (id : String) : ¬ t.Notes id := by
  intro h
  obtain ⟨r', hr', phase, hw'⟩ := switch_of_notes hs h
  exact hs.not_switch_of_tick hr hw hr' id phase hw'

end Turn

namespace Controller

section

variable {timings : Timings} {held : Nat → Option String} {past : List Turn} {t : Turn}

theorem held_of_tick (hs : t.before.Sound timings) (hstore : StoreTurn held past t) {r : Running}
    {tick : Tick} (hr : r ∈ t.before.running) (hw : r.work = .reconcile tick) :
    held (past.length + 1) = held past.length := by
  rcases hstore.kept with h | ⟨id, hn, -⟩
  · exact h
  · exact absurd hn (Turn.not_notes_of_tick hs hr hw id)

theorem Follows.listed_resume (hstore : StoreTurn held past t) {r : Running} {tick : Tick}
    {signal : Signal} (hw : r.work = .reconcile tick)
    (hears : Hears t.before.later r t.event signal) (h : Follows held past r tick)
    {list : ProfileList} (hl : (tick.resume signal).profiles = some (.ok list)) :
    list.current = held past.length := by
  revert hl
  fun_cases Tick.resume tick signal <;> intro hl
  case case1 result =>
    cases hp : tick.profiles with
    | some known =>
      obtain rfl : known = .ok list := by simpa [hp] using hl
      exact h.listed _ hp
    | none =>
      obtain rfl : result = .ok list := by simpa [hp] using hl
      obtain ⟨request, ha, hanswer⟩ := hears.answers
      have hrequest : request = .list := by
        simpa [hw, Work.awaits, Tick.awaits, hp, apply_ite (_ ∈ ·)] using ha
      obtain ⟨k, hk, hafter, hlist⟩ := hstore.listed _ _ (hrequest ▸ hanswer)
      obtain ⟨earlier, u, later, hsplit, hasks, hconst⟩ := h.asked
      rw [hlist]
      exact hconst k (hafter earlier u later hsplit hasks) hk
  case case2 | case3 => exact h.listed _ hl

def Following (held : Nat → Option String) (past : List Turn) (c : Controller) : Prop :=
  ∀ r ∈ c.running, ∀ tick, r.work = .reconcile tick → Follows held past r tick

theorem Follows.asked_snoc {r r' : Running} {tick : Tick} (h : Follows held past r tick)
    (hid : r'.id = r.id) (hheld : held (past.length + 1) = held past.length) :
    ∃ earlier u later, past ++ [t] = earlier ++ u :: later ∧ u.Asks r'.id .list ∧
      ∀ k, earlier.length < k → k ≤ (past ++ [t]).length → held k = held (past ++ [t]).length := by
  obtain ⟨earlier, u, later, hsplit, hasks, hconst⟩ := h.asked
  refine ⟨earlier, u, later ++ [t], by simp [hsplit], hid ▸ hasks, ?_⟩
  intro k hk hle
  rw [List.length_append, List.length_singleton] at hle ⊢
  rcases Nat.lt_or_ge past.length k with hlt | hge
  · rw [Nat.le_antisymm hle hlt]
  · rw [hconst k hk hge, hheld]

theorem following_turn (hs : t.before.Sound timings) (hstore : StoreTurn held past t)
    (h : t.before.Following held past) : t.after.Following held (past ++ [t]) := by
  intro r hr tick hw
  have hsource := source_of_turn hs hr
  generalize ho : t.outputs = outputs at hsource
  cases hsource with
  | @kept r₀ _ _ hr₀ =>
    have hheld := held_of_tick hs hstore hr₀ hw
    have hf := h r₀ hr₀ tick hw
    refine ⟨?_, hf.asked_snoc rfl hheld⟩
    intro list hl
    rw [hf.listed list hl, List.length_append, List.length_singleton, hheld]
  | opened onset hi hopening =>
    generalize t.event = e at hopening
    cases hopening with
    | tick =>
      cases hw
      refine ⟨by simp [Tick.start], past, t, [], rfl, ⟨0, ?_⟩, ?_⟩
      · rw [ho]
        simp [Work.awaits, Tick.awaits, Tick.start]
      · intro k hk hle
        rw [List.length_append, List.length_singleton] at hle ⊢
        rw [Nat.le_antisymm hle hk]
    | switch | reload | recover | refresh => cases hw
  | joined onset haside =>
    generalize t.event = e at haside
    cases haside <;> cases hw
  | @advanced r₀ signal s' work asks hears ha =>
    generalize hw₀ : r₀.work = w at ha
    cases ha with
    | @reconcile tick₀ _ hresults =>
      cases hw
      have hr₀ := mem_of_find? hears.find?
      have hheld := held_of_tick hs hstore hr₀ hw₀
      have hf := h r₀ hr₀ tick₀ hw₀
      refine ⟨?_, hf.asked_snoc rfl hheld⟩
      intro list hl
      rw [hf.listed_resume hstore hw₀ hears hl, List.length_append, List.length_singleton, hheld]
    | switch | reload | recover | refresh => cases hw

/-- What becomes of a switch that is noting its profile: it goes on with that or commits, unless the
store is loosened. -/
theorem noting_fate (hs : t.before.Sound timings) (hl : ¬ t.Loosens) {r : Running}
    (hr : r ∈ t.before.running) (hn : r.work.isNoting = true) :
    (∃ r' ∈ t.after.running, r'.work.isNoting = true) ∨
      ∃ id remaining refresh, r.work = .switch id (.refreshing remaining refresh) ∧
        t.after.snapshot.currentConfig = some id := by
  obtain ⟨id, phase, hw⟩ := Work.switch_of_isNoting hn
  cases fate_of_turn hs hr with
  | goesOn h => exact .inl ⟨_, h, hn⟩
  | @advances signal s' work asks hears ha h =>
    rw [hw] at ha
    cases ha with
    | @switch _ _ _ _ phase' _ hresume =>
      rw [hw] at hn
      rcases Switch.resume_of_isNoting hresume hn with ⟨_, _, hstep, hn'⟩ | ⟨_, _, _, hstep⟩
      · cases hstep
        exact .inl ⟨_, h, hn'⟩
      · cases hstep
  | @ends signal s' result hears he hafter =>
    rw [hw] at he
    cases he with
    | switch hresume =>
      rw [hw] at hn
      rcases Switch.resume_of_isNoting hresume hn with
        ⟨_, _, hstep, -⟩ | ⟨remaining, refresh, rfl, hstep⟩
      · cases hstep
      · refine .inr ⟨id, remaining, refresh, hw, ?_⟩
        cases hstep
        rw [hafter, currentConfig_drop]
        exact Switch.currentConfig_of_done hresume
  | concludes hears hw' => simp [hw] at hw'
  | collapses he ha => exact absurd (.inr ⟨r, _, _, he, hs.find?_eq_some hr, ha, hn⟩) hl
  | aborted h =>
    obtain ⟨awaits, ho⟩ := hs.attended r hr (by simp [hw, Work.isDetached])
    have hd := h awaits ho
    simp [hw, Work.isDetached] at hd

theorem currentConfig_of_switch (hs : t.before.Sound timings) {r : Running} {id : String}
    {phase : Switch} (hr : r ∈ t.before.running) (hw : r.work = .switch id phase) :
    t.after.snapshot.currentConfig = t.before.snapshot.currentConfig ∨
      ∃ remaining refresh, phase = .refreshing remaining refresh := by
  cases moved_of_turn t with
  | kept h => exact .inl h
  | @committed r' id' phase' signal s' remaining hw' hears h ha =>
    obtain rfl := hs.eq_of_switch hr hw (mem_of_find? hears.find?) hw'
    obtain ⟨remaining', refresh, rfl⟩ := Switch.refreshing_of_done h
    obtain ⟨-, rfl⟩ : id = id' ∧ phase = .refreshing remaining' refresh := by simpa [hw] using hw'
    exact .inr ⟨remaining', refresh, rfl⟩
  | @adopted r' tick signal list proxies id' hw' hears h hlist ha =>
    exact absurd hw (hs.not_switch_of_tick (mem_of_find? hears.find?) hw' hr id phase)

/-- While a switch goes on, the store is told of its profile alone. -/
theorem held_of_switch (hs : t.before.Sound timings) (hstore : StoreTurn held past t)
    {r r' : Running} {id : String} {phase phase' : Switch} (hr : r ∈ t.before.running)
    (hw : r.work = .switch id phase) (hr' : r' ∈ t.after.running)
    (hw' : r'.work = .switch id phase') :
    held (past.length + 1) = held past.length ∨ held (past.length + 1) = some id := by
  rcases hstore.kept with h | ⟨id', hn, h⟩
  · exact .inl h
  · obtain ⟨r₁, remaining, hr₁ | hr₁, hw₁⟩ := Turn.storing_of_notes hn
    · obtain rfl := hs.eq_of_switch hr hw hr₁ hw₁
      obtain ⟨rfl, -⟩ : id = id' ∧ phase = .storing remaining := by simpa [hw] using hw₁
      exact .inr h
    · obtain rfl := (hs.step t.event).eq_of_switch hr' hw' hr₁ hw₁
      obtain ⟨rfl, -⟩ : id = id' ∧ phase' = .storing remaining := by simpa [hw'] using hw₁
      exact .inr h

theorem isNoting_eq_false {c : Controller} (h : c.Exclusive) {r : Running} (hr : r ∈ c.running)
    (ha : r.work.activity?.isSome) (hn : r.work.isNoting = false) :
    ∀ r' ∈ c.running, r'.work.isNoting = false := by
  intro r' hr'
  by_cases hn' : r'.work.isNoting = true
  · obtain ⟨id, phase, hw⟩ := Work.switch_of_isNoting hn'
    obtain rfl := h.eq_of_activity? hr hr' ha (by simp [hw, Work.activity?])
    exact hn
  · simpa using hn'

theorem permits_turn (hs : t.before.Sound timings) (hstore : StoreTurn held past t)
    (ha : t.before.Agrees (held past.length)) (hl : ¬ t.Loosens) {r : Running}
    (hr : r ∈ t.after.running) :
    r.work.Permits t.after.snapshot.currentConfig (held (past.length + 1)) := by
  by_cases hn : r.work.isNoting = true
  · obtain ⟨r₀, hr₀, -, id, phase, phase', hw₀, hw, hphase⟩ := Turn.noting_source hs hr hn
    have hcurrent := currentConfig_of_switch hs hr₀ hw₀
    have hpermits := hw₀ ▸ ha.permits r₀ hr₀
    rw [hw]
    rcases held_of_switch hs hstore hr₀ hw₀ hr hw with hheld | hheld
    · rw [hheld]
      rcases hphase with rfl | ⟨signal, hears, hnoting⟩
      · exact Work.permits_still hpermits hcurrent
      cases hnoting with
      | begins remaining =>
        -- nothing was noted before: the store holds what is current, and still does
        have hnone := isNoting_eq_false hs.toExclusive hr₀ (by simp [hw₀, Work.activity?])
          (by rw [hw₀]; rfl)
        rcases hcurrent with hc | ⟨remaining, refresh, hc⟩
        · exact .inl ((ha.held_eq hnone).trans hc.symm)
        · cases hc
      | made remaining result refresh =>
        obtain ⟨request, hm, hanswer⟩ := hears.answers
        have hrequest : request = .store id := by simpa [hw₀, Work.awaits, Switch.awaits] using hm
        cases result with
        | ok => exact hheld ▸ hstore.stored _ _ (hrequest ▸ hanswer)
        | error e => exact absurd (.inl ⟨_, _, e, hrequest ▸ hanswer⟩) hl
      | still => exact Work.permits_still hpermits hcurrent
      | refreshes => exact hpermits
    · rw [hheld]
      exact Work.permits_self _ _ _
  · exact Work.permits_of_not_isNoting (by simpa using hn) _ _

theorem currentConfig_of_concludes {r : Running} {list : ProfileList} {proxies : ProxySnapshot}
    {id : String} (h : t.Concludes r (.ok list) (.ok proxies)) (hl : list.current = some id) :
    t.after.snapshot.currentConfig = some id := by
  obtain ⟨tick, signal, hw, hears, hresults⟩ := h
  rw [Turn.after, step_of_hears hears]
  unfold resume
  simp only [hw, hresults, finish, currentConfig_drop, currentConfig_conclude]
  simp [Tick.finding, hl]

/-- The profile that a reconciliation takes over is the one that the store holds. -/
theorem held_of_concludes (hs : t.before.Sound timings) (hstore : StoreTurn held past t)
    (hf : t.before.Following held past) {r : Running} {list : ProfileList} {proxies : ProxySnapshot}
    (h : t.Concludes r (.ok list) (.ok proxies)) :
    held (past.length + 1) = list.current ∧ held past.length = list.current := by
  obtain ⟨tick, signal, hw, hears, hresults⟩ := h
  have hr := mem_of_find? hears.find?
  have hlist := (hf r hr tick hw).listed_resume hstore hw hears (Tick.of_results? hresults).1
  exact ⟨(held_of_tick hs hstore hr hw).trans hlist.symm, hlist.symm⟩

theorem held_eq_turn (hs : t.before.Sound timings) (hstore : StoreTurn held past t)
    (hf : t.before.Following held past) (ha : t.before.Agrees (held past.length)) (hl : ¬ t.Loosens)
    (hnone : ∀ r ∈ t.after.running, r.work.isNoting = false) :
    held (past.length + 1) = t.after.snapshot.currentConfig := by
  by_cases hbefore : ∃ r ∈ t.before.running, r.work.isNoting = true
  · obtain ⟨r, hr, hn⟩ := hbefore
    rcases noting_fate hs hl hr hn with ⟨r', hr', hn'⟩ | ⟨id, remaining, refresh, hw, hc⟩
    · simp [hnone r' hr'] at hn'
    · -- the switch commits what it has told the store
      have hpermits := ha.permits r hr
      rw [hw] at hpermits
      rw [hc]
      rcases hstore.kept with h | ⟨id', hnotes, h⟩
      · exact h.trans hpermits
      · obtain ⟨r₁, remaining₁, hr₁ | hr₁, hw₁⟩ := Turn.storing_of_notes hnotes
        · obtain rfl := hs.eq_of_switch hr hw hr₁ hw₁
          simp [hw] at hw₁
        · have hn₁ := hnone r₁ hr₁
          rw [hw₁] at hn₁
          cases hn₁
  · have hnone₀ : ∀ r ∈ t.before.running, r.work.isNoting = false := by simpa using hbefore
    have hkept : held (past.length + 1) = held past.length := by
      rcases hstore.kept with h | ⟨id', hnotes, -⟩
      · exact h
      · obtain ⟨r₁, remaining₁, hr₁, hw₁⟩ := Turn.storing_of_notes hnotes
        have hn₁ : r₁.work.isNoting = false := hr₁.elim (hnone₀ r₁) (hnone r₁)
        rw [hw₁] at hn₁
        cases hn₁
    cases moved_of_turn t with
    | kept h => rw [hkept, ha.held_eq hnone₀, h]; rfl
    | @committed r id phase signal s' remaining hw hears h hc =>
      obtain ⟨remaining', refresh, rfl⟩ := Switch.refreshing_of_done h
      have hn := hnone₀ r (mem_of_find? hears.find?)
      rw [hw] at hn
      cases hn
    | @adopted r tick signal list proxies id hw hears h hlist hc =>
      rw [hc, ← hlist]
      exact (held_of_concludes hs hstore hf ⟨tick, signal, hw, hears, h⟩).1

theorem agrees_of_settles (hs : t.before.Sound timings) (hstore : StoreTurn held past t)
    (hf : t.before.Following held past) (hl : ¬ t.Loosens) (h : t.Settles) :
    t.after.Agrees (held (past.length + 1)) := by
  rcases h with ⟨n, id, hanswer⟩ | ⟨r, list, proxies, id, hconcludes, hlist⟩
  · have hheld := hstore.stored n id hanswer
    obtain ⟨slot, r, -, hfind, ha⟩ := hanswer
    obtain ⟨remaining, hw⟩ := Work.storing_of_mem_awaits ha
    have hr := mem_of_find? hfind
    have hn : r.work.isNoting = true := by rw [hw]; rfl
    constructor
    · intro r' hr'
      cases hn' : r'.work.isNoting with
      | false => exact Work.permits_of_not_isNoting hn' _ _
      | true =>
        obtain ⟨r₀, hr₀, -, id₀, phase, phase', hw₀, hw', -⟩ := Turn.noting_source hs hr' hn'
        obtain rfl := hs.eq_of_switch hr hw hr₀ hw₀
        obtain ⟨rfl, -⟩ : id = id₀ ∧ _ := by simpa [hw] using hw₀
        rw [hw', hheld]
        exact Work.permits_self _ _ _
    · intro hnone
      rcases noting_fate hs hl hr hn with ⟨r', hr', hn'⟩ | ⟨_, _, _, hw', -⟩
      · simp [hnone r' hr'] at hn'
      · simp [hw] at hw'
  · have hheld := (held_of_concludes hs hstore hf hconcludes).1
    have htick := hconcludes
    obtain ⟨tick, signal, hw, hears, -⟩ := htick
    constructor
    · intro r' hr'
      cases hn' : r'.work.isNoting with
      | false => exact Work.permits_of_not_isNoting hn' _ _
      | true =>
        obtain ⟨r₀, hr₀, -, id₀, phase, phase', hw₀, -, -⟩ := Turn.noting_source hs hr' hn'
        exact absurd hw₀ (hs.not_switch_of_tick (mem_of_find? hears.find?) hw hr₀ id₀ phase)
    · intro
      rw [hheld, hlist, currentConfig_of_concludes hconcludes hlist]

theorem agrees_turn (hs : t.before.Sound timings) (hstore : StoreTurn held past t)
    (hf : t.before.Following held past)
    (h : t.before.Agrees (held past.length) ∨ Unsettled past) :
    t.after.Agrees (held (past ++ [t]).length) ∨ Unsettled (past ++ [t]) := by
  rw [List.length_append, List.length_singleton]
  by_cases hl : t.Loosens
  · exact .inr (Since.last hl)
  rcases h with ha | hu
  · exact .inl ⟨fun r hr => permits_turn hs hstore ha hl hr, held_eq_turn hs hstore hf ha hl⟩
  · by_cases hsettles : t.Settles
    · exact .inl (agrees_of_settles hs hstore hf hl hsettles)
    · exact .inr (hu.snoc hsettles)

end

end Controller
end CoreWarden
