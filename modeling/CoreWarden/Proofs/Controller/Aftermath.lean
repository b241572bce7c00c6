import CoreWarden.Proofs.Controller.Detection
import CoreWarden.Proofs.Controller.PendingReset

/-!
What goes on after the end of all periodic and delayed work, when nobody calls the controller anymore.
The work that callers have begun goes on. If it succeeds it arms the reset timer anew, and if it detects
a change it arms the debounced refresh anew; apart from that nothing is armed and nothing begins.
-/
namespace CoreWarden

open Controller (Hears Act Onset)
open Time (pauseEnd)

def Event.isMethod : Event → Bool
  | call _ | start | shutdown | visibility _ => true
  | abandon _ | answer .. | wake _ | pass _ => false

theorem Work.isDetached_of_succeeds {w : Work} {s : Shared} {signal : Signal}
    (h : w.succeeds s signal = true) : w.isDetached = true := by
  cases w with
  | switch | reload | recover => rfl
  | check | reconcile | refetch | refresh => cases h

namespace Controller

/-- No periodic work is set up, and no change of visibility waits. -/
structure Silent (c : Controller) : Prop where
  background : c.background = none
  visibility : c.visibility = .empty

theorem silent_shutdown (c : Controller) : c.shutdown.Silent := ⟨rfl, rfl⟩

variable {c c' : Controller} {e : Event} {origin : Origin}

/-- Without callers and periodic work only the timers of the debounced refresh and of visibility begin
anything. -/
theorem Silent.onset (h : c.Silent) (hm : e.isMethod = false) (ho : Onset c e origin c') :
    (e = .wake .debounce ∧ origin = .debounce ∨ e = .wake .visibility ∧ origin = .visibility) ∧
      c'.Silent := by
  cases ho with
  | call => cases hm
  | debounce => exact ⟨.inl ⟨rfl, rfl⟩, h.background, h.visibility⟩
  | visibility => exact ⟨.inr ⟨rfl, rfl⟩, h.background, rfl⟩
  | reconciler hb | poller hb => simp [h.background] at hb

theorem Silent.frame (h : c.Silent) (hb : c'.background = c.background)
    (hv : c'.visibility = c.visibility) : c'.Silent :=
  ⟨hb.trans h.background, hv.trans h.visibility⟩

theorem frame_conclude (c : Controller) (f : Tick.Finding) :
    (c.conclude f).background = c.background ∧ (c.conclude f).visibility = c.visibility := by
  refine conclude_induction (P := fun c' => c'.background = c.background ∧ c'.visibility = c.visibility)
    ⟨rfl, rfl⟩ ?_ ?_ ?_
  · intro c₁ id h₁
    exact h₁
  · intro c₁ h₁
    exact h₁
  · intro c₁ wall h₁
    exact h₁

theorem Silent.stopTicker (h : c.Silent) (origin : Origin) : (c.stopTicker origin).Silent := by
  unfold Controller.stopTicker
  split
  · exact ⟨by simp [h.background], h.visibility⟩
  · exact ⟨by simp [h.background], h.visibility⟩
  · exact h

theorem Silent.act (h : c.Silent) (hm : e.isMethod = false) {out : Controller × List Output}
    (ha : Act c e out) : out.1.Silent := by
  cases ha with
  | nothing => exact h
  | refused | exhausted | skippedCall | started | visibility => cases hm
  | shutDown => exact c.silent_shutdown
  | skippedTick ho | joins ho | begins ho =>
    obtain ⟨-, hsilent⟩ := h.onset hm ho
    exact hsilent.frame rfl rfl
  | resumed hs ho =>
    cases ho with
    | nothing => exact h
    | advance | ending => exact h.frame rfl rfl
    | @conclusion tick profiles proxies =>
      obtain ⟨hb, hv⟩ := c.frame_conclude (Tick.finding c.observedShape c.state profiles proxies)
      exact h.frame hb hv
  | collapsed => exact (h.stopTicker _).frame rfl rfl
  | droppedRefresh | detached | abandoned | expired | passed => exact h.frame rfl rfl

end Controller

namespace Turn

variable {t : Turn}

theorem silent_turn (h : t.before.Silent) (hm : t.event.isMethod = false) : t.after.Silent := by
  have hlater : t.before.later.Silent := h.frame rfl rfl
  exact hlater.act hm (Controller.act_step t.before t.event)

/-- A refresh that is armed after a turn was so before, or the turn has detected a change. -/
theorem armed_before (h : t.after.debounce.isPending = true) :
    t.before.debounce.isPending = true ∨ ∃ n, t.Detects n := by
  by_cases hdetects : ∃ n, t.Detects n
  · exact .inr hdetects
  refine .inl ?_
  by_cases hw : t.event = .wake .debounce
  · by_cases hfires : t.Fires
    · rw [after, step_of_fires hfires, Controller.startDebounced] at h
      dsimp only at h
      split at h <;> cases h
    · rw [step_of_not_fires hw hfires] at h
      exact h
  · by_cases hne : t.event = .shutdown
    · rw [after, hne] at h
      cases h
    · rwa [debounce_eq hne hw (not_exists.mp hdetects)] at h

theorem isPending_of_fires (h : t.Fires) : t.before.debounce.isPending = true := by
  obtain ⟨-, due, hd, -⟩ := h
  obtain ⟨alarm, hwaiting, -⟩ : ∃ alarm, t.before.debounce.waiting = some alarm ∧ alarm.due = due := by
    simpa [TimerSlot.due?] using hd
  simp [TimerSlot.isPending, hwaiting]

def Inherits (t : Turn) (r : Running) : Prop :=
  ∃ r' ∈ t.before.running, r'.id = r.id ∧ r'.work.activity? = r.work.activity? ∧
    r'.work.isDetached = r.work.isDetached ∧ (r.origin = r'.origin ∨ r.origin = .caller false) ∧
    ((∃ refresh, r'.work = .refresh refresh) → ∃ refresh, r.work = .refresh refresh)

theorem inherits_of_mem {r : Running} (h : r ∈ t.before.running) : t.Inherits r :=
  ⟨r, h, rfl, rfl, rfl, .inl rfl, id⟩

theorem begins_of_fires (h : t.Fires) {r : Running} (hr : r ∈ t.after.running) :
    t.Inherits r ∨ r.origin = .debounce ∧ ∃ refresh, r.work = .refresh refresh := by
  by_cases hi : t.before.state.activity = .idle
  · obtain ⟨shared, hstart⟩ := t.before.later.startDebounced_of_idle hi
    rw [after, step_of_fires h, hstart] at hr
    rcases List.mem_append.mp hr with hr | hr
    · exact .inl (inherits_of_mem hr)
    · obtain rfl := List.mem_singleton.mp hr
      exact .inr ⟨rfl, _, rfl⟩
  · have henter : { t.before.later with debounce := .empty }.state.enter .reconciling = _ :=
      SyncState.enter_of_ne_idle _ _ hi
    rw [after, step_of_fires h, Controller.startDebounced] at hr
    dsimp only at hr
    rw [henter] at hr
    exact .inl (inherits_of_mem hr)

theorem begins_of_silent {timings : Timings} (hs : t.before.Sound timings) (h : t.before.Silent)
    (hm : t.event.isMethod = false) {r : Running} (hr : r ∈ t.after.running) :
    t.Inherits r ∨ t.Fires ∧ r.origin = .debounce ∧ ∃ refresh, r.work = .refresh refresh := by
  by_cases hfires : t.Fires
  · exact (begins_of_fires hfires hr).imp_right fun hnew => ⟨hfires, hnew⟩
  left
  by_cases hw : t.event = .wake .debounce
  · rw [step_of_not_fires hw hfires] at hr
    exact inherits_of_mem hr
  by_cases hv : t.event = .wake .visibility
  · have hnone : t.before.due? .visibility = none := by
      rw [Controller.due?, h.visibility]
      rfl
    rw [after, hv, Controller.step_of_not_due (by simp [hnone])] at hr
    exact inherits_of_mem hr
  have hlater : t.before.later.Silent := h.frame rfl rfl
  have hnew : ∀ origin c', ¬ Onset t.before.later t.event origin c' := by
    intro origin c' onset
    rcases (hlater.onset hm onset).1 with ⟨he, -⟩ | ⟨he, -⟩
    · exact hw he
    · exact hv he
  have hsource := Controller.source_of_turn hs hr
  generalize t.outputs = outputs at hsource
  cases hsource with
  | @kept r₀ _ _ hr₀ ho => exact ⟨r₀, hr₀, rfl, rfl, rfl, ho, id⟩
  | opened onset | joined onset => exact absurd onset (hnew _ _)
  | @advanced r₀ signal s' work asks hears ha =>
    refine ⟨r₀, Controller.mem_of_find? hears.find?, rfl, ha.activity?.symm, ha.isDetached.symm,
      .inl rfl, ?_⟩
    rintro ⟨refresh, hrefresh⟩
    rw [hrefresh] at ha
    cases ha
    exact ⟨_, rfl⟩

end Turn

namespace Controller

/-- What goes on after the end of all periodic work at `c₀`: work of callers that went on then, and
debounced refreshes. -/
structure Aftermath (c₀ : Controller) (past : List Turn) (c : Controller) : Prop extends c.Silent where
  origin : ∀ r ∈ c.running, r.origin = .debounce ∨ ∃ awaits, r.origin = .caller awaits
  work : ∀ r ∈ c.running, (∃ refresh, r.work = .refresh refresh) ∨
    ∃ r₀ ∈ c₀.running, r₀.id = r.id ∧ r₀.work.activity? = r.work.activity? ∧
      r₀.work.isDetached = r.work.isDetached
  armed : c.debounce.isPending = true → ∃ u ∈ past, ∃ n, u.Detects n
  pends : c.ResetPends past

theorem origin_of_mem_shutdown {c : Controller} {r : Running} (h : r ∈ c.shutdown.running) :
    ∃ awaits, r.origin = .caller awaits := by
  have hmem : r ∈ ((((c.abort .reconciler).abort .poller).abort .debounce).abort .visibility).running := h
  simp only [abort, drop, onState, onShared, List.mem_filter, Bool.not_eq_true',
    beq_eq_false_iff_ne] at hmem
  obtain ⟨⟨⟨⟨-, hreconciler⟩, hpoller⟩, hdebounce⟩, hvisibility⟩ := hmem
  cases ho : r.origin with
  | caller awaits => exact ⟨awaits, rfl⟩
  | debounce => exact absurd ho hdebounce
  | visibility => exact absurd ho hvisibility
  | reconciler => exact absurd ho hreconciler
  | poller => exact absurd ho hpoller

theorem aftermath_shutdown (c : Controller) : Aftermath c.shutdown [] c.shutdown where
  toSilent := c.silent_shutdown
  origin _ hr := .inr (origin_of_mem_shutdown hr)
  work r hr := .inr ⟨r, hr, rfl, rfl, rfl⟩
  armed h := by cases h
  pends h := by cases h

variable {timings : Timings} {c₀ : Controller} {past : List Turn} {t : Turn}

theorem aftermath_turn (hs : t.before.Sound timings) (h : Aftermath c₀ past t.before)
    (hm : t.event.isMethod = false) : Aftermath c₀ (past ++ [t]) t.after where
  toSilent := Turn.silent_turn h.toSilent hm
  origin r hr := by
    rcases Turn.begins_of_silent hs h.toSilent hm hr with ⟨r', hr', -, -, -, ho | ho, -⟩ | ⟨-, ho, -⟩
    · exact ho ▸ h.origin r' hr'
    · exact .inr ⟨false, ho⟩
    · exact .inl ho
  work r hr := by
    rcases Turn.begins_of_silent hs h.toSilent hm hr with ⟨r', hr', hid, ha, hd, -, hrefresh⟩ | ⟨-, -, hw⟩
    · rw [← hid, ← ha, ← hd]
      exact (h.work r' hr').imp_left hrefresh
    · exact .inl hw
  armed hpending := by
    rcases Turn.armed_before hpending with hbefore | hdetects
    · exact exists_mem_snoc (h.armed hbefore) t
    · exact exists_mem_last (p := fun u => ∃ n, u.Detects n) hdetects
  pends := resetPends_turn h.pends

theorem aftermath_run {c : Controller} (hs : c.Sound timings) (es : List Event)
    (hes : ∀ e ∈ es, e.isMethod = false) :
    let ended : Turn := ⟨c, .shutdown⟩
    (ended.after.run es).1.Sound timings ∧
      Aftermath ended.after (ended.after.turns es) (ended.after.run es).1 := by
  intro ended
  have hstart : Aftermath ended.after [] ended.after := c.later.aftermath_shutdown
  induction es using List.reverseRecOn with
  | nil => exact ⟨hs.step .shutdown, hstart⟩
  | append_singleton es e ih =>
    obtain ⟨hsound, haftermath⟩ := ih fun e' he' => hes e' (List.mem_append_left _ he')
    have hm : e.isMethod = false := hes e (List.mem_append_right _ (List.mem_singleton.mpr rfl))
    rw [run_snoc, turns_snoc]
    exact ⟨hsound.step e, aftermath_turn (t := ⟨_, e⟩) hsound haftermath hm⟩

theorem Aftermath.of_succeeds (h : Aftermath c₀ past t.before) (hsucceeds : t.succeeds = true) :
    ∃ r ∈ c₀.running, r.work.isDetached = true ∧
      ∃ r' signal, Hears t.before.later r' t.event signal ∧ r'.id = r.id := by
  obtain ⟨⟨r', signal⟩, hheard, hw⟩ := (Option.any_eq_true _ _).mp hsucceeds
  have hears := hears_of_heard? hheard
  have hd := Work.isDetached_of_succeeds hw
  rcases h.work r' (mem_of_find? hears.find?) with ⟨refresh, hrefresh⟩ | ⟨r, hr, hid, -, hdetached⟩
  · rw [hrefresh] at hd
    cases hd
  · exact ⟨r, hr, hdetached.trans hd, r', signal, hears, hid.symm⟩

theorem Aftermath.of_detects (h : Aftermath c₀ past t.before) {n : Nat} (hdetects : t.Detects n) :
    ∃ r ∈ c₀.running, r.id = n ∧ r.work.activity? = some .reconciling := by
  obtain ⟨r', profiles, proxies, ⟨tick, signal, hw, hears, -⟩, rfl, -⟩ := hdetects
  rcases h.work r' (mem_of_find? hears.find?) with ⟨refresh, hrefresh⟩ | ⟨r, hr, hid, ha, -⟩
  · rw [hw] at hrefresh
    cases hrefresh
  · exact ⟨r, hr, hid, by rw [ha, hw]; rfl⟩

/-- In every run in which all periodic and delayed work ends and nobody calls the controller afterwards,
while the work that callers have begun may go on: no periodic work is set up or under way, no change of
visibility waits, and no reconciliation begins. The reset timer waits only for a success that was recorded
since, and clears the attempts only a full pause after it; the debounced refresh waits, and begins, only
after a change that was detected since. Such a success or detection is by work that was going on then. -/
theorem shutdown_leaves_callers_work (timings : Timings) (currentConfig : Option String)
    (es₀ es : List Event) (e : Event) (hes : ∀ e' ∈ es, e'.isMethod = false)
    (he : e.isMethod = false) :
    let ended : Turn := ⟨((initial timings currentConfig).run es₀).1, .shutdown⟩
    let past := ended.after.turns es
    let t : Turn := ⟨(ended.after.run es).1, e⟩
    let pause := timings.attemptReset.toNat
    (t.before.background = none ∧ t.before.visibility.isPending = false ∧
      ∀ r ∈ t.before.running, r.origin = .debounce ∨ ∃ awaits, r.origin = .caller awaits) ∧
    (t.before.state.reset.isPending = true →
      Since (fun _ u => u.succeeds = true ∧ t.before.state.reset.due? = some (pauseEnd u.now pause))
        (fun u => u.succeeds = false ∧ u.failure? = none) past) ∧
    (t.after.attempts < t.before.attempts →
      Since (fun _ u => u.succeeds = true ∧ pauseEnd u.now pause ≤ t.now)
        (fun u => u.succeeds = false ∧ u.failure? = none) past) ∧
    (t.before.debounce.isPending = true → ∃ u ∈ past, ∃ n, u.Detects n) ∧
    (∀ r ∈ t.after.running, (∃ r' ∈ t.before.running, r'.id = r.id) ∨
      (t.Fires ∧ (∃ refresh, r.work = .refresh refresh) ∧ ∃ u ∈ past, ∃ n, u.Detects n)) ∧
    (t.succeeds = true → ∃ r ∈ ended.after.running, r.work.isDetached = true ∧
      ∃ r' signal, Hears t.before.later r' t.event signal ∧ r'.id = r.id) ∧
    (∀ n, t.Detects n →
      ∃ r ∈ ended.after.running, r.id = n ∧ r.work.activity? = some .reconciling) := by
  intro ended past t pause
  obtain ⟨hs, haftermath⟩ :=
    aftermath_run ((sound_initial timings currentConfig).run es₀) es hes
  have hlimits : t.before.limits.2 = pause := by
    have hended : ended.after.limits = (initial timings currentConfig).limits :=
      (limits_step _ _).trans (limits_run _ es₀)
    exact congrArg Prod.snd ((limits_run ended.after es).trans hended)
  have hpends := haftermath.pends
  rw [ResetPends] at hpends
  refine ⟨⟨haftermath.background, ?_, haftermath.origin⟩, ?_, ?_, haftermath.armed, ?_,
    haftermath.of_succeeds (t := t), fun n => haftermath.of_detects (t := t)⟩
  · rw [haftermath.visibility]
    rfl
  · intro hp
    exact hlimits ▸ hpends hp
  · intro hlt
    have hclears := Turn.clears_of_attempts_lt (t := t) hs hlt
    refine (hpends (Turn.isPending_of_clears hclears)).mono ?_
    rintro earlier u ⟨hu, hdue⟩
    exact ⟨hu, hlimits ▸ Turn.due_le_of_clears hclears hdue⟩
  · intro r hr
    rcases Turn.begins_of_silent (t := t) hs haftermath.toSilent he hr with
      ⟨r', hr', hid, -⟩ | ⟨hfires, -, hw⟩
    · exact .inl ⟨r', hr', hid⟩
    · exact .inr ⟨hfires, hw, haftermath.armed (Turn.isPending_of_fires hfires)⟩

def switchGoesOn : List Event :=
  [.answer 1 0 (.status (.error .notConfigured)), .answer 1 0 (.switch (.ok ())), .pass 3000,
    .wake (.work 1), .answer 1 1 (.version (.ok ⟨"1", false⟩)),
    .answer 1 0 (.status (.error .notConfigured)), .answer 1 0 (.store (.ok ())),
    .answer 1 0 (.list (.error .notConfigured)), .answer 1 1 (.proxies (.error .notConfigured)),
    .answer 1 2 (.config (.error .notConfigured)), .pass 30000]

/-- A recovery that goes well, and then a switch that is going on when all periodic work ends. -/
def switchInFlight : List Event := smoothRecovery ++ [.call (.switch "b")]

/-- The switch arms the reset timer, which clears the attempts although all timers were called off. -/
theorem switch_arms_reset_after_shutdown :
    let ended : Turn := ⟨((initial Timings.standard (some "a")).run switchInFlight).1, .shutdown⟩
    let t : Turn := ⟨(ended.after.run switchGoesOn).1, .wake .reset⟩
    (∀ e ∈ switchGoesOn, e.isMethod = false) ∧ ended.after.state.reset.isPending = false ∧
      t.before.state.reset.isPending = true ∧ t.after.attempts < t.before.attempts := by
  decide +kernel

theorem shutdown_leaves_switch :
    let ended : Turn := ⟨((initial Timings.standard (some "a")).run switchInFlight).1, .shutdown⟩
    let t : Turn := ⟨(ended.after.run switchGoesOn).1, .wake .reset⟩
    (∀ e ∈ switchGoesOn, e.isMethod = false) ∧ t.event.isMethod = false ∧
      t.after.attempts < t.before.attempts ∧
      Since (fun _ u => u.succeeds = true ∧ pauseEnd u.now Timings.standard.attemptReset.toNat ≤ t.now)
        (fun u => u.succeeds = false ∧ u.failure? = none) (ended.after.turns switchGoesOn) := by
  intro ended t
  have hes : ∀ e ∈ switchGoesOn, e.isMethod = false := by decide
  have hcleared : t.after.attempts < t.before.attempts := by decide +kernel
  obtain ⟨-, -, hsince, -⟩ := shutdown_leaves_callers_work Timings.standard (some "a") switchInFlight
    switchGoesOn (.wake .reset) hes rfl
  exact ⟨hes, rfl, hcleared, hsince hcleared⟩

end Controller
end CoreWarden
