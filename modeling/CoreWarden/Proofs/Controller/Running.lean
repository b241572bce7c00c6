import CoreWarden.Proofs.Controller.Exclusion

/-!
The work that goes on: where it comes from, what becomes of it, and which calls are begun. All of it
follows from the cases of `Act`.
-/
namespace CoreWarden

/-! ### The calls that a signal begins are waited for -/

theorem Probe.asks_subset_failed {pace : Pace} {started attempt now : Nat} {e : Error} {probe : Probe}
    {asks : List (Nat × Request)} (h : failed pace started attempt now e = .waiting probe asks) :
    asks ⊆ probe.awaits := by
  revert h
  fun_cases failed pace started attempt now e <;> intro h <;> cases h
  exact List.nil_subset _

theorem Probe.asks_subset {pace : Pace} {now : Nat} {probe probe' : Probe} {signal : Signal}
    {asks : List (Nat × Request)} (h : probe.resume pace now signal = .waiting probe' asks) :
    asks ⊆ probe'.awaits := by
  revert h
  fun_cases Probe.resume pace now probe signal <;> intro h
  case case2 | case4 => exact asks_subset_failed h
  all_goals cases h
  case case5 => exact List.Subset.refl _
  all_goals exact List.nil_subset _

theorem Switch.asks_subset_probed {s s' : Shared} {id : String} {phase : Switch}
    {asks : List (Nat × Request)} {progress : Progress Probe (Except Error Unit)}
    (hp : ∀ probe asks, progress = .waiting probe asks → asks ⊆ probe.awaits)
    (h : probed s id progress = (s', .waiting phase asks)) : asks ⊆ phase.awaits id := by
  revert h
  fun_cases probed s id progress <;> intro h <;> cases h
  case case1 => exact hp _ _ rfl
  all_goals exact List.Subset.refl _

theorem Switch.asks_subset {s s' : Shared} {id : String} {phase phase' : Switch} {signal : Signal}
    {asks : List (Nat × Request)} (h : resume s id phase signal = (s', .waiting phase' asks)) :
    asks ⊆ phase'.awaits id := by
  revert h
  fun_cases resume s id phase signal <;> intro h
  case case8 =>
    apply asks_subset_probed _ h
    intro probe asks hp
    cases hp
    exact List.Subset.refl _
  case case9 => exact asks_subset_probed (fun _ _ => Probe.asks_subset) h
  case case12 remaining refresh refresh' t hr =>
    unfold refreshed at h
    split at h <;> cases h
    exact List.nil_subset _
  all_goals cases h
  case case3 | case6 | case14 => exact List.nil_subset _
  all_goals exact List.Subset.refl _

theorem Reload.asks_subset_probed {s s' : Shared} {phase : Reload} {asks : List (Nat × Request)}
    {progress : Progress Probe (Except Error Unit)}
    (hp : ∀ probe asks, progress = .waiting probe asks → asks ⊆ probe.awaits)
    (h : probed s progress = (s', .waiting phase asks)) : asks ⊆ phase.awaits := by
  revert h
  fun_cases probed s progress <;> intro h <;> cases h
  case case1 => exact hp _ _ rfl
  case case3 => exact List.Subset.refl _

theorem Reload.asks_subset {s s' : Shared} {phase phase' : Reload} {signal : Signal}
    {asks : List (Nat × Request)} (h : resume s phase signal = (s', .waiting phase' asks)) :
    asks ⊆ phase'.awaits := by
  revert h
  fun_cases resume s phase signal <;> intro h
  case case3 =>
    apply asks_subset_probed _ h
    intro probe asks hp
    cases hp
    exact List.Subset.refl _
  case case4 => exact asks_subset_probed (fun _ _ => Probe.asks_subset) h
  case case5 refresh refresh' t hr =>
    unfold refreshed at h
    split at h <;> cases h
    exact List.nil_subset _
  all_goals cases h
  all_goals exact List.nil_subset _

theorem Recovery.asks_subset {s s' : Shared} {attempt : UInt32} {phase phase' : Recovery}
    {signal : Signal} {asks : List (Nat × Request)}
    (h : resume s attempt phase signal = (s', .waiting phase' asks)) : asks ⊆ phase'.awaits := by
  revert h
  fun_cases resume s attempt phase signal <;> intro h
  case case3 reload =>
    generalize hr : Reload.resume s reload signal = step at h
    fun_cases reloaded step <;> cases h
    · exact Reload.asks_subset hr
    · exact List.Subset.refl _
  case case5 refresh refresh' t hr =>
    unfold refreshed at h
    split at h <;> cases h
    exact List.nil_subset _
  all_goals cases h
  case case6 => exact List.nil_subset _
  all_goals exact List.Subset.refl _

namespace Work

theorem Advance.asks_subset {s s' : Shared} {w w' : Work} {signal : Signal}
    {asks : List (Nat × Request)} (h : w.Advance s signal s' w' asks) : asks ⊆ w'.awaits := by
  cases h with
  | switch h => exact Switch.asks_subset h
  | reload h => exact Reload.asks_subset h
  | recover h => exact Recovery.asks_subset h
  | reconcile | refresh => exact List.nil_subset _

theorem Advance.isDetached {s s' : Shared} {w w' : Work} {signal : Signal}
    {asks : List (Nat × Request)} (h : w.Advance s signal s' w' asks) :
    w'.isDetached = w.isDetached := by
  cases h <;> rfl

theorem Advance.fixed {s s' : Shared} {w w' : Work} {signal : Signal} {asks : List (Nat × Request)}
    (h : w.Advance s signal s' w' asks) : s.Fixed s' := by
  cases h with
  | switch h => exact (Switch.effect h).2
  | reload h => exact (Reload.effect h).2
  | recover h => exact (Recovery.effect h).2
  | reconcile h => exact s.fixed_refl
  | refresh h hd =>
    obtain ⟨cache, rfl⟩ := Shared.resumeRefresh_eq h
    exact ⟨rfl, rfl, rfl⟩

theorem Ending.fixed {s s' : Shared} {w : Work} {signal : Signal} {result : Option Result}
    (h : w.Ending s signal s' result) : s.Fixed s' := by
  cases h with
  | switch h => exact (Switch.effect h).2
  | reload h => exact (Reload.effect_reloadEnded h).2
  | recover h => exact (Recovery.effect h).2
  | check result => exact s.fixed_onState _
  | refetched h => exact ⟨rfl, rfl, rfl⟩
  | notRefetched h => exact s.fixed_refl
  | refresh h hd =>
    obtain ⟨cache, rfl⟩ := Shared.resumeRefresh_eq h
    exact ⟨rfl, rfl, rfl⟩

end Work

namespace Controller

/-! ### Where work comes from and what becomes of it -/

inductive Source (c : Controller) (e : Event) : Running → List Output → Prop
  | kept {r origin outputs} (hr : r ∈ c.running) (ho : origin = r.origin ∨ origin = .caller false) :
      Source c e { r with origin } outputs
  | opened {origin c' work s'} (ho : Onset c e origin c') (hi : c.state.activity = .idle)
      (hw : Opening c.shared e work s') : Source c e ⟨c.nextId, origin, work⟩
        (work.awaits.map fun a => .ask c.nextId a.1 a.2)
  | joined {origin c' work} (ho : Onset c e origin c') (hw : Aside e work) :
      Source c e ⟨c.nextId, origin, work⟩ (work.awaits.map fun a => .ask c.nextId a.1 a.2)
  | advanced {r signal s' work asks} (hs : Hears c r e signal)
      (ha : r.work.Advance c.shared signal s' work asks) :
      Source c e { r with work } (asks.map fun a => .ask r.id a.1 a.2)

inductive Fate (c : Controller) (e : Event) (r : Running) (after : Controller) : Prop
  | goesOn {origin} (h : { r with origin } ∈ after.running)
  | advances {signal s' work asks} (hs : Hears c r e signal)
      (ha : r.work.Advance c.shared signal s' work asks) (h : { r with work } ∈ after.running)
  | ends {signal s' result} (hs : Hears c r e signal) (he : r.work.Ending c.shared signal s' result)
      (h : after = { c with shared := s' }.drop (·.id == r.id))
  | concludes {signal tick profiles proxies} (hs : Hears c r e signal) (hw : r.work = .reconcile tick)
      (ht : (tick.resume signal).results? = some (profiles, proxies))
      (h : after = (c.conclude (Tick.finding c.observedShape c.state profiles proxies)).drop
        (·.id == r.id))
  | collapses {slot request} (he : e = .answer r.id slot .collapsed)
      (ha : (slot, request) ∈ r.work.awaits)
  /-- Work that was not begun by a caller, or does not go on without him. -/
  | aborted (h : ∀ awaits, r.origin = .caller awaits → r.work.isDetached = false)

theorem Source.same {c : Controller} {e : Event} {r : Running} {outputs : List Output}
    (hr : r ∈ c.running) : Source c e r outputs :=
  .kept hr (.inl rfl)

theorem Fate.same {c after : Controller} {e : Event} {r : Running} (h : r ∈ after.running) :
    Fate c e r after :=
  .goesOn h

theorem mem_of_mem_drop {c : Controller} {p : Running → Bool} {r : Running}
    (h : r ∈ (c.drop p).running) : r ∈ c.running :=
  (List.mem_filter.mp h).1

theorem mem_drop {c : Controller} {p : Running → Bool} {r : Running} (h : r ∈ c.running)
    (hp : p r = false) : r ∈ (c.drop p).running :=
  List.mem_filter.mpr ⟨h, by simp [hp]⟩

theorem mem_replaceWork {c : Controller} {r : Running} (h : r ∈ c.running) (work : Work) :
    { r with work } ∈ (c.replaceWork r.id work).running :=
  List.mem_map.mpr ⟨r, h, by simp⟩

theorem mem_of_mem_conclude {c : Controller} {f : Tick.Finding} {r : Running}
    (h : r ∈ (c.conclude f).running) : r ∈ c.running := by
  revert h
  refine conclude_induction (P := fun c' => r ∈ c'.running → r ∈ c.running) id ?_ ?_ ?_
  · intro c₁ id h₁
    exact h₁
  · intro c₁ h₁ h
    exact h₁ (mem_of_mem_drop h)
  · intro c₁ wall h₁
    exact h₁

theorem mem_of_mem_changeVisibility {c : Controller} {visible : Bool} {r : Running}
    (h : r ∈ (c.changeVisibility visible).running) : r ∈ c.running := by
  obtain ⟨c₁, slot, rfl | rfl, hc⟩ := c.changeVisibility_eq visible <;> rw [hc] at h
  · exact mem_of_mem_drop (c := c₁) h
  · exact mem_of_mem_drop (c := c.onState .recordSkippedTick) h

theorem mem_of_mem_shutdown {c : Controller} {r : Running} (h : r ∈ c.shutdown.running) :
    r ∈ c.running := by
  have ha : r ∈ ((((c.abort .reconciler).abort .poller).abort .debounce).abort
      .visibility).running := h
  simp only [abort] at ha
  exact mem_of_mem_drop (mem_of_mem_drop (mem_of_mem_drop (mem_of_mem_drop ha)))

theorem running_startBackground (c : Controller) : c.startBackground.running = c.running := by
  unfold startBackground
  split <;> rfl

theorem running_stopTicker (c : Controller) (origin : Origin) :
    (c.stopTicker origin).running = c.running := by
  unfold stopTicker
  split <;> rfl

theorem source_of_resumed {c : Controller} (hn : c.Numbered) {e : Event} {r r' : Running}
    {signal : Signal} {out : Controller × List Output} (hs : Hears c r e signal)
    (h : Resumed c r signal out) (hr : r' ∈ out.1.running) : Source c e r' out.2 := by
  cases h with
  | nothing => exact .same hr
  | advance ha =>
    obtain ⟨r₀, hr₀, rfl⟩ := List.mem_map.mp hr
    by_cases hid : r₀.id = r.id
    · obtain rfl := hn.eq_of_id hr₀ (mem_of_find? hs.find?) hid
      simp only [beq_self_eq_true, if_true]
      exact .advanced hs ha
    · simp only [beq_eq_false_iff_ne.mpr hid]
      exact .same hr₀
  | ending => exact .same (mem_of_mem_drop (c := { c with shared := _ }) hr)
  | conclusion => exact .same (mem_of_mem_conclude (mem_of_mem_drop hr))

theorem source_of_act {c : Controller} (hn : c.Numbered) {e : Event} {r : Running}
    {out : Controller × List Output} (h : Act c e out) (hr : r ∈ out.1.running) :
    Source c e r out.2 := by
  cases h with
  | nothing | refused | exhausted | skippedCall | droppedRefresh | expired | passed => exact .same hr
  | skippedTick ho =>
    obtain ⟨-, hrun, -, -⟩ := ho.frame
    exact .same (hrun ▸ hr)
  | begins ho hi hw =>
    obtain ⟨-, hrun, hid, -⟩ := ho.frame
    simp only [launch, hrun, hid, List.mem_append, List.mem_singleton] at hr ⊢
    rcases hr with hr | rfl
    · exact .same hr
    · exact .opened ho hi hw
  | joins ho hw =>
    obtain ⟨-, hrun, hid, -⟩ := ho.frame
    simp only [launch, hrun, hid, List.mem_append, List.mem_singleton] at hr ⊢
    rcases hr with hr | rfl
    · exact .same hr
    · exact .joined ho hw
  | resumed hs ho => exact source_of_resumed hn hs ho hr
  | @collapsed r₀ =>
    have hr' : r ∈ (c.stopTicker r₀.origin).running := mem_of_mem_drop hr
    exact .same (c.running_stopTicker _ ▸ hr')
  | detached =>
    obtain ⟨r₀, hr₀, rfl⟩ := List.mem_map.mp hr
    dsimp only
    split
    · exact .kept hr₀ (.inr rfl)
    · exact .same hr₀
  | abandoned => exact .same (mem_of_mem_drop hr)
  | started => exact .same (c.running_startBackground ▸ hr)
  | shutDown => exact .same (mem_of_mem_shutdown hr)
  | visibility => exact .same (mem_of_mem_changeVisibility hr)

theorem mem_abort {c : Controller} {origin : Origin} {r : Running} (h : r ∈ c.running)
    (ho : r.origin ≠ origin) : r ∈ (c.abort origin).running :=
  mem_drop h (beq_eq_false_iff_ne.mpr ho)

theorem mem_conclude {c : Controller} {f : Tick.Finding} {r : Running} (h : r ∈ c.running)
    (ho : r.origin ≠ .debounce) : r ∈ (c.conclude f).running := by
  refine conclude_induction (P := fun c' => r ∈ c'.running) h ?_ ?_ ?_
  · intro c₁ id h₁
    exact h₁
  · intro c₁ h₁
    exact mem_abort h₁ ho
  · intro c₁ wall h₁
    exact h₁

theorem mem_changeVisibility {c : Controller} {visible : Bool} {r : Running} (h : r ∈ c.running)
    (ho : r.origin ≠ .visibility) : r ∈ (c.changeVisibility visible).running := by
  obtain ⟨c₁, slot, rfl | rfl, hc⟩ := c.changeVisibility_eq visible <;> rw [hc]
  · exact mem_abort (c := c₁) h ho
  · exact mem_abort (c := c.onState .recordSkippedTick) h ho

theorem mem_shutdown {c : Controller} {r : Running} (h : r ∈ c.running)
    (ho : ∃ awaits, r.origin = .caller awaits) : r ∈ c.shutdown.running := by
  obtain ⟨awaits, ho⟩ := ho
  have ha : r ∈ ((((c.abort .reconciler).abort .poller).abort .debounce).abort .visibility).running :=
    mem_abort (mem_abort (mem_abort (mem_abort h (by simp [ho])) (by simp [ho])) (by simp [ho]))
      (by simp [ho])
  exact ha

theorem fate_of_resumed {c : Controller} (hn : c.Numbered) {e : Event} {r r' : Running}
    {signal : Signal} {out : Controller × List Output} (hs : Hears c r e signal)
    (h : Resumed c r signal out) (hr : r' ∈ c.running) : Fate c e r' out.1 := by
  by_cases hid : r'.id = r.id
  · obtain rfl := hn.eq_of_id hr (mem_of_find? hs.find?) hid
    cases h with
    | nothing => exact .same hr
    | advance ha => exact .advances hs ha (mem_replaceWork (c := { c with shared := _ }) hr _)
    | ending he => exact .ends hs he rfl
    | conclusion hw ht => exact .concludes hs hw ht rfl
  · have hkept : (r'.id == r.id) = false := beq_eq_false_iff_ne.mpr hid
    cases h with
    | nothing => exact .same hr
    | advance => exact .same (List.mem_map.mpr ⟨r', hr, by simp [hkept]⟩)
    | ending => exact .same (mem_drop (c := { c with shared := _ }) hr hkept)
    | conclusion =>
      by_cases ho : r'.origin = .debounce
      · exact .aborted (by simp [ho])
      · exact .same (mem_drop (mem_conclude hr ho) hkept)

theorem fate_of_act {c : Controller} (hn : c.Numbered) {e : Event} {r : Running}
    {out : Controller × List Output} (h : Act c e out) (hr : r ∈ c.running) : Fate c e r out.1 := by
  cases h with
  | nothing | refused | exhausted | skippedCall | droppedRefresh | expired | passed => exact .same hr
  | skippedTick ho =>
    obtain ⟨-, hrun, -, -⟩ := ho.frame
    exact .same (hrun ▸ hr)
  | begins ho =>
    obtain ⟨-, hrun, -, -⟩ := ho.frame
    exact .same (List.mem_append_left _ (hrun ▸ hr))
  | joins ho =>
    obtain ⟨-, hrun, -, -⟩ := ho.frame
    exact .same (List.mem_append_left _ (hrun ▸ hr))
  | resumed hs ho => exact fate_of_resumed hn hs ho hr
  | @collapsed r₀ slot request hr₀ ha =>
    by_cases hid : r.id = r₀.id
    · obtain rfl := hn.eq_of_id hr (mem_of_find? hr₀) hid
      exact .collapses rfl ha
    · exact .same
        (mem_drop (c.running_stopTicker _ ▸ hr) (beq_eq_false_iff_ne.mpr hid))
  | detached id =>
    have hm : (if r.id == id then { r with origin := .caller false } else r) ∈
        (c.detach id).running :=
      List.mem_map.mpr ⟨r, hr, rfl⟩
    by_cases hid : r.id = id
    · exact .goesOn (by simpa [hid] using hm)
    · exact .same (by simpa [hid] using hm)
  | @abandoned r₀ hr₀ hd =>
    by_cases hid : r.id = r₀.id
    · obtain rfl := hn.eq_of_id hr (mem_of_find? hr₀) hid
      exact .aborted fun _ _ => hd
    · exact .same (mem_drop hr (beq_eq_false_iff_ne.mpr hid))
  | started => exact .same (c.running_startBackground ▸ hr)
  | shutDown =>
    by_cases ho : ∃ awaits, r.origin = .caller awaits
    · exact .same (mem_shutdown hr ho)
    · exact .aborted fun awaits h => absurd ⟨awaits, h⟩ ho
  | visibility =>
    by_cases ho : r.origin = .visibility
    · exact .aborted (by simp [ho])
    · exact .same (mem_changeVisibility hr ho)

/-! ### Calls, callers and time -/

theorem not_ask_mem_report {r : Running} {result : Result} {id slot : Nat} {request : Request} :
    Output.ask id slot request ∉ report r result := by
  unfold report
  split <;> simp

theorem awaited_of_launch {c : Controller} {origin : Origin} {work : Work} {id slot : Nat}
    {request : Request} (hm : Output.ask id slot request ∈ (c.launch origin work work.awaits).2) :
    ∃ r ∈ (c.launch origin work work.awaits).1.running, r.id = id ∧
      (slot, request) ∈ r.work.awaits := by
  obtain ⟨a, ha, he⟩ := List.mem_map.mp hm
  cases he
  exact ⟨⟨c.nextId, origin, work⟩, List.mem_append_right _ (List.mem_singleton.mpr rfl), rfl, ha⟩

/-- Every call that an event begins is waited for afterwards. -/
theorem awaited_of_act {c : Controller} {e : Event} {out : Controller × List Output} (h : Act c e out)
    {id slot : Nat} {request : Request} (hm : Output.ask id slot request ∈ out.2) :
    ∃ r ∈ out.1.running, r.id = id ∧ (slot, request) ∈ r.work.awaits := by
  cases h with
  | begins => exact awaited_of_launch hm
  | joins => exact awaited_of_launch hm
  | resumed hs ho =>
    cases ho with
    | nothing => simp at hm
    | advance ha =>
      obtain ⟨a, hma, he⟩ := List.mem_map.mp hm
      cases he
      have hr := mem_of_find? hs.find?
      exact ⟨_, mem_replaceWork (c := { c with shared := _ }) hr _, rfl, ha.asks_subset hma⟩
    | ending =>
      obtain ⟨result, -, hm⟩ := List.mem_flatMap.mp hm
      exact absurd hm not_ask_mem_report
    | conclusion => exact absurd hm not_ask_mem_report
  | collapsed => exact absurd hm not_ask_mem_report
  | refused | exhausted | skippedCall => simp [answerAtOnce] at hm
  | nothing | skippedTick | droppedRefresh | detached | abandoned | started | shutDown | visibility
    | expired | passed => simp at hm

/-- A workflow belongs to a caller, also after he has gone. -/
def Attended (c : Controller) : Prop :=
  ∀ r ∈ c.running, r.work.isDetached = true → ∃ awaits, r.origin = .caller awaits

theorem attended_of_act {c : Controller} (hn : c.Numbered) (h : c.Attended) {e : Event}
    {out : Controller × List Output} (ha : Act c e out) : out.1.Attended := by
  intro r hr hd
  generalize ho : out.2 = outputs
  have hs := ho ▸ source_of_act hn ha hr
  cases hs with
  | @kept r₀ origin outputs hr₀ horigin =>
    rcases horigin with rfl | rfl
    · exact h r₀ hr₀ hd
    · exact ⟨false, rfl⟩
  | opened onset hi hw =>
    cases hw with
    | switch | reload | recover =>
      cases onset
      exact ⟨true, rfl⟩
    | tick | refresh => cases hd
  | joined onset hw => cases hw <;> cases hd
  | @advanced r₀ signal s' work asks hs ha =>
    have hd₀ : r₀.work.isDetached = true := by rw [← ha.isDetached, hd]
    exact h r₀ (mem_of_find? hs.find?) hd₀

theorem fixed_conclude (c : Controller) (f : Tick.Finding) :
    c.shared.Fixed (c.conclude f).shared := by
  refine conclude_induction (P := fun c' => c.shared.Fixed c'.shared) c.shared.fixed_refl ?_ ?_ ?_
  · intro c₁ id h₁
    exact h₁.trans (Shared.fixed_onState _ _)
  · intro c₁ h₁
    exact h₁.trans (Shared.fixed_onState _ _)
  · intro c₁ wall h₁
    exact h₁.trans (Shared.fixed_onState _ _)

theorem Opening.fixed {s s' : Shared} {e : Event} {work : Work} (h : Opening s e work s') :
    s.Fixed s' := by
  cases h <;> exact ⟨rfl, rfl, rfl⟩

theorem fixed_changeVisibility (c : Controller) (visible : Bool) :
    c.shared.Fixed (c.changeVisibility visible).shared := by
  obtain ⟨c₁, slot, rfl | rfl, hc⟩ := c.changeVisibility_eq visible <;> rw [hc] <;>
    exact ⟨rfl, rfl, rfl⟩

theorem shared_startBackground (c : Controller) : c.startBackground.shared = c.shared := by
  unfold startBackground
  split <;> rfl

theorem shared_stopTicker (c : Controller) (origin : Origin) :
    (c.stopTicker origin).shared = c.shared := by
  unfold stopTicker
  split <;> rfl

theorem fixed_of_resumed {c : Controller} {r : Running} {signal : Signal}
    {out : Controller × List Output} (h : Resumed c r signal out) : c.shared.Fixed out.1.shared := by
  cases h with
  | nothing => exact c.shared.fixed_refl
  | advance ha => exact ha.fixed
  | @ending s' result he =>
    have hf : s'.Fixed ({ c with shared := s' }.drop (·.id == r.id)).shared := s'.fixed_onState _
    exact he.fixed.trans hf
  | conclusion => exact (c.fixed_conclude _).trans (Shared.fixed_onState _ _)

theorem clock_of_act {c : Controller} {e : Event} {out : Controller × List Output} (h : Act c e out) :
    out.1.shared.timings = c.shared.timings ∧
      (out.1.now = c.now ∨ ∃ ms, e = .pass ms ∧ out.1.now = c.now + c.span ms) := by
  have hfixed : ∀ {c' : Controller}, c.shared.Fixed c'.shared →
      c'.shared.timings = c.shared.timings ∧
        (c'.now = c.now ∨ ∃ ms, e = .pass ms ∧ c'.now = c.now + c.span ms) := by
    intro c' hf
    exact ⟨hf.1, .inl hf.2.1⟩
  cases h with
  | passed ms => exact ⟨rfl, .inr ⟨ms, rfl, rfl⟩⟩
  | skippedTick ho =>
    obtain ⟨hs, -, -, -⟩ := ho.frame
    exact hfixed (hs ▸ Shared.fixed_onState _ _)
  | joins ho hw =>
    obtain ⟨hs, -, -, -⟩ := ho.frame
    exact hfixed (hs ▸ Shared.fixed_refl _)
  | begins ho hi hw => exact hfixed hw.fixed
  | resumed hs ho => exact hfixed (fixed_of_resumed ho)
  | @collapsed r =>
    have hf := (c.stopTicker r.origin).shared.fixed_onState
    exact hfixed (c.shared_stopTicker r.origin ▸ hf _)
  | started => exact hfixed (c.shared_startBackground ▸ Shared.fixed_refl _)
  | visibility => exact hfixed (c.fixed_changeVisibility _)
  | _ => exact hfixed ⟨rfl, rfl, rfl⟩

/-- The timings stay as they are, and time does not go back. -/
theorem time_of_act {c : Controller} {e : Event} {out : Controller × List Output} (h : Act c e out) :
    out.1.shared.timings = c.shared.timings ∧ c.now ≤ out.1.now := by
  obtain ⟨htimings, hnow | ⟨ms, -, hnow⟩⟩ := clock_of_act h
  · exact ⟨htimings, Nat.le_of_eq hnow.symm⟩
  · exact ⟨htimings, hnow ▸ Nat.le_add_right _ _⟩

theorem nextId_le_of_act {c : Controller} {e : Event} {out : Controller × List Output}
    (h : Act c e out) : c.nextId ≤ out.1.nextId := by
  cases h with
  | nothing | droppedRefresh | detached | abandoned | shutDown | expired | passed => exact Nat.le_refl _
  | refused | exhausted | skippedCall => exact Nat.le_succ _
  | skippedTick ho =>
    obtain ⟨-, -, hid, -⟩ := ho.frame
    exact Nat.le_of_eq hid.symm
  | begins ho | joins ho =>
    obtain ⟨-, -, hid, -⟩ := ho.frame
    exact Nat.le_succ_of_le (Nat.le_of_eq hid.symm)
  | resumed hs ho =>
    cases ho with
    | nothing | advance | ending => exact Nat.le_refl _
    | conclusion =>
      exact conclude_induction (P := fun c' => c.nextId ≤ c'.nextId) (Nat.le_refl _)
        (fun _ _ h => h) (fun _ h => h) (fun _ _ h => h)
  | @collapsed r =>
    have hstop : (c.stopTicker r.origin).nextId = c.nextId := by
      unfold stopTicker
      split <;> rfl
    exact Nat.le_of_eq hstop.symm
  | started =>
    have hstart : c.startBackground.nextId = c.nextId := by
      unfold startBackground
      split <;> rfl
    exact Nat.le_of_eq hstart.symm
  | visibility visible =>
    obtain ⟨c₁, slot, rfl | rfl, hc⟩ := c.changeVisibility_eq visible <;> rw [hc] <;>
      exact Nat.le_refl _

/-! ### What holds in every run -/

/-- A controller in the course of a run with these timings. -/
structure Sound (timings : Timings) (c : Controller) : Prop extends Exclusive c where
  attended : c.Attended
  timings_eq : c.shared.timings = timings

theorem sound_initial (timings : Timings) (currentConfig : Option String) :
    (initial timings currentConfig).Sound timings where
  toExclusive := exclusive_initial timings currentConfig
  attended := by simp [Attended, initial]
  timings_eq := rfl

namespace Sound

variable {timings : Timings} {c : Controller}

theorem later (h : c.Sound timings) : c.later.Sound timings where
  toExclusive := h.toExclusive.keep rfl (Nat.le_refl _) rfl
  attended := h.attended
  timings_eq := h.timings_eq

theorem step (h : c.Sound timings) (e : Event) : (c.step e).1.Sound timings where
  toExclusive := h.toExclusive.step e
  attended := attended_of_act h.later.toNumbered h.later.attended (act_step c e)
  timings_eq := (time_of_act (act_step c e)).1.trans h.timings_eq

theorem run (h : c.Sound timings) (es : List Event) : (c.run es).1.Sound timings :=
  run_induction h (fun _ e h => h.step e) es

end Sound

end Controller
end CoreWarden
