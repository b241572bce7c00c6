import CoreWarden.Proofs.Controller.Entries
import CoreWarden.Proofs.Controller.History

/-!
What else happens while a workflow goes on. The workflow holds the activity, so all that others can do
to what is shared is to check for conflicts, to fetch a value for the cache, to be turned away, to let
the reset timer act and to shut down.
-/
namespace CoreWarden.Controller

variable {timings : Timings} {c : Controller} {e : Event} {r : Running}

/-- What an event leaves of the state and of the cache, unless it has to do with the workflow that
goes on. -/
inductive Touched (c : Controller) (e : Event) : SyncState → Cache → Prop
  | nothing : Touched c e c.state c.cache
  | checked (report : ConflictReport) : Touched c e (c.state.applyConflict report) c.cache
  | fetched {r key signal} (hs : Hears c r e signal) (hw : r.work = .refetch key) (value : Json.Value) :
      Touched c e c.state (c.cache.set key value c.shared.wall)
  | exhausted (error : String) : Touched c e (c.state.setError (some error)) c.cache
  | skipped : Touched c e c.state.recordSkippedTick c.cache
  | expired : Touched c e (c.state.expire c.now) c.cache
  | shutDown : Touched c e c.state.shutdown c.cache

theorem Exclusive.state_drop (h : c.Exclusive) (hr : r ∈ c.running)
    (ha : r.work.activity?.isSome = true) {p : Running → Bool} (hp : p r = false) :
    (c.drop p).state = c.state := by
  have hnone : (c.running.filter p).filterMap (·.work.activity?) = [] := by
    rw [List.filterMap_eq_nil_iff]
    intro r' hr'
    obtain ⟨hmem, hp'⟩ := List.mem_filter.mp hr'
    cases ha' : r'.work.activity? with
    | none => rfl
    | some a =>
      rw [h.eq_of_activity? hmem hr (by simp [ha']) ha, hp] at hp'
      cases hp'
  change ((c.running.filter p).filterMap (·.work.activity?)).foldl .leave c.state = c.state
  rw [hnone]
  rfl

theorem Exclusive.state_dropId (h : c.Exclusive) (hr : r ∈ c.running)
    (ha : r.work.activity?.isSome = true) {n : Nat} (hne : n ≠ r.id) :
    (c.drop (·.id == n)).state = c.state :=
  h.state_drop hr ha (beq_eq_false_iff_ne.mpr (Ne.symm hne))

theorem Exclusive.state_abort (h : c.Exclusive) (hr : r ∈ c.running)
    (ha : r.work.activity?.isSome = true) {origin : Origin} (ho : r.origin ≠ origin) :
    (c.abort origin).state = c.state :=
  h.state_drop hr ha (beq_eq_false_iff_ne.mpr ho)

theorem Exclusive.state_shutdown (h : c.Exclusive) (hr : r ∈ c.running)
    (ha : r.work.activity?.isSome = true) {awaits : Bool} (ho : r.origin = .caller awaits) :
    c.shutdown.state = c.state.shutdown := by
  have hne : ∀ origin, origin ≠ .caller awaits → r.origin ≠ origin :=
    fun origin hne heq => hne (heq.symm.trans ho)
  have h₁ := h.drop (·.origin == .reconciler)
  have h₂ := h₁.drop (·.origin == .poller)
  have h₃ := h₂.drop (·.origin == .debounce)
  have hr₁ := mem_abort hr (hne .reconciler (by simp))
  have hr₂ := mem_abort hr₁ (hne .poller (by simp))
  have hr₃ := mem_abort hr₂ (hne .debounce (by simp))
  have hstate : ((((c.abort .reconciler).abort .poller).abort .debounce).abort .visibility).state =
      c.state := by
    calc
      _ = (((c.abort .reconciler).abort .poller).abort .debounce).state :=
        h₃.state_abort hr₃ ha (hne .visibility (by simp))
      _ = ((c.abort .reconciler).abort .poller).state :=
        h₂.state_abort hr₂ ha (hne .debounce (by simp))
      _ = (c.abort .reconciler).state := h₁.state_abort hr₁ ha (hne .poller (by simp))
      _ = c.state := h.state_abort hr ha (hne .reconciler (by simp))
  exact congrArg SyncState.shutdown hstate

theorem touched_of_resumed (h : c.Exclusive) (hr : r ∈ c.running)
    (ha : r.work.activity?.isSome = true) {r' : Running} {signal : Signal}
    {out : Controller × List Output} (hs : Hears c r' e signal) (hne : r'.id ≠ r.id)
    (ho : Resumed c r' signal out) : Touched c e out.1.state out.1.cache := by
  have hr' := mem_of_find? hs.find?
  have hnone : r'.work.activity? = none := by
    cases ha' : r'.work.activity? with
    | none => rfl
    | some a => exact absurd (congrArg Running.id (h.eq_of_activity? hr' hr (by simp [ha']) ha)) hne
  have hdrop : ∀ {s' : Shared}, s'.state.snapshot.mode = c.state.snapshot.mode →
      Touched c e s'.state s'.cache →
        Touched c e ({ c with shared := s' }.drop (·.id == r'.id)).state s'.cache := by
    intro s' hmode htouched
    have hs' : { c with shared := s' }.Exclusive := h.keep rfl (Nat.le_refl _) hmode
    rw [hs'.state_dropId hr ha hne]
    exact htouched
  generalize hw : r'.work = work at hnone
  cases ho with
  | nothing => exact .nothing
  | advance hadvance =>
    rw [hw] at hadvance
    cases hadvance <;> cases hnone
  | conclusion htick =>
    rw [hw] at htick
    rw [htick] at hnone
    cases hnone
  | ending hending =>
    rw [hw] at hending
    cases hending with
    | check result => exact hdrop rfl (.checked _)
    | refetched => exact hdrop rfl (.fetched hs hw _)
    | notRefetched => exact hdrop rfl .nothing
    | switch | reload | recover | refresh => cases hnone

/-- All that an event can do to what is shared while a workflow goes on to which it means nothing. -/
theorem touched_of_act (h : c.Sound timings) (hr : r ∈ c.running) (hd : r.work.isDetached = true)
    {out : Controller × List Output} (hact : Act c e out) (hdeaf : ∀ signal, ¬ Hears c r e signal)
    (hwell : ∀ slot request, e = .answer r.id slot .collapsed → (slot, request) ∉ r.work.awaits) :
    Touched c e out.1.state out.1.cache := by
  have ha : r.work.activity?.isSome = true := by
    cases hw : r.work <;> simp_all [Work.isDetached, Work.activity?]
  obtain ⟨awaits, horigin⟩ := h.attended r hr hd
  have hstate : ∀ {c' : Controller}, c'.shared = c.shared → Touched c e c'.state c'.cache := by
    intro c' hs
    rw [state, cache, hs]
    exact .nothing
  cases hact with
  | nothing | refused | droppedRefresh | detached | passed => exact .nothing
  | exhausted => exact .exhausted _
  | skippedCall => exact .skipped
  | skippedTick ho =>
    obtain ⟨hs, -, -, -⟩ := ho.frame
    rw [state, cache]
    simp only [onState, onShared, hs]
    exact .skipped
  | begins ho hi =>
    obtain ⟨a, ha'⟩ := Option.isSome_iff_exists.mp ha
    exact absurd (h.activity?_eq_none hi hr) (by simp [ha'])
  | joins ho =>
    obtain ⟨hs, -, -, -⟩ := ho.frame
    exact hstate hs
  | @resumed _ r' signal _ hs ho =>
    have hne : r'.id ≠ r.id := by
      intro hid
      obtain rfl := h.eq_of_id (mem_of_find? hs.find?) hr hid
      exact hdeaf signal hs
    exact touched_of_resumed h.toExclusive hr ha hs hne ho
  | @collapsed r' slot request hr' hawait =>
    have hne : r'.id ≠ r.id := by
      intro hid
      obtain rfl := h.eq_of_id (mem_of_find? hr') hr hid
      exact hwell slot request rfl hawait
    have hstop : (c.stopTicker r'.origin).Exclusive := h.stopTicker _
    have hdrop : ((c.stopTicker r'.origin).drop (·.id == r'.id)).state = c.state :=
      (hstop.state_dropId (c.running_stopTicker _ ▸ hr) ha hne).trans
        (congrArg Shared.state (c.shared_stopTicker r'.origin))
    have hcache : (c.stopTicker r'.origin).cache = c.cache :=
      congrArg Shared.cache (c.shared_stopTicker r'.origin)
    change Touched c _ ((c.stopTicker r'.origin).drop (·.id == r'.id)).state
      (c.stopTicker r'.origin).cache
    rw [hdrop, hcache]
    exact .nothing
  | @abandoned r' hr' hd' =>
    have hne : r'.id ≠ r.id := by
      intro hid
      obtain rfl := h.eq_of_id (mem_of_find? hr') hr hid
      rw [hd] at hd'
      cases hd'
    dsimp only
    rw [h.state_dropId hr ha hne]
    exact .nothing
  | started => exact hstate c.shared_startBackground
  | shutDown =>
    rw [h.state_shutdown hr ha horigin]
    exact .shutDown
  | visibility visible =>
    have hne : r.origin ≠ .visibility := by simp [horigin]
    obtain ⟨c₁, slot, hc₁, hc⟩ := c.changeVisibility_eq visible
    have hafter : ∀ c₁ : Controller, c₁.Exclusive → r ∈ c₁.running →
        ({ c₁.abort .visibility with visibility := slot } : Controller).state = c₁.state :=
      fun c₁ h₁ hr₁ => h₁.state_abort hr₁ ha hne
    rw [hc]
    rcases hc₁ with rfl | rfl
    · rw [hafter c₁ h.toExclusive hr]
      exact .nothing
    · rw [hafter _ (h.onState rfl) hr]
      exact .skipped
  | expired => exact .expired

theorem hears_of_asks {out : Controller × List Output} (h : Act c e out) {n slot : Nat}
    {request : Request} (hm : .ask n slot request ∈ out.2) :
    n = c.nextId ∨ ∃ r signal, r.id = n ∧ Hears c r e signal := by
  have hreport : ∀ {r : Running} {result : Result}, Output.ask n slot request ∉ report r result :=
    not_ask_mem_report
  cases h with
  | begins ho | joins ho =>
    obtain ⟨-, -, hid, -⟩ := ho.frame
    obtain ⟨a, -, heq⟩ := List.mem_map.mp hm
    cases heq
    exact .inl hid
  | @resumed _ r signal _ hs ho =>
    refine .inr ⟨r, signal, ?_, hs⟩
    cases ho with
    | nothing => cases hm
    | advance =>
      obtain ⟨a, -, heq⟩ := List.mem_map.mp hm
      cases heq
      rfl
    | ending =>
      obtain ⟨result, -, hm⟩ := List.mem_flatMap.mp hm
      exact absurd hm hreport
    | conclusion => exact absurd hm hreport
  | collapsed => exact absurd hm hreport
  | refused | exhausted | skippedCall => simp [answerAtOnce] at hm
  | nothing | skippedTick | droppedRefresh | detached | abandoned | started | shutDown | visibility
    | expired | passed => cases hm

theorem advance_of_mem_resume {r' : Running} {signal : Signal} (hd : r.work.isDetached = true)
    (hr' : r' ∈ (c.resume r signal).1.running) (hid : r'.id = r.id) :
    ∃ s' asks, r.work.Advance c.shared signal s' r'.work asks ∧ c.resume r signal =
      ({ c with shared := s' }.replaceWork r.id r'.work, asks.map fun a => .ask r.id a.1 a.2) := by
  have hproceed : ∀ {φ ρ : Type} (point : φ → Work) (result : ρ → Result)
      (step : Shared × Progress φ ρ), c.resume r signal = c.proceed r point result step →
      (∀ s' phase asks, step = (s', .waiting phase asks) →
        r.work.Advance c.shared signal s' (point phase) asks) →
      ∃ s' asks, r.work.Advance c.shared signal s' r'.work asks ∧ c.resume r signal =
        ({ c with shared := s' }.replaceWork r.id r'.work, asks.map fun a => .ask r.id a.1 a.2) := by
    intro φ ρ point result step hresume hadvance
    obtain ⟨s', phase, asks, rfl, hwork⟩ := waiting_of_mem_proceed (hresume ▸ hr') hid
    refine ⟨s', asks, ?_, ?_⟩
    · rw [hwork]
      exact hadvance s' phase asks rfl
    · rw [hresume, hwork]
      rfl
  cases hw : r.work with
  | switch id phase =>
    refine hw ▸ hproceed (.switch id) .switch (phase.resume c.shared id signal) (by simp [resume, hw]) ?_
    intro s' phase' asks h
    exact hw ▸ .switch h
  | reload phase =>
    refine hw ▸ hproceed .reload .reload (reloadEnded (phase.resume c.shared signal))
      (by simp [resume, hw]) ?_
    intro s' phase' asks h
    exact hw ▸ .reload (resume_of_reloadEnded h)
  | recover attempt phase =>
    refine hw ▸ hproceed (.recover attempt) .recover (phase.resume c.shared attempt signal)
      (by simp [resume, hw]) ?_
    intro s' phase' asks h
    exact hw ▸ .recover h
  | check | reconcile | refetch | refresh => simp [hw, Work.isDetached] at hd

end CoreWarden.Controller

namespace CoreWarden.Turn

open Controller (Hears Touched)

variable {timings : Timings} {t : Turn} {r r' : Running}

def BeginsWork (t : Turn) (n : Nat) : Prop := t.before.nextId = n ∧ ∃ r ∈ t.after.running, r.id = n

theorem work_of_deaf (hs : t.before.Sound timings) (hr : r ∈ t.before.running)
    (hr' : r' ∈ t.after.running) (hid : r'.id = r.id)
    (hdeaf : ∀ signal, ¬ Hears t.before.later r t.event signal) : r'.work = r.work := by
  have hnew : r'.id ≠ t.before.nextId := fun hnew => Nat.ne_of_lt (hs.ids_lt r hr) (hid.symm.trans hnew)
  have hsource := Controller.source_of_turn hs hr'
  generalize t.outputs = outputs at hsource
  cases hsource with
  | @kept r₀ _ _ hr₀ =>
    obtain rfl := hs.eq_of_id hr₀ hr hid
    rfl
  | opened | joined => exact absurd rfl hnew
  | @advanced r₀ signal _ _ _ hears =>
    obtain rfl := hs.eq_of_id (Controller.mem_of_find? hears.find?) hr hid
    exact absurd hears (hdeaf signal)

/-- What a turn is to a workflow that goes on: it has led the workflow on, or all that has happened has
happened beside it. -/
inductive GoesOn (t : Turn) (r r' : Running) : Prop
  | advances {signal asks} (hears : Hears t.before.later r t.event signal)
      (ha : r.work.Advance t.before.later.shared signal t.after.shared r'.work asks)
      (ho : t.outputs = asks.map fun a => .ask r.id a.1 a.2)
  | stays (hw : r'.work = r.work) (ht : Touched t.before.later t.event t.after.state t.after.cache)
      (hdeaf : ∀ signal, ¬ Hears t.before.later r t.event signal)

theorem goes_on (hs : t.before.Sound timings) (hr : r ∈ t.before.running)
    (hd : r.work.isDetached = true) (hr' : r' ∈ t.after.running) (hid : r'.id = r.id) :
    t.GoesOn r r' := by
  by_cases hheard : ∃ signal, Hears t.before.later r t.event signal
  · obtain ⟨signal, hears⟩ := hheard
    have hstep := Controller.step_of_hears hears
    have hmem := hr'
    rw [after, hstep] at hmem
    obtain ⟨s', asks, hadvance, hresume⟩ := Controller.advance_of_mem_resume hd hmem hid
    rw [hresume] at hstep
    have hshared : t.after.shared = s' := by
      rw [after, hstep]
      rfl
    refine .advances hears (hshared ▸ hadvance) ?_
    rw [outputs, hstep]
  · have hdeaf : ∀ signal, ¬ Hears t.before.later r t.event signal := not_exists.mp hheard
    have hwell : ∀ slot request, t.event = .answer r.id slot .collapsed →
        (slot, request) ∉ r.work.awaits := by
      intro slot request he ha
      rw [after, he, Controller.step_of_collapsed (hs.find?_eq_some hr) ha] at hr'
      have hgone := (List.mem_filter.mp hr').2
      simp [hid] at hgone
    exact .stays (work_of_deaf hs hr hr' hid hdeaf) (Controller.touched_of_act hs.later hr hd
      (Controller.act_step t.before t.event) hdeaf hwell) hdeaf

theorem shared_of_opening {work : Work} {s' : Shared} (hi : t.before.later.state.activity = .idle)
    (h : Controller.Opening t.before.later.shared t.event work s') (hd : work.isDetached = true) :
    t.after.shared = s' := by
  generalize he : t.event = e at h
  cases h with
  | @switch id hf hc =>
    have hstep : t.after = (t.before.later.startSwitch id).1 := by
      rw [after, he]
      rfl
    have hne : t.before.later.snapshot.currentConfig ≠ some id := hc
    rw [hstep]
    simp only [Controller.startSwitch, hf, if_neg hne, SyncState.enter_of_idle _ _ hi]
    rfl
  | reload =>
    have hstep : t.after = t.before.later.startReload.1 := by
      rw [after, he]
      rfl
    rw [hstep]
    simp only [Controller.startReload, SyncState.enter_of_idle _ _ hi]
    rfl
  | recover ha =>
    have hstep : t.after = t.before.later.startRecovery.1 := by
      rw [after, he]
      rfl
    have hne : ¬ t.before.later.state.activity = .recovering := by simp [hi]
    have hmax : ¬ t.before.later.shared.timings.maxRecoveryAttempts ≤
        t.before.later.snapshot.recoveryAttempts := UInt32.not_le.mpr ha
    rw [hstep]
    simp only [Controller.startRecovery, if_neg hne, if_neg hmax, SyncState.enter_of_idle _ _ hi]
    rfl
  | tick | refresh => cases hd

/-- A workflow that is under way after a turn went on in it, or has begun in it. -/
theorem workflow_of_turn (hs : t.before.Sound timings) (hr : r ∈ t.after.running)
    (hd : r.work.isDetached = true) :
    (∃ r₀ ∈ t.before.running, r.id = r₀.id ∧ r₀.work.isDetached = true ∧ t.GoesOn r₀ r) ∨
      t.BeginsWork r.id ∧
        Controller.Opening t.before.later.shared t.event r.work t.after.shared := by
  have hsource := Controller.source_of_turn hs hr
  generalize t.outputs = outputs at hsource
  cases hsource with
  | @kept r₀ _ _ hr₀ => exact .inl ⟨r₀, hr₀, rfl, hd, goes_on hs hr₀ hd hr rfl⟩
  | @advanced r₀ _ _ _ _ hears ha =>
    have hr₀ : r₀ ∈ t.before.running := Controller.mem_of_find? hears.find?
    have hd₀ : r₀.work.isDetached = true := ha.isDetached ▸ hd
    exact .inl ⟨r₀, hr₀, rfl, hd₀, goes_on hs hr₀ hd₀ hr rfl⟩
  | joined onset haside =>
    generalize t.event = e at haside
    cases haside <;> cases hd
  | opened onset hi hopening =>
    exact .inr ⟨⟨rfl, _, hr, rfl⟩, shared_of_opening hi hopening hd ▸ hopening⟩

end CoreWarden.Turn
