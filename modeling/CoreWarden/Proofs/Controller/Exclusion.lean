import CoreWarden.Proofs.Controller.Act
import CoreWarden.Proofs.Controller.Effect
import Mathlib.Data.List.Nodup

/-!
Mutual exclusion. The activity shown is always the one that is held: no work holds it while the
controller is idle, and one piece of work holds it otherwise. Only that piece of work ever tells the
core, the process manager or the profile store to change something, one thing at a time.
-/
namespace CoreWarden

/-- The calls that change something: a switch, a restart, a note to the profile store. -/
def Request.isCommand : Request → Bool
  | switch _ | restart | store _ => true
  | _ => false

theorem CacheKey.isCommand_request (key : CacheKey) : key.request.isCommand = false := by
  cases key <;> rfl

/-- The activities held while an activity is shown. -/
def Activity.held : Activity → List Activity
  | idle => []
  | a => [a]

theorem Activity.held_of_ne_idle {a : Activity} (h : a ≠ idle) : a.held = [a] := by
  cases a <;> simp_all [held]

theorem Refresh.isCommand_asks {refresh : Refresh} {a : Nat × Request} (h : a ∈ refresh.asks) :
    a.2.isCommand = false := by
  simp only [asks, List.mem_map] at h
  obtain ⟨f, -, rfl⟩ := h
  exact CacheKey.isCommand_request _

namespace Work

def commands (w : Work) : List Request := (w.awaits.map Prod.snd).filter Request.isCommand

theorem commands_of_refresh (refresh : Refresh) :
    (refresh.asks.map Prod.snd).filter Request.isCommand = [] := by
  rw [List.filter_eq_nil_iff]
  intro q hq
  obtain ⟨a, ha, rfl⟩ := List.mem_map.mp hq
  simp [Refresh.isCommand_asks ha]

theorem commands_of_probe (probe : Probe) :
    (probe.awaits.map Prod.snd).filter Request.isCommand = [] := by
  cases probe <;> rfl

theorem length_commands_reload_le (phase : Reload) :
    ((phase.awaits.map Prod.snd).filter Request.isCommand).length ≤ 1 := by
  cases phase with
  | restarting => decide
  | pausing wake => simp [Reload.awaits]
  | probing probe => simp [Reload.awaits, commands_of_probe]
  | refreshing refresh => simp [Reload.awaits, commands_of_refresh]

/-- Work waits for the answer of one command at most, and of none unless it holds an activity. -/
theorem length_commands_le (w : Work) : w.commands.length ≤ w.activity?.toList.length := by
  cases w with
  | switch id phase =>
    cases phase with
    | probing probe => simp [commands, awaits, Switch.awaits, commands_of_probe]
    | refreshing remaining refresh => simp [commands, awaits, Switch.awaits, commands_of_refresh]
    | _ => simp [commands, awaits, Switch.awaits, activity?, Request.isCommand, List.filter]
  | reload phase => exact length_commands_reload_le phase
  | recover attempt phase =>
    cases phase with
    | reloading reload => exact length_commands_reload_le reload
    | refreshing refresh => simp [commands, awaits, Recovery.awaits, commands_of_refresh]
    | _ => simp [commands, awaits, Recovery.awaits, activity?, Request.isCommand, List.filter]
  | check => decide
  | reconcile tick =>
    obtain ⟨profiles, proxies⟩ := tick
    cases profiles <;> cases proxies <;>
      simp [commands, awaits, Tick.awaits, activity?, Request.isCommand]
  | refetch key => simp [commands, awaits, activity?, CacheKey.isCommand_request]
  | refresh refresh => simp [commands, awaits, commands_of_refresh]

theorem commands_eq_nil {w : Work} (h : w.activity? = none) : w.commands = [] := by
  have hle := w.length_commands_le
  rw [h] at hle
  exact List.length_eq_zero_iff.mp (Nat.le_zero.mp hle)

theorem activity?_ne_idle {w : Work} {a : Activity} (h : w.activity? = some a) : a ≠ .idle := by
  rintro rfl
  cases w <;> simp [activity?] at h

/-! ### Signals keep the activity -/

theorem Advance.activity? {s s' : Shared} {w w' : Work} {signal : Signal} {asks : List (Nat × Request)}
    (h : w.Advance s signal s' w' asks) : w'.activity? = w.activity? := by
  cases h <;> rfl

end Work

theorem Switch.Effect.mode {s : Shared} {id : String} {state : SyncState} {step : Switch.Step}
    (h : Switch.Effect s id state step) : state.snapshot.mode = s.state.snapshot.mode := by
  cases h <;> rfl

theorem Reload.Effect.mode {s : Shared} {state : SyncState} {step : Reload.Step}
    (h : Reload.Effect s state step) : state.snapshot.mode = s.state.snapshot.mode := by
  cases h <;> rfl

theorem Recovery.Effect.mode {s : Shared} {attempt : UInt32} {state : SyncState}
    {step : Recovery.Step} (h : Recovery.Effect s attempt state step) : state.snapshot.mode = s.state.snapshot.mode := by
  cases h <;> simp [Snapshot.mode]

namespace Work

theorem Advance.mode {s s' : Shared} {w w' : Work} {signal : Signal} {asks : List (Nat × Request)}
    (h : w.Advance s signal s' w' asks) : s'.state.snapshot.mode = s.state.snapshot.mode := by
  cases h with
  | switch h => exact (Switch.effect h).1.mode
  | reload h => exact (Reload.effect h).1.mode
  | recover h => exact (Recovery.effect h).1.mode
  | reconcile h => rfl
  | refresh h hd =>
    obtain ⟨cache, rfl⟩ := Shared.resumeRefresh_eq h
    rfl

theorem Ending.mode {s s' : Shared} {w : Work} {signal : Signal} {result : Option Result}
    (h : w.Ending s signal s' result) : s'.state.snapshot.mode = s.state.snapshot.mode := by
  cases h with
  | switch h => exact (Switch.effect h).1.mode
  | reload h =>
    rcases (Reload.effect_reloadEnded h).1 with ⟨-, hs⟩ | ⟨e, -, hs⟩ <;>
      simp [hs, Snapshot.mode]
  | recover h => exact (Recovery.effect h).1.mode
  | check result => rfl
  | refetched h => rfl
  | notRefetched h => rfl
  | refresh h hd =>
    obtain ⟨cache, rfl⟩ := Shared.resumeRefresh_eq h
    rfl

end Work

namespace Controller

/-- No two pieces of work have the same number, and new ones get numbers that were never used. -/
structure Numbered (c : Controller) : Prop where
  ids_nodup : (c.running.map Running.id).Nodup
  ids_lt : ∀ r ∈ c.running, r.id < c.nextId

/-- The activity shown is the one held, and the flags go with it. -/
structure Exclusive (c : Controller) : Prop extends Numbered c where
  guards_eq : c.guards = c.snapshot.activity.held
  coherent : c.snapshot.Coherent

theorem exclusive_initial (timings : Timings) (currentConfig : Option String) :
    (initial timings currentConfig).Exclusive where
  ids_nodup := by simp [initial]
  ids_lt := by simp [initial]
  guards_eq := rfl
  coherent := Snapshot.coherent_initial currentConfig

namespace Numbered

variable {c c' : Controller}

theorem eq_of_id (h : c.Numbered) {r r' : Running} (hr : r ∈ c.running) (hr' : r' ∈ c.running)
    (hid : r.id = r'.id) : r = r' :=
  List.inj_on_of_nodup_map h.ids_nodup hr hr' hid

theorem find?_eq_some (h : c.Numbered) {r : Running} (hr : r ∈ c.running) :
    c.find? r.id = some r := by
  cases hf : c.find? r.id with
  | none => exact absurd (beq_self_eq_true r.id) (List.find?_eq_none.mp hf r hr)
  | some r' => rw [h.eq_of_id (mem_of_find? hf) hr (id_of_find? hf)]

theorem congr (h : c.Numbered) (hr : c'.running.map Running.id = c.running.map Running.id)
    (hn : c.nextId ≤ c'.nextId) : c'.Numbered where
  ids_nodup := hr ▸ h.ids_nodup
  ids_lt r hm := by
    have hid : r.id ∈ c.running.map Running.id := hr ▸ List.mem_map_of_mem hm
    obtain ⟨r₀, hm₀, hid₀⟩ := List.mem_map.mp hid
    have hlt := h.ids_lt r₀ hm₀
    omega

theorem launch (h : c.Numbered) (hr : c'.running = c.running) (hn : c'.nextId = c.nextId)
    (origin : Origin) (work : Work) (asks : List (Nat × Request)) :
    (c'.launch origin work asks).1.Numbered where
  ids_nodup := by
    simp only [Controller.launch, hr, hn, List.map_append, List.map_cons, List.map_nil]
    refine List.nodup_append.mpr ⟨h.ids_nodup, by simp, ?_⟩
    intro n hmem m hm hne
    obtain ⟨r, hr, rfl⟩ := List.mem_map.mp hmem
    have hlt := h.ids_lt r hr
    have hid : m = c.nextId := by simpa using hm
    omega
  ids_lt r hm := by
    simp only [Controller.launch, hr, hn, List.mem_append, List.mem_singleton] at hm ⊢
    rcases hm with hm | rfl
    · exact Nat.lt_succ_of_lt (h.ids_lt r hm)
    · exact Nat.lt_succ_self _

theorem filter (h : c.Numbered) {p : Running → Bool} (hr : c'.running = c.running.filter p)
    (hn : c'.nextId = c.nextId) : c'.Numbered where
  ids_nodup := by
    rw [hr]
    exact h.ids_nodup.sublist (List.filter_sublist.map _)
  ids_lt r hm := by
    rw [hr] at hm
    rw [hn]
    exact h.ids_lt r (List.mem_filter.mp hm).1

end Numbered

namespace Exclusive

variable {c c' : Controller}

theorem length_guards_le (h : c.Exclusive) : c.guards.length ≤ 1 := by
  rw [h.guards_eq]
  cases c.snapshot.activity <;> simp [Activity.held]

/-- Work that holds an activity is alone in that. -/
theorem eq_of_activity? (h : c.Exclusive) {r r' : Running} (hr : r ∈ c.running)
    (hr' : r' ∈ c.running) (ha : r.work.activity?.isSome) (ha' : r'.work.activity?.isSome) :
    r = r' := by
  have hlen : (c.running.filter (·.work.activity?.isSome)).length ≤ 1 := by
    rw [← List.countP_eq_length_filter, ← List.length_filterMap_eq_countP]
    exact h.length_guards_le
  have hm : r ∈ c.running.filter (·.work.activity?.isSome) := List.mem_filter.mpr ⟨hr, ha⟩
  have hm' : r' ∈ c.running.filter (·.work.activity?.isSome) := List.mem_filter.mpr ⟨hr', ha'⟩
  match hf : c.running.filter (·.work.activity?.isSome) with
  | [] => simp [hf] at hm
  | [x] =>
    rw [hf, List.mem_singleton] at hm hm'
    rw [hm, hm']
  | x :: y :: rest => simp [hf] at hlen

theorem activity_of_mem (h : c.Exclusive) {r : Running} {a : Activity} (hr : r ∈ c.running)
    (ha : r.work.activity? = some a) : c.snapshot.activity = a := by
  have hm : a ∈ c.guards := List.mem_filterMap.mpr ⟨r, hr, ha⟩
  rw [h.guards_eq] at hm
  revert hm
  cases c.snapshot.activity <;> simp [Activity.held, eq_comm]

/-- An activity that is shown is held by some work. -/
theorem exists_holder (h : c.Exclusive) (hne : c.state.activity ≠ .idle) :
    ∃ r ∈ c.running, r.work.activity? = some c.state.activity := by
  have hguards : c.guards = c.state.activity.held := h.guards_eq
  have hm : c.state.activity ∈ c.guards := by
    rw [hguards, Activity.held_of_ne_idle hne]
    exact List.mem_singleton.mpr rfl
  exact List.mem_filterMap.mp hm

theorem activity?_eq_none (h : c.Exclusive) (hidle : c.state.activity = .idle) {r : Running}
    (hr : r ∈ c.running) : r.work.activity? = none := by
  cases ha : r.work.activity? with
  | none => rfl
  | some a =>
    have hactivity : c.state.activity = a := h.activity_of_mem hr ha
    rw [hidle] at hactivity
    exact absurd hactivity.symm (Work.activity?_ne_idle ha)

/-- Only the numbers, the activities of the running work and the mode matter. -/
theorem congr (h : c.Exclusive) (hr : c'.running.map (fun r => (r.id, r.work.activity?)) =
    c.running.map fun r => (r.id, r.work.activity?)) (hn : c.nextId ≤ c'.nextId)
    (hm : c'.snapshot.mode = c.snapshot.mode) : c'.Exclusive where
  toNumbered := by
    refine h.toNumbered.congr ?_ hn
    simpa [Function.comp_def] using congrArg (List.map Prod.fst) hr
  guards_eq := by
    have hg : c'.guards = c.guards := by
      simpa [guards, List.filterMap_map, Function.comp_def] using congrArg (List.filterMap Prod.snd) hr
    rw [hg, h.guards_eq, Snapshot.activity_of_mode hm]
  coherent := h.coherent.of_mode hm

theorem launch (h : c.Exclusive) (hi : c.snapshot.activity = .idle) {origin : Origin} {work : Work}
    {a : Activity} (asks : List (Nat × Request)) (hr : c'.running = c.running)
    (hn : c'.nextId = c.nextId) (ha : work.activity? = some a)
    (hm : c'.snapshot.mode = (c.snapshot.withActivity a).mode) :
    (c'.launch origin work asks).1.Exclusive where
  toNumbered := h.toNumbered.launch hr hn origin work asks
  guards_eq := by
    have hg : c.running.filterMap (·.work.activity?) = [] := by
      have := h.guards_eq
      rwa [hi] at this
    have hs : (c'.launch origin work asks).1.snapshot.activity = a := Snapshot.activity_of_mode hm
    rw [hs, Activity.held_of_ne_idle (Work.activity?_ne_idle ha)]
    simp [guards, Controller.launch, hr, hg, ha]
  coherent := (Snapshot.coherent_withActivity c.snapshot a).of_mode hm

theorem launch_aside (h : c.Exclusive) {origin : Origin} {work : Work} (asks : List (Nat × Request))
    (hr : c'.running = c.running) (hn : c'.nextId = c.nextId) (ha : work.activity? = none)
    (hm : c'.snapshot.mode = c.snapshot.mode) : (c'.launch origin work asks).1.Exclusive where
  toNumbered := h.toNumbered.launch hr hn origin work asks
  guards_eq := by
    have hs : (c'.launch origin work asks).1.snapshot.activity = c.snapshot.activity :=
      Snapshot.activity_of_mode hm
    rw [hs, ← h.guards_eq]
    simp [guards, Controller.launch, hr, ha]
  coherent := h.coherent.of_mode hm

/-- Ending some work gives back the one activity that is held, or leaves it with its holder. -/
theorem guards_drop (h : c.Exclusive) (p : Running → Bool) :
    (((c.running.filter p).filterMap (·.work.activity?) = [] ∧ (c.drop p).guards = c.guards) ∨
      ((c.running.filter p).filterMap (·.work.activity?) = c.guards ∧ (c.drop p).guards = [])) := by
  have hsum : ∀ l : List Running, (l.filterMap (·.work.activity?)).length =
      ((l.filter p).filterMap (·.work.activity?)).length +
        ((l.filter (!p ·)).filterMap (·.work.activity?)).length := by
    intro l
    induction l with
    | nil => rfl
    | cons r l ih =>
      cases hp : p r <;> cases ha : r.work.activity? <;> simp [hp, ha, ih] <;> omega
  have hlen := h.length_guards_le
  have hdropped : ((c.running.filter p).filterMap (·.work.activity?)).Sublist c.guards :=
    List.filter_sublist.filterMap _
  have hkept : (c.drop p).guards.Sublist c.guards := List.filter_sublist.filterMap _
  have hall : c.guards.length = ((c.running.filter p).filterMap (·.work.activity?)).length +
      (c.drop p).guards.length := hsum c.running
  by_cases hzero : ((c.running.filter p).filterMap (·.work.activity?)).length = 0
  · exact .inl ⟨List.length_eq_zero_iff.mp hzero, hkept.eq_of_length (by omega)⟩
  · exact .inr ⟨hdropped.eq_of_length (by omega), List.length_eq_zero_iff.mp (by omega)⟩

theorem drop (h : c.Exclusive) (p : Running → Bool) : (c.drop p).Exclusive where
  toNumbered := h.toNumbered.filter rfl rfl
  guards_eq := by
    have hs : (c.drop p).snapshot =
        (((c.running.filter p).filterMap (·.work.activity?)).foldl .leave c.state).snapshot := rfl
    rcases h.guards_drop p with ⟨hd, hg⟩ | ⟨hd, hg⟩
    · rw [hg, hs, hd]
      exact h.guards_eq
    · rw [hg, hs, hd, h.guards_eq]
      by_cases hi : c.snapshot.activity = .idle
      · rw [hi]
        exact (congrArg Activity.held hi).symm
      · rw [Activity.held_of_ne_idle hi]
        exact (congrArg (Activity.held ∘ Snapshot.activity) c.state.snapshot_leave_self).symm
  coherent := by
    change (((c.running.filter p).filterMap (·.work.activity?)).foldl .leave
      c.state).snapshot.Coherent
    refine List.foldlRecOn (motive := fun s : SyncState => s.snapshot.Coherent) _ _ h.coherent ?_
    intro s hs a _
    exact s.coherent_leave hs a

theorem replaceWork (h : c.Exclusive) {r : Running} {work : Work} (hr : r ∈ c.running)
    (ha : work.activity? = r.work.activity?) : (c.replaceWork r.id work).Exclusive := by
  refine h.congr ?_ (Nat.le_refl _) rfl
  simp only [Controller.replaceWork, List.map_map]
  apply List.map_congr_left
  intro r' hr'
  by_cases hid : r'.id = r.id
  · rw [h.eq_of_id hr' hr hid]
    simp [ha]
  · simp [hid]

/-- Timers, the remembered shape and what is shared beyond the mode do not matter. -/
theorem keep (h : c.Exclusive) (hr : c'.running = c.running) (hn : c.nextId ≤ c'.nextId)
    (hm : c'.snapshot.mode = c.snapshot.mode) : c'.Exclusive :=
  h.congr (by rw [hr]) hn hm

theorem onState (h : c.Exclusive) {f : SyncState → SyncState}
    (hf : (f c.state).snapshot.mode = c.snapshot.mode) : (c.onState f).Exclusive :=
  h.keep rfl (Nat.le_refl _) hf

theorem scheduleRefresh (h : c.Exclusive) : c.scheduleRefresh.Exclusive :=
  (h.drop _).keep rfl (Nat.le_refl _) rfl

theorem conclude (h : c.Exclusive) (f : Tick.Finding) : (c.conclude f).Exclusive := by
  refine conclude_induction (h.keep rfl (Nat.le_refl _) rfl) ?_ ?_ ?_
  · intro c₁ id h₁
    exact h₁.onState (by simp [Snapshot.mode, Controller.snapshot])
  · intro c₁ h₁
    exact h₁.scheduleRefresh
  · intro c₁ wall h₁
    exact h₁.onState rfl

theorem changeVisibility (h : c.Exclusive) (visible : Bool) :
    (c.changeVisibility visible).Exclusive := by
  obtain ⟨c₁, slot, hc₁, hc⟩ := c.changeVisibility_eq visible
  have h₁ : c₁.Exclusive := by
    rcases hc₁ with rfl | rfl
    · exact h
    · exact h.onState rfl
  rw [hc]
  exact (h₁.drop _).keep rfl (Nat.le_refl _) rfl

theorem shutdown (h : c.Exclusive) : c.shutdown.Exclusive := by
  unfold Controller.shutdown
  dsimp only
  generalize hc₁ : (((c.abort .reconciler).abort .poller).abort .debounce).abort .visibility = c₁
  have haborted : c₁.Exclusive := hc₁ ▸ (((h.drop _).drop _).drop _).drop _
  exact haborted.keep rfl (Nat.le_refl _) rfl

theorem startBackground (h : c.Exclusive) : c.startBackground.Exclusive := by
  unfold Controller.startBackground
  split
  · exact h
  · exact h.keep rfl (Nat.le_refl _) rfl

theorem begins (h : c.Exclusive) (hi : c.snapshot.activity = .idle) {e : Event} {origin : Origin}
    {work : Work} {s' : Shared} (ho : Onset c e origin c') (hw : Opening c.shared e work s') :
    ({ c' with shared := s' }.launch origin work work.awaits).1.Exclusive := by
  obtain ⟨-, hr, hn, -⟩ := ho.frame
  cases hw with
  | switch => exact h.launch hi _ hr hn rfl (SyncState.mode_setError _ _)
  | reload => exact h.launch hi _ hr hn rfl (SyncState.mode_setError _ _)
  | recover => exact h.launch hi _ hr hn rfl rfl
  | tick => exact h.launch hi _ hr hn rfl rfl
  | refresh => exact h.launch hi _ hr hn rfl rfl

theorem resumed (h : c.Exclusive) {r : Running} (hr : r ∈ c.running) {signal : Signal}
    {out : Controller × List Output} (ho : Resumed c r signal out) : out.1.Exclusive := by
  cases ho with
  | nothing => exact h
  | @advance s' work asks ha =>
    have hs : { c with shared := s' }.Exclusive := h.keep rfl (Nat.le_refl _) ha.mode
    exact hs.replaceWork hr ha.activity?
  | @ending s' result he =>
    have hs : { c with shared := s' }.Exclusive := h.keep rfl (Nat.le_refl _) he.mode
    exact hs.drop _
  | conclusion => exact (h.conclude _).drop _

theorem stopTicker (h : c.Exclusive) (origin : Origin) : (c.stopTicker origin).Exclusive := by
  unfold Controller.stopTicker
  split
  · exact h.keep rfl (Nat.le_refl _) rfl
  · exact h.keep rfl (Nat.le_refl _) rfl
  · exact h

theorem detach (h : c.Exclusive) (id : Nat) : (c.detach id).Exclusive := by
  refine h.congr ?_ (Nat.le_refl _) rfl
  simp only [Controller.detach, List.map_map]
  apply List.map_congr_left
  intro r hr
  by_cases hid : r.id = id <;> simp [hid]

theorem act (h : c.Exclusive) {e : Event} {out : Controller × List Output} (ha : Act c e out) :
    out.1.Exclusive := by
  cases ha with
  | nothing => exact h
  | refused => exact h.keep rfl (Nat.le_succ _) rfl
  | exhausted => exact h.keep rfl (Nat.le_succ _) (SyncState.mode_setError _ _)
  | skippedCall => exact h.keep rfl (Nat.le_succ _) rfl
  | skippedTick ho =>
    obtain ⟨hs, hr, hn, -⟩ := ho.frame
    have hm : _ := congrArg (fun s : Shared => s.state.snapshot.mode) hs
    exact h.keep hr (Nat.le_of_eq hn.symm) hm
  | droppedRefresh => exact h.keep rfl (Nat.le_refl _) rfl
  | begins ho hi hw => exact h.begins hi ho hw
  | joins ho hw =>
    obtain ⟨hs, hr, hn, -⟩ := ho.frame
    have hm : _ := congrArg (fun s : Shared => s.state.snapshot.mode) hs
    cases hw <;> exact h.launch_aside _ hr hn rfl hm
  | resumed hs hr => exact h.resumed (mem_of_find? hs.find?) hr
  | collapsed => exact (h.stopTicker _).drop _
  | detached => exact h.detach _
  | abandoned => exact h.drop _
  | started => exact h.startBackground
  | shutDown => exact h.shutdown
  | visibility => exact h.changeVisibility _
  | expired hd hn =>
    refine h.onState ?_
    rw [(SyncState.expire_of_due _ hd hn).1]
    rfl
  | passed => exact h.keep rfl (Nat.le_refl _) rfl

theorem step (h : c.Exclusive) (e : Event) : (c.step e).1.Exclusive := by
  have hl : c.later.Exclusive := h.keep rfl (Nat.le_refl _) rfl
  exact hl.act (act_step c e)

theorem run (h : c.Exclusive) (es : List Event) : (c.run es).1.Exclusive :=
  run_induction h (fun _ e h => h.step e) es

theorem not_switch_of_tick (h : c.Exclusive) {r r' : Running} {tick : Tick} (hr : r ∈ c.running)
    (hw : r.work = .reconcile tick) (hr' : r' ∈ c.running) (id : String) (phase : Switch) :
    r'.work ≠ .switch id phase := by
  intro hw'
  obtain rfl := h.eq_of_activity? hr hr' (by simp [hw, Work.activity?]) (by simp [hw', Work.activity?])
  simp [hw] at hw'

theorem eq_of_switch (h : c.Exclusive) {r r' : Running} {id id' : String} {phase phase' : Switch}
    (hr : r ∈ c.running) (hw : r.work = .switch id phase) (hr' : r' ∈ c.running)
    (hw' : r'.work = .switch id' phase') : r' = r :=
  h.eq_of_activity? hr' hr (by simp [hw', Work.activity?]) (by simp [hw, Work.activity?])

end Exclusive

def commands (c : Controller) : List (Running × Request) :=
  c.running.flatMap fun r => r.work.commands.map (r, ·)

theorem Exclusive.length_commands_le {c : Controller} (h : c.Exclusive) : c.commands.length ≤ 1 := by
  have hsum : ∀ l : List Running, (l.flatMap fun r => r.work.commands.map (r, ·)).length ≤
      (l.filterMap (·.work.activity?)).length := by
    intro l
    induction l with
    | nil => exact Nat.le_refl _
    | cons r l ih =>
      rw [List.flatMap_cons, List.length_append, List.length_map]
      cases ha : r.work.activity? with
      | none =>
        simp only [List.filterMap_cons, ha, Work.commands_eq_nil ha, List.length_nil]
        omega
      | some a =>
        have hr := r.work.length_commands_le
        rw [ha] at hr
        change r.work.commands.length ≤ 1 at hr
        simp only [List.filterMap_cons, ha, List.length_cons]
        omega
  exact Nat.le_trans (hsum c.running) h.length_guards_le

theorem Exclusive.activity_of_command {c : Controller} (h : c.Exclusive) {r : Running} {q : Request}
    (hq : (r, q) ∈ c.commands) : r ∈ c.running ∧ r.work.activity? = some c.snapshot.activity := by
  obtain ⟨r', hr', hm⟩ := List.mem_flatMap.mp hq
  obtain ⟨q', hq', he⟩ := List.mem_map.mp hm
  obtain ⟨rfl, rfl⟩ := Prod.mk.inj he
  refine ⟨hr', ?_⟩
  cases ha : r'.work.activity? with
  | none => simp [Work.commands_eq_nil ha] at hq'
  | some a => rw [h.activity_of_mem hr' ha]

/-- Over every run, with any order of calls, answers, timers, breakdowns and callers who go away:
an activity is shown exactly if it is held, by one piece of work; the flags go with it; and at most
one command is under way, given by the work that holds the activity. -/
theorem mutual_exclusion (timings : Timings) (currentConfig : Option String) (es : List Event) :
    let c := ((initial timings currentConfig).run es).1
    (c.snapshot.activity ≠ .idle ↔ c.guards.length = 1) ∧
      (∀ a ∈ c.guards, c.snapshot.activity = a) ∧
      (c.snapshot.isSwitching = true ↔
        c.snapshot.activity = .switching ∨ c.snapshot.activity = .reloading) ∧
      (c.snapshot.isRecovering = true ↔ c.snapshot.activity = .recovering) ∧
      c.commands.length ≤ 1 ∧
      ∀ p ∈ c.commands, p.1 ∈ c.running ∧ p.1.work.activity? = some c.snapshot.activity := by
  intro c
  have h : c.Exclusive := (exclusive_initial timings currentConfig).run es
  refine ⟨?_, ?_, h.coherent.1, h.coherent.2, h.length_commands_le, ?_⟩
  · rw [h.guards_eq]
    cases c.snapshot.activity <;> simp [Activity.held]
  · rw [h.guards_eq]
    cases c.snapshot.activity <;> simp [Activity.held]
  · intro p hp
    exact h.activity_of_command hp

end Controller
end CoreWarden
