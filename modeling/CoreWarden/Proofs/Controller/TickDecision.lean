import CoreWarden.Proofs.Controller.TickCourse

/-!
What a reconciliation decides. Its outcome follows from what it has fetched, from the groups that the
reconciliations before it have seen last, and from the profile that is current when it ends. The groups
are remembered also if the profiles could not be fetched; a profile is taken over only if both fetches
succeeded.
-/
namespace CoreWarden

open Controller (Hears)

/-- An outcome is what the fetches, the groups seen before and the profile that is current ask for. -/
structure TickOutcome.Decides (outcome : TickOutcome) (seen : Option GroupShape) (current : Option String)
    (profiles : Except Error ProfileList) (proxies : Except Error ProxySnapshot) : Prop where
  fetchFailed_iff : outcome = .fetchFailed ↔ (∃ e, profiles = .error e) ∨ ∃ e, proxies = .error e
  changed_iff : outcome = .changed ↔ ∃ list found, profiles = .ok list ∧ proxies = .ok found ∧
    ((∃ shape, seen = some shape ∧ shape ≠ found.groupShape) ∨
      ∃ id, list.current = some id ∧ current ≠ some id)
  unchanged_iff : outcome = .unchanged ↔ ∃ list found, profiles = .ok list ∧ proxies = .ok found ∧
    (∀ shape, seen = some shape → shape = found.groupShape) ∧
      ∀ id, list.current = some id → current = some id

namespace Tick

def adopted? : Except Error ProfileList → Except Error ProxySnapshot → Option String
  | .ok list, .ok _ => list.current
  | _, _ => none

variable (seen : Option GroupShape) (state : SyncState) (profiles : Except Error ProfileList)
  (proxies : Except Error ProxySnapshot)

theorem reported_finding :
    (finding seen state profiles proxies).reported = adopted? profiles proxies := by
  cases profiles <;> cases proxies <;> rfl

theorem decides_finding : (finding seen state profiles proxies).outcome.Decides seen
    state.snapshot.currentConfig profiles proxies := by
  match profiles, proxies with
  | .ok list, .ok found =>
    have hmoved : (seen.any (· ≠ found.groupShape)) = true ↔
        ∃ shape, seen = some shape ∧ shape ≠ found.groupShape := by
      simp [Option.any_eq_true]
    have hswitched : (list.current.any state.differs) = true ↔
        ∃ id, list.current = some id ∧ state.snapshot.currentConfig ≠ some id := by
      simp [Option.any_eq_true, SyncState.differs]
    have houtcome : (finding seen state (.ok list) (.ok found)).outcome =
        if seen.any (· ≠ found.groupShape) || list.current.any state.differs then .changed
        else .unchanged := rfl
    rw [houtcome]
    by_cases hchange : (∃ shape, seen = some shape ∧ shape ≠ found.groupShape) ∨
        ∃ id, list.current = some id ∧ state.snapshot.currentConfig ≠ some id
    · rw [if_pos (by rw [Bool.or_eq_true, hmoved, hswitched]; exact hchange)]
      refine ⟨by simp, by simpa using hchange, ?_⟩
      grind
    · rw [if_neg (by rw [Bool.or_eq_true, hmoved, hswitched]; exact hchange)]
      refine ⟨by simp, by simpa using hchange, ?_⟩
      grind
  | .error e, .ok found => constructor <;> simp [finding]
  | .ok list, .error e => constructor <;> simp [finding]
  | .error e, .error e' => constructor <;> simp [finding]

end Tick

namespace Controller

theorem Exclusive.lasting_snapshot {c : Controller} (h : c.Exclusive)
    (hi : c.state.activity = .idle) : c.lasting.snapshot = c.snapshot := by
  obtain ⟨hswitching, hrecovering⟩ := h.coherent
  have hactivity : c.snapshot.activity = .idle := hi
  rw [hactivity] at hswitching hrecovering
  have hs : c.snapshot.isSwitching = false := by simpa using hswitching
  have hr : c.snapshot.isRecovering = false := by simpa using hrecovering
  change c.snapshot.withActivity .idle = c.snapshot
  generalize c.snapshot = s at hactivity hs hr
  obtain ⟨activity, switching, recovering⟩ := s
  subst hactivity hs hr
  rfl

theorem lasting_scheduleRefresh (c : Controller) : c.scheduleRefresh.lasting = { c.lasting with
    debounce := c.debounce.replace c.now c.shared.timings.invalidateDebounce.toNat () } :=
  congrArg (fun l : Lasting => { l with
    debounce := c.debounce.replace c.now c.shared.timings.invalidateDebounce.toNat () })
    (c.lasting_abort .debounce)

theorem lasting_adopt (c : Controller) (id : String) : (c.onState (·.adopt id)).lasting =
    { c.lasting with snapshot := { c.lasting.snapshot with currentConfig := some id } } := by
  have hsnapshot := c.state.snapshot_adopt id
  have hreset := c.state.reset_adopt id
  change (⟨(c.state.adopt id).snapshot.withActivity .idle, (c.state.adopt id).reset, _, _, _⟩ : Lasting) = _
  rw [hsnapshot, hreset]
  rfl

theorem lasting_conclude (c : Controller) (f : Tick.Finding) : (c.conclude f).lasting = { c.lasting with
    snapshot := { c.lasting.snapshot with
      currentConfig := f.reported.or c.snapshot.currentConfig
      lastReconcile := some c.shared.wall }
    observedShape := f.shape.or c.observedShape
    debounce := if f.outcome.isChange then
      c.debounce.replace c.now c.shared.timings.invalidateDebounce.toNat () else c.debounce } := by
  have hrecord : ∀ (c : Controller) wall, (c.onState (·.recordReconcile wall)).lasting =
      { c.lasting with snapshot := { c.lasting.snapshot with lastReconcile := some wall } } :=
    fun c wall => rfl
  obtain ⟨shape, reported, outcome⟩ := f
  unfold conclude
  rw [hrecord]
  cases outcome <;> cases reported <;>
    simp only [lasting_scheduleRefresh, lasting_adopt, TickOutcome.isChange, if_true,
      Bool.false_eq_true, if_false] <;> rfl

end Controller

namespace Turn

/-- All that a reconciliation does when it ends. -/
structure EndsTick (t : Turn) (r : Running) (profiles : Except Error ProfileList)
    (proxies : Except Error ProxySnapshot) (outcome : TickOutcome) : Prop where
  outputs : t.outputs = Controller.report r (.reconcile outcome)
  running : t.after.running = t.before.running.filter (·.id != r.id)
  snapshot : t.after.snapshot = { t.before.snapshot.withActivity .idle with
    currentConfig := (Tick.adopted? profiles proxies).or t.before.snapshot.currentConfig
    lastReconcile := some t.before.shared.wall.later }
  reset : t.after.state.reset = t.before.state.reset
  cache : t.after.cache = t.before.cache
  debounce : t.after.debounce = if outcome.isChange then
    t.before.debounce.replace t.now t.before.shared.timings.invalidateDebounce.toNat ()
    else t.before.debounce

variable {timings : Timings} {t : Turn} {r : Running} {profiles : Except Error ProfileList}
  {proxies : Except Error ProxySnapshot}

theorem lasting_of_concludes (h : t.Concludes r profiles proxies) : t.after.lasting =
    (t.before.later.conclude
      (Tick.finding t.before.observedShape t.before.state profiles proxies)).lasting := by
  rw [step_of_concludes h]
  exact Controller.lasting_drop _ _

theorem running_of_concludes (hs : t.before.Sound timings) (hasides : t.before.AttendsAsides)
    (h : t.Concludes r profiles proxies) :
    t.after.running = t.before.running.filter (·.id != r.id) := by
  obtain ⟨tick, signal, hw, hears, -⟩ := id h
  have hr := Controller.mem_of_find? hears.find?
  have hrefresh : ∀ r' ∈ t.before.running, r'.id ≠ r.id → r'.origin ≠ .debounce := by
    intro r' hr' hne ho
    cases ha : r'.work.activity? with
    | none => rcases hasides r' hr' ha with hp | ⟨awaits, hc⟩ <;> simp_all
    | some a =>
      exact hne (congrArg Running.id (hs.eq_of_activity? hr' hr (by simp [ha])
        (by simp [hw, Work.activity?])))
  have hkept : ∀ f : Tick.Finding, (t.before.later.conclude f).running.filter (·.id != r.id) =
      t.before.running.filter (·.id != r.id) := by
    intro f
    refine Controller.conclude_induction
      (P := fun c => c.running.filter (·.id != r.id) = t.before.running.filter (·.id != r.id)) rfl
      (fun _ _ h => h) (fun c hc => ?_) (fun _ _ h => h)
    change (c.running.filter (!·.origin == .debounce)).filter (·.id != r.id) = _
    rw [List.filter_comm, hc, List.filter_eq_self]
    intro r' hr'
    obtain ⟨hmem, hid⟩ := List.mem_filter.mp hr'
    simp [hrefresh r' hmem (by simpa using hid)]
  rw [step_of_concludes h]
  exact hkept _

theorem endsTick_of_concludes (hs : t.before.Sound timings) (hasides : t.before.AttendsAsides)
    (h : t.Concludes r profiles proxies) :
    t.EndsTick r profiles proxies
      (Tick.finding t.before.observedShape t.before.state profiles proxies).outcome := by
  have hlasting := lasting_of_concludes h
  rw [Controller.lasting_conclude, Tick.reported_finding] at hlasting
  obtain ⟨tick, signal, hw, hears, hresults⟩ := id h
  have hr := Controller.mem_of_find? hears.find?
  have hrunning := running_of_concludes hs hasides h
  have hidle : t.after.state.activity = .idle := by
    refine Controller.idle_of_gone hs hr (by simp [hw, Work.activity?]) fun r' hr' => ?_
    rw [hrunning] at hr'
    simpa using (List.mem_filter.mp hr').2
  refine ⟨?_, hrunning, ?_, ?_, ?_, ?_⟩
  · rw [outputs, Controller.step_of_hears hears]
    unfold Controller.resume
    simp only [hw, hresults]
    rfl
  · have hshown : t.after.lasting.snapshot = t.after.snapshot :=
      (hs.step t.event).lasting_snapshot hidle
    exact hshown.symm.trans (congrArg Lasting.snapshot hlasting)
  · exact congrArg Lasting.reset hlasting
  · exact congrArg Lasting.cache hlasting
  · exact congrArg Lasting.debounce hlasting

end Turn

namespace Controller

/-- In every run, a reconciliation goes on until both its fetches are answered, unless it is called off
or a fetch breaks down. With the second answer it ends. It has failed if a fetch has failed; otherwise
there was a change if groups were seen before and the last of them were others, or if the profile of the
store is not the one that is current. What is seen last are the groups of the last reconciliation that has
ended with the proxies. Besides, its end notes its moment, takes over the profile of the store if both
fetches succeeded, and arms the refresh if there was a change or a failure. -/
theorem tick_decides (timings : Timings) (currentConfig : Option String) (es : List Event) (e : Event)
    {r : Running} {tick : Tick} :
    let c := initial timings currentConfig
    let past := c.turns es
    let t : Turn := ⟨(c.run es).1, e⟩
    r ∈ t.before.running → r.work = .reconcile tick →
    t.TickFate r tick ∧
    ∀ profiles proxies, t.Concludes r profiles proxies →
      (∃ u ∈ past ++ [t], u.Answers r.id .list (.list profiles)) ∧
      (∃ u ∈ past ++ [t], u.Answers r.id .proxies (.proxies proxies)) ∧
      LastSeen (past ++ [t]) t.after.observedShape ∧
      ∃ seen outcome, LastSeen past seen ∧
        outcome.Decides seen t.before.snapshot.currentConfig profiles proxies ∧
        t.EndsTick r profiles proxies outcome := by
  intro c past t hr hw
  obtain ⟨hs, hreconciling⟩ := reconciling_run timings currentConfig es
  have hfounded := (founded_run timings currentConfig es).2 r hr
  rw [hw] at hfounded
  refine ⟨Turn.tickFate hs hr hw, fun profiles proxies hconcludes => ?_⟩
  have hends := Turn.endsTick_of_concludes hs hreconciling.asides hconcludes
  obtain ⟨tick', signal, hw', hears, hresults⟩ := hconcludes
  obtain rfl : tick = tick' := by simpa [hw] using hw'
  have hfetched := Tick.fetched_resume (t := t) hw hears hfounded.1
  obtain ⟨hprofiles, hproxies⟩ := Tick.of_results? hresults
  exact ⟨hfetched.profiles _ hprofiles, hfetched.proxies _ hproxies,
    lastSeen_turn hreconciling.lastSeen, _, _, hreconciling.lastSeen,
    Tick.decides_finding _ _ _ _, hends⟩

/-- A reconciliation that fetches no profiles but one group, and the first fetch of another one, by which
the store has made another profile current. -/
def twoTicks : List Event :=
  [.call .reconcile, .answer 0 0 (.list (.error .notConfigured)), .answer 0 1 (.proxies (.ok oneGroup)),
    .call .reconcile, .answer 1 0 (.list (.ok ⟨some "b", []⟩))]

/-- The second reconciliation ends with the same group: there was a change, for the store has made another
profile current, which is taken over. -/
theorem tick_decides_twoTicks :
    let c := initial Timings.standard (some "a")
    let r : Running := ⟨1, .caller true, .reconcile ⟨some (.ok ⟨some "b", []⟩), none⟩⟩
    let t : Turn := ⟨(c.run twoTicks).1, .answer 1 1 (.proxies (.ok oneGroup))⟩
    r ∈ t.before.running ∧ t.Concludes r (.ok ⟨some "b", []⟩) (.ok oneGroup) ∧
      LastSeen (c.turns twoTicks ++ [t]) t.after.observedShape ∧
      t.outputs = [.ended 1 (.reconcile .changed)] ∧ t.after.snapshot.currentConfig = some "b" ∧
      t.after.debounce.isPending = true := by
  intro c r t
  have hr : t.before.find? 1 = some r := rfl
  have hmem : r ∈ t.before.running := mem_of_find? hr
  have hlater : t.before.later.find? 1 = some r := rfl
  have hears : Hears t.before.later r t.event (.answer 1 (.proxies (.ok oneGroup))) :=
    .answer hlater (.head _) (by simp)
  have hconcludes : t.Concludes r (.ok ⟨some "b", []⟩) (.ok oneGroup) := ⟨_, _, rfl, hears, rfl⟩
  obtain ⟨-, hdecides⟩ := tick_decides Timings.standard (some "a") twoTicks
    (.answer 1 1 (.proxies (.ok oneGroup))) (r := r) hmem rfl
  obtain ⟨-, -, hlast, seen, outcome, -, houtcome, hends⟩ := hdecides _ _ hconcludes
  have hcurrent : t.before.snapshot.currentConfig = some "a" := by decide +kernel
  have hchanged : outcome = .changed :=
    houtcome.changed_iff.mpr ⟨_, _, rfl, rfl, .inr ⟨"b", rfl, fun h =>
      absurd (hcurrent.symm.trans h) (by decide)⟩⟩
  subst hchanged
  refine ⟨hmem, hconcludes, hlast, hends.outputs, ?_, ?_⟩
  · rw [hends.snapshot]
    rfl
  · rw [hends.debounce]
    rfl

end Controller
end CoreWarden
