import CoreWarden.Proofs.Controller.Coherence
import CoreWarden.Proofs.Controller.Detection

/-!
What a reconciliation says of the cache that finds no change. It compares the groups with those that
reconciliations have seen before, not with those in the cache. So it speaks for a fresh entry as far as
reconciliations saw, when the entry was filled, what had been fetched for it; and unless a refresh that
was armed since was given up.
-/
namespace CoreWarden

open Controller (Hears Act)
open Json (encode)

namespace Tick

variable {observed : Option GroupShape} {state : SyncState} {profiles : Except Error ProfileList}
  {proxies : Except Error ProxySnapshot}

theorem seen_of_unchanged (h : (finding observed state profiles proxies).outcome = .unchanged) :
    ∃ list snapshot, profiles = .ok list ∧ proxies = .ok snapshot ∧
      ∀ seen, observed = some seen → seen = snapshot.groupShape := by
  revert h
  fun_cases finding observed state profiles proxies with
  | case1 list snapshot shape moved switched =>
    intro h
    refine ⟨list, snapshot, rfl, rfl, ?_⟩
    rintro seen rfl
    by_contra hne
    have hmoved : moved = true := by simp [moved, shape, hne]
    simp [hmoved] at h
  | case2 | case3 => simp

theorem seen_or_isChange (state : SyncState) (profiles : Except Error ProfileList)
    (proxies : Except Error ProxySnapshot) {seen : GroupShape} (h : observed = some seen) :
    (finding observed state profiles proxies).shape.or observed = some seen ∨
      (finding observed state profiles proxies).outcome.isChange = true := by
  subst h
  fun_cases finding (some seen) state profiles proxies with
  | case1 list snapshot shape moved switched =>
    by_cases hne : seen = shape
    · exact .inl (by simp [hne])
    · have hmoved : moved = true := by simp [moved, hne]
      exact .inr (by simp [hmoved, TickOutcome.isChange])
  | case2 => exact .inr rfl
  | case3 => exact .inr rfl

end Tick

namespace Controller

theorem observedShape_stopTicker (c : Controller) (origin : Origin) :
    (c.stopTicker origin).observedShape = c.observedShape := by
  unfold stopTicker
  split <;> rfl

theorem observedShape_startBackground (c : Controller) :
    c.startBackground.observedShape = c.observedShape := by
  unfold startBackground
  split <;> rfl

theorem observedShape_changeVisibility (c : Controller) (visible : Bool) :
    (c.changeVisibility visible).observedShape = c.observedShape := by
  obtain ⟨c₁, slot, rfl | rfl, hc⟩ := c.changeVisibility_eq visible <;> rw [hc] <;> rfl

theorem observedShape_conclude (c : Controller) (f : Tick.Finding) :
    (c.conclude f).observedShape = f.shape.or c.observedShape := by
  refine conclude_induction (P := fun c' => c'.observedShape = f.shape.or c.observedShape) rfl ?_ ?_ ?_
  · intro c₁ id h₁
    exact h₁
  · intro c₁ h₁
    exact h₁
  · intro c₁ wall h₁
    exact h₁

end Controller

namespace Turn

/-- The refresh that was armed is given up: its time comes while something is going on, or all periodic
work ends. -/
def Forgoes (t : Turn) : Prop :=
  (t.Fires ∧ t.before.state.activity ≠ .idle) ∨
    (t.event = .shutdown ∧ t.before.debounce.isPending = true)

/-- A reconciliation ends with the news that nothing has changed. -/
def FindsNoChange (t : Turn) (r : Running) (profiles : Except Error ProfileList)
    (proxies : Except Error ProxySnapshot) : Prop :=
  t.Concludes r profiles proxies ∧
    (Tick.finding t.before.observedShape t.before.state profiles proxies).outcome = .unchanged

variable {t : Turn}

/-- Only a conclusion changes the shape that was seen last. -/
theorem observedShape_eq (h : ∀ r profiles proxies, ¬ t.Concludes r profiles proxies) :
    t.after.observedShape = t.before.observedShape := by
  have hact := Controller.act_step t.before t.event
  rw [after]
  generalize t.before.step t.event = out at hact
  generalize he : t.event = e at hact
  cases hact with
  | nothing | refused | exhausted | skippedCall | droppedRefresh | detached | abandoned | shutDown
    | expired | passed => rfl
  | skippedTick ho | joins ho | begins ho => exact ho.frame.2.2.2
  | @collapsed r => exact t.before.later.observedShape_stopTicker r.origin
  | started => exact t.before.later.observedShape_startBackground
  | visibility visible => exact t.before.later.observedShape_changeVisibility visible
  | @resumed _ r signal _ hs ho =>
    cases ho with
    | nothing | advance | ending => rfl
    | @conclusion tick profiles proxies hwork hresults =>
      exact absurd ⟨tick, signal, hwork, he ▸ hs, hresults⟩ (h r profiles proxies)

/-- A shape that was seen stays the one seen last, or a refresh is armed. -/
theorem observedShape_or_isPending {seen : GroupShape} (h : t.before.observedShape = some seen) :
    t.after.observedShape = some seen ∨ t.after.debounce.isPending = true := by
  by_cases hconcludes : ∃ r profiles proxies, t.Concludes r profiles proxies
  · obtain ⟨r, profiles, proxies, hconcludes⟩ := hconcludes
    rw [step_of_concludes hconcludes]
    rcases Tick.seen_or_isChange t.before.state profiles proxies h with hseen | hchange
    · exact .inl ((Controller.observedShape_conclude ..).trans hseen)
    · exact .inr (Controller.isPending_conclude _ hchange)
  · have hnone : ∀ r profiles proxies, ¬ t.Concludes r profiles proxies :=
      fun r profiles proxies hc => hconcludes ⟨r, profiles, proxies, hc⟩
    exact .inl ((observedShape_eq hnone).trans h)

theorem isPending_turn (h : t.before.debounce.isPending = true) (hfires : ¬ t.Fires)
    (hne : t.event ≠ .shutdown) : t.after.debounce.isPending = true := by
  by_cases hdetects : ∃ n, t.Detects n
  · obtain ⟨n, r, profiles, proxies, hconcludes, -, hchange⟩ := hdetects
    rw [step_of_concludes hconcludes]
    exact Controller.isPending_conclude _ hchange
  by_cases hw : t.event = .wake .debounce
  · rw [step_of_not_fires hw hfires]
    exact h
  · rw [debounce_eq hne hw (not_exists.mp hdetects)]
    exact h

/-- A refresh that begins marks all entries stale. -/
theorem stale_of_fires (h : t.Fires) (hi : t.before.state.activity = .idle) {key : CacheKey}
    {entry : CacheEntry} (hentry : t.after.cache.find? key = some entry) : entry.stale = true := by
  have henter : { t.before.later with debounce := .empty }.state.enter .reconciling = _ :=
    SyncState.enter_of_idle _ _ hi
  have hcache : t.after.cache.find? key = (t.before.cache.find? key).map CacheEntry.marked := by
    rw [after, step_of_fires h, Controller.startDebounced]
    dsimp only
    rw [henter]
    exact Cache.find?_startRefresh _ key
  rw [hcache] at hentry
  obtain ⟨old, -, rfl⟩ := Option.map_eq_some_iff.mp hentry
  rfl

end Turn

namespace Controller

/-- What was seen in some turns is what was seen last, or a refresh is armed. -/
def Steady (turns : List Turn) (c : Controller) : Prop :=
  ∀ u ∈ turns, ∀ seen, u.before.observedShape = some seen →
    c.observedShape = some seen ∨ c.debounce.isPending = true

/-- Each fresh entry was brought by a fetch; unless a refresh was given up since, reconciliations have
seen the same shape from then on, or a refresh is armed. -/
def Filled (past : List Turn) (c : Controller) : Prop :=
  ∀ key entry, c.cache.find? key = some entry → entry.stale = false →
    ∃ earlier u later, past = earlier ++ u :: later ∧ (∃ r slot, u.Brings r slot key entry.value) ∧
      ((∀ v ∈ later, ¬ v.Forgoes) → c.Steady (u :: later))

variable {past : List Turn} {t : Turn}

theorem steady_turn (h : t.before.Steady past) (hfires : ¬ t.Fires) (hforgoes : ¬ t.Forgoes) :
    t.after.Steady (past ++ [t]) := by
  have hkept : ∀ seen, t.before.observedShape = some seen ∨ t.before.debounce.isPending = true →
      t.after.observedShape = some seen ∨ t.after.debounce.isPending = true := by
    rintro seen (hseen | hpending)
    · exact Turn.observedShape_or_isPending hseen
    · exact .inr (Turn.isPending_turn hpending hfires fun he => hforgoes (.inr ⟨he, hpending⟩))
  intro u hu seen hseen
  rcases List.mem_append.mp hu with hu | hu
  · exact hkept seen (h u hu seen hseen)
  · obtain rfl := List.mem_singleton.mp hu
    exact hkept seen (.inl hseen)

theorem filled_turn (h : t.before.Filled past) : t.after.Filled (past ++ [t]) := by
  intro key entry hentry hfresh
  rcases Turn.fresh_or_brought hentry hfresh with hbefore | ⟨r, slot, hbrings⟩
  · obtain ⟨earlier, u, later, rfl, hbrings, hsteady⟩ := h key entry hbefore hfresh
    refine ⟨earlier, u, later ++ [t], by simp, hbrings, fun hnone => ?_⟩
    have hforgoes : ¬ t.Forgoes := hnone t (by simp)
    have hfires : ¬ t.Fires := by
      intro hfires
      have hi : t.before.state.activity = .idle := by
        by_contra hbusy
        exact hforgoes (.inl ⟨hfires, hbusy⟩)
      simp [Turn.stale_of_fires hfires hi hentry] at hfresh
    exact steady_turn (hsteady fun v hv => hnone v (by simp [hv])) hfires hforgoes
  · obtain ⟨answer, he, -⟩ := id hbrings
    have hfires : ¬ t.Fires := by
      rintro ⟨hwake, -⟩
      simp [he] at hwake
    refine ⟨past, t, [], rfl, ⟨r, slot, hbrings⟩, fun _ => ?_⟩
    have hnone : t.before.Steady [] := by simp [Steady]
    refine steady_turn hnone hfires ?_
    rintro (⟨hf, -⟩ | ⟨hshutdown, -⟩)
    · exact hfires hf
    · simp [he] at hshutdown

theorem filled_run (timings : Timings) (currentConfig : Option String) (es : List Event) :
    let c := initial timings currentConfig
    (c.run es).1.Filled (c.turns es) := by
  refine turns_induction (P := fun past c => c.Filled past) ?_ (fun _ _ h => filled_turn h) es
  intro key entry hentry
  cases key <;> cases hentry

/-- In every run: a reconciliation that finds no change has fetched the profiles and the proxies, and
their groups have the shape that was seen last, if any was. If no refresh is armed then, a fresh entry
of the proxies was brought by a fetch, and unless a refresh that was armed has been given up since, every
shape that was seen last from then on is that of this reconciliation; so the entry has its shape exactly
if it has the one that reconciliations had seen. -/
theorem unchanged_tick_certifies (timings : Timings) (currentConfig : Option String)
    (es : List Event) (e : Event) (r : Running) (profiles : Except Error ProfileList)
    (proxies : Except Error ProxySnapshot)
    (h : (⟨((initial timings currentConfig).run es).1, e⟩ : Turn).FindsNoChange r profiles proxies) :
    let c := initial timings currentConfig
    let t : Turn := ⟨(c.run es).1, e⟩
    ∃ list snapshot, profiles = .ok list ∧ proxies = .ok snapshot ∧
      (∀ seen, t.before.observedShape = some seen → seen = snapshot.groupShape) ∧
      (t.after.debounce.isPending = false →
        ∀ entry, t.after.cache.find? .proxies = some entry → entry.stale = false →
          ∃ earlier u later, c.turns es = earlier ++ u :: later ∧
            (∃ r slot, u.Brings r slot .proxies entry.value) ∧
            ((∀ v ∈ later, ¬ v.Forgoes) → ∀ v ∈ u :: later, ∀ seen,
              v.before.observedShape = some seen → seen = snapshot.groupShape ∧
                ∀ fetched : ProxySnapshot, entry.value = encode fetched →
                  (fetched.groupShape = snapshot.groupShape ↔ fetched.groupShape = seen))) := by
  intro c t
  obtain ⟨hconcludes, hunchanged⟩ := h
  obtain ⟨list, snapshot, hlist, hsnapshot, hseen⟩ := Tick.seen_of_unchanged hunchanged
  refine ⟨list, snapshot, hlist, hsnapshot, hseen, ?_⟩
  intro hpending entry hentry hfresh
  have hafter := Turn.step_of_concludes hconcludes
  have hchange : (Tick.finding t.before.observedShape t.before.state profiles proxies).outcome.isChange =
      false := by rw [hunchanged]; rfl
  have hdebounce : t.after.debounce = t.before.debounce := by
    rw [hafter]
    exact debounce_conclude _ hchange
  have hcache : t.after.cache = t.before.cache := by
    rw [hafter]
    exact cache_conclude _ _
  rw [hcache] at hentry
  rw [hdebounce] at hpending
  obtain ⟨earlier, u, later, hsplit, hbrings, hsteady⟩ :=
    filled_run timings currentConfig es .proxies entry hentry hfresh
  refine ⟨earlier, u, later, hsplit, hbrings, ?_⟩
  intro hnone v hv seen hobserved
  have hshape : seen = snapshot.groupShape := by
    rcases hsteady hnone v hv seen hobserved with hlast | harmed
    · exact hseen seen hlast
    · exact absurd (hpending.symm.trans harmed) Bool.false_ne_true
  exact ⟨hshape, fun fetched _ => by rw [hshape]⟩

def oneGroup : ProxySnapshot := ⟨⟨[("g", ⟨"g", "Selector", none, some []⟩)]⟩⟩

def noProfiles : ProfileList := ⟨some "a", []⟩

/-- A reconciliation, a reload that fetches the same proxies, and the first fetch of a reconciliation. -/
def tickReloadTick : List Event :=
  [.call .reconcile, .answer 0 0 (.list (.ok noProfiles)), .answer 0 1 (.proxies (.ok oneGroup)),
    .call .reload, .answer 1 0 (.restart (.ok ())), .pass 5000, .wake (.work 1),
    .answer 1 1 (.version (.ok ⟨"1", false⟩)), .answer 1 0 (.list (.error .notConfigured)),
    .answer 1 1 (.proxies (.ok oneGroup)), .answer 1 2 (.config (.error .notConfigured)),
    .call .reconcile, .answer 2 0 (.list (.ok noProfiles))]

theorem unchanged_tick_certifies_reload :
    let c := initial Timings.standard (some "a")
    let t : Turn := ⟨(c.run tickReloadTick).1, .answer 2 1 (.proxies (.ok oneGroup))⟩
    (∃ r, t.FindsNoChange r (.ok noProfiles) (.ok oneGroup)) ∧
      ∃ entry, t.after.cache.find? .proxies = some entry ∧ entry.stale = false ∧
        ∃ earlier u later, c.turns tickReloadTick = earlier ++ u :: later ∧
          (∃ r slot, u.Brings r slot .proxies entry.value) ∧
          ∀ v ∈ u :: later, ∀ seen, v.before.observedShape = some seen → seen = oneGroup.groupShape := by
  intro c t
  let r : Running := ⟨2, .caller true, .reconcile ⟨some (.ok noProfiles), none⟩⟩
  have hr : t.before.later.find? r.id = some r := by
    dsimp only [t, c]
    rfl
  have hears : Hears t.before.later r t.event (.answer 1 (.proxies (.ok oneGroup))) :=
    .answer hr (List.mem_singleton.mpr rfl) (by simp)
  have hfinds : t.FindsNoChange r (.ok noProfiles) (.ok oneGroup) :=
    ⟨⟨_, _, rfl, hears, rfl⟩, by decide +kernel⟩
  have hpending : t.after.debounce.isPending = false := by decide +kernel
  have hfilled : (t.after.cache.find? .proxies).any (!·.stale) = true := by decide +kernel
  obtain ⟨entry, hentry, hfresh⟩ := (Option.any_eq_true _ _).mp hfilled
  rw [Bool.not_eq_true'] at hfresh
  obtain ⟨list, snapshot, -, hsnapshot, -, hcertified⟩ := unchanged_tick_certifies Timings.standard
    (some "a") tickReloadTick (.answer 2 1 (.proxies (.ok oneGroup))) r _ _ hfinds
  obtain rfl : oneGroup = snapshot := by simpa using hsnapshot
  obtain ⟨earlier, u, later, hsplit, hbrings, hseen⟩ := hcertified hpending entry hentry hfresh
  have hnone : ∀ v ∈ later, ¬ v.Forgoes := by
    intro v hv hforgoes
    have hevent := event_mem_of_turns (hsplit ▸ List.mem_append_right _ (.tail _ hv))
    rcases hforgoes with ⟨⟨he, -⟩, -⟩ | ⟨he, -⟩ <;> simp [he, tickReloadTick] at hevent
  exact ⟨⟨r, hfinds⟩, entry, hentry, hfresh, earlier, u, later, hsplit, hbrings,
    fun v hv seen hobserved => (hseen hnone v hv seen hobserved).1⟩

def reloadedThenAsked : List Event :=
  fetchingReload ++ [.answer 0 2 (.config (.error .notConfigured)), .call .reconcile,
    .answer 1 0 (.list (.ok noProfiles))]

/-- The first reconciliation finds no change, whatever the cache holds. -/
theorem first_tick_overlooks_cache :
    let c := initial Timings.standard (some "a")
    let t : Turn := ⟨(c.run reloadedThenAsked).1, .answer 1 1 (.proxies (.ok oneGroup))⟩
    (∀ key, .call (.refetch key) ∉ reloadedThenAsked) ∧
      t.outputs = [.ended 1 (.reconcile .unchanged)] ∧ t.after.debounce.isPending = false ∧
      ∃ (entry : CacheEntry) (fetched : ProxySnapshot),
        t.after.cache.find? .proxies = some entry ∧ entry.stale = false ∧
          entry.value = encode fetched ∧ fetched.groupShape ≠ oneGroup.groupShape := by
  intro c t
  have houtputs : t.outputs = [.ended 1 (.reconcile .unchanged)] := by
    dsimp only [t, c]
    rfl
  refine ⟨by simp [reloadedThenAsked, fetchingReload], houtputs, by decide +kernel, ?_⟩
  have hfound : (t.after.cache.find? .proxies).map (fun entry => (entry.stale, entry.value)) =
      some (false, encode (⟨⟨[]⟩⟩ : ProxySnapshot)) := by
    dsimp only [t, c]
    rfl
  obtain ⟨entry, hentry, hfields⟩ := Option.map_eq_some_iff.mp hfound
  obtain ⟨hfresh, hvalue⟩ := Prod.mk.inj hfields
  exact ⟨entry, ⟨⟨[]⟩⟩, hentry, hfresh, hvalue, by decide⟩

end Controller
end CoreWarden
