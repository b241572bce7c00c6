import CoreWarden.Proofs.Controller.Entries
import CoreWarden.Proofs.Controller.Told

/-!
Coherence of the cache after a workflow. Two refreshes of the whole cache never go on side by side, and
a workflow that ends well leaves no fresh entry but those that its own refresh has fetched, which began
after the health wait, or after the check of a recovery that finds no conflict.
-/
namespace CoreWarden

open Controller (Hears Source)
open Json (Value)

namespace Turn

/-- A workflow has passed its health wait, or its check if it does not wait. -/
def Passes (t : Turn) (n : Nat) (waited : Bool) : Prop :=
  if waited then ∃ version, t.Answers n .version (.version (.ok version))
  else ∃ result, t.Answers n .status (.status result)

def Ends (t : Turn) (r : Running) (result : Result) : Prop :=
  ∃ signal s', Hears t.before.later r t.event signal ∧
    r.work.Ending t.before.later.shared signal s' (some result)

end Turn

/-- A workflow has begun a call when it had passed its health wait, or in that event. -/
def AskedAfter (n : Nat) (waited : Bool) (slot : Nat) (request : Request) (past : List Turn) : Prop :=
  Since (fun earlier u => .ask n slot request ∈ u.outputs ∧ ∃ v ∈ earlier ++ [u], v.Passes n waited)
    (fun _ => True) past

theorem AskedAfter.snoc {n slot : Nat} {waited : Bool} {request : Request} {past : List Turn}
    (h : AskedAfter n waited slot request past) (t : Turn) :
    AskedAfter n waited slot request (past ++ [t]) :=
  Since.snoc h trivial

/-- A workflow has fetched the data of a key after its health wait. -/
def FetchedAfter (n : Nat) (waited : Bool) (key : CacheKey) (value : Value) (past : List Turn) : Prop :=
  Since (fun earlier u => ∃ r slot, r.id = n ∧ u.Brings r slot key value ∧
    AskedAfter n waited slot key.request earlier) (fun _ => True) past

namespace Work

theorem activity?_of_renewing {w : Work} {refresh : Refresh} (h : w.stage = .renewing refresh) :
    w.activity?.isSome = true := by
  cases w with
  | check | reconcile | refetch => cases h
  | switch | reload | recover | refresh => rfl

theorem activity?_of_isDetached {w : Work} (h : w.isDetached = true) : w.activity?.isSome = true := by
  cases w with
  | switch | reload | recover => rfl
  | check | reconcile | refetch | refresh => cases h

end Work

namespace Controller

def Undisturbed (c : Controller) : Prop := ∀ r ∈ c.running, ∀ key, r.work ≠ .refetch key

/-- What is fresh was fetched by a workflow after its health wait. -/
def Current (c : Controller) (n : Nat) (waited : Bool) (past : List Turn) : Prop :=
  ∀ key entry, c.cache.find? key = some entry → entry.stale = false →
    FetchedAfter n waited key entry.value past

/-- What a workflow has behind it that refreshes the cache, or has done so. -/
structure Covered (past : List Turn) (c : Controller) (r : Running) : Prop where
  asked : ∀ refresh, r.work.stage = .renewing refresh → ∀ a ∈ refresh.asks,
    AskedAfter r.id r.work.waits a.1 a.2 past
  current : (r.work.stage = .renewed ∨ ∃ refresh, r.work.stage = .renewing refresh) →
    c.Current r.id r.work.waits past

theorem step_of_advance {c : Controller} {r : Running} {e : Event} {signal : Signal} {s' : Shared}
    {work : Work} {asks : List (Nat × Request)} (hs : Hears c.later r e signal)
    (ha : r.work.Advance c.later.shared signal s' work asks) :
    (c.step e).1 = { c.later with shared := s' }.replaceWork r.id work := by
  rw [step_of_hears hs]
  generalize hw : r.work = w at ha
  unfold resume
  rw [hw]
  cases ha with
  | switch h | recover h | reload h | reconcile h =>
    dsimp only
    rw [h]
    try rfl
  | refresh h hd =>
    dsimp only
    rw [h]
    simp [hd]

theorem Hears.answers_of_mem {t : Turn} {r : Running} {slot : Nat} {answer : Answer} {request : Request}
    (h : Hears t.before.later r t.event (.answer slot answer)) (ha : (slot, request) ∈ r.work.awaits) :
    t.Answers r.id request answer := by
  generalize he : t.event = e at h
  cases h with
  | answer hr => exact ⟨slot, r, he, hr, ha⟩

variable {timings : Timings} {past : List Turn} {t : Turn} {r : Running}

theorem passes_of_ready {signal : Signal} {waited : Bool}
    (hf : t.before.Founded timings.switchGrace.toNat past)
    (hs : Hears t.before.later r t.event signal) (h : Work.Ready signal waited r.work) :
    ∃ v ∈ past ++ [t], v.Passes r.id waited := by
  generalize hw : r.work = w at h
  cases h with
  | healthy ha hslot =>
    subst ha
    exact exists_mem_last ⟨_, hs.answers_of_mem (hw ▸ hslot)⟩
  | checked ha hslot =>
    subst ha
    exact exists_mem_last ⟨_, hs.answers_of_mem (hw ▸ hslot)⟩
  | stored =>
    have hevidence := hf r (mem_of_find? hs.find?)
    rw [hw] at hevidence
    obtain ⟨earlier, v, later, rfl, ⟨hversion, -⟩, -⟩ := hevidence
    exact ⟨v, by simp, hversion⟩

/-- A workflow that refreshes the cache, or has done so, is the only one to bring new entries. -/
theorem current_turn (hs : t.before.Sound timings) (hfree : t.before.Undisturbed)
    (hr : r ∈ t.before.running) (hd : r.work.isDetached = true)
    (hstage : r.work.stage = .renewed ∨ ∃ refresh, r.work.stage = .renewing refresh)
    (h : t.before.Covered past r) : t.after.Current r.id r.work.waits (past ++ [t]) := by
  intro key entry hentry hfresh
  rcases Turn.fresh_or_brought hentry hfresh with hbefore | ⟨r₁, slot, hbrings⟩
  · exact Since.snoc (h.current hstage key entry hbefore hfresh) trivial
  · obtain ⟨-, -, -, hr₁, hslot, hwork⟩ := id hbrings
    have hmem := mem_of_find? hr₁
    rcases hwork with ⟨refresh, hrenewing⟩ | hrefetch
    · obtain rfl : r₁ = r := hs.eq_of_activity? hmem hr (Work.activity?_of_renewing hrenewing)
        (Work.activity?_of_isDetached hd)
      rw [Work.awaits_of_stage hrenewing] at hslot
      exact Since.last ⟨r₁, slot, rfl, hbrings, h.asked refresh hrenewing _ hslot⟩
    · exact absurd hrefetch (hfree r₁ hmem key)

/-- All workflows have behind them what they need. -/
def Coherent (past : List Turn) (c : Controller) : Prop :=
  ∀ r ∈ c.running, r.work.isDetached = true → c.Covered past r

theorem covered_of_before {c : Controller} (h : r.work.stage = .before ∨ r.work.stage = .failed) :
    c.Covered past r := by
  constructor
  · intro refresh hstage
    rcases h with h | h <;> rw [h] at hstage <;> cases hstage
  · rintro (hstage | ⟨refresh, hstage⟩) <;> rcases h with h | h <;> rw [h] at hstage <;> cases hstage

theorem covered_of_advance (hs : t.before.Sound timings)
    (hf : t.before.Founded timings.switchGrace.toNat past) (hfree : t.before.Undisturbed)
    (h : t.before.Coherent past) {signal : Signal} {s' : Shared} {work : Work}
    {asks : List (Nat × Request)} (hears : Hears t.before.later r t.event signal)
    (ha : r.work.Advance t.before.later.shared signal s' work asks)
    (hd : work.isDetached = true) (ho : ∀ a ∈ asks, .ask r.id a.1 a.2 ∈ t.outputs) :
    t.after.Covered (past ++ [t]) { r with work } := by
  have hr := mem_of_find? hears.find?
  have hd' : r.work.isDetached = true := ha.isDetached ▸ hd
  have hcovered := h r hr hd'
  have hcache : t.after.cache = s'.cache := congrArg cache (step_of_advance hears ha)
  have hwrites := ha.writes
  generalize hstored : s'.cache = stored at hwrites
  cases hwrites with
  | nothing hstage hwaits =>
    rcases hstage with hstage | hstage
    · constructor
      · intro refresh hrenewing a hmem
        have hasked := hcovered.asked refresh (hstage ▸ hrenewing) a hmem
        exact hwaits ▸ hasked.snoc t
      · intro hrenews
        have hfresh := current_turn hs hfree hr hd' (hstage ▸ hrenews) hcovered
        exact hwaits ▸ hfresh
    · exact covered_of_before (.inr hstage)
  | begins hstage hstage' hready =>
    constructor
    · intro refresh hrenewing a hmem
      obtain rfl := Stage.renewing.inj (hstage'.symm.trans hrenewing)
      exact Since.last ⟨ho a hmem, passes_of_ready (r := r) hf hears hready⟩
    · intro _ key entry hentry hfresh
      rw [hcache, hstored, Cache.find?_startRefresh] at hentry
      obtain ⟨old, -, rfl⟩ := Option.map_eq_some_iff.mp hentry
      cases hfresh
  | @settles refresh _ hstage hstage' hwaits =>
    constructor
    · intro refresh' hrenewing a hmem
      rcases hstage' with hstage' | hstage'
      · obtain rfl := Stage.renewing.inj (hstage'.symm.trans hrenewing)
        have hasked := hcovered.asked refresh hstage a (Shared.asks_resumeRefresh_subset hmem)
        exact hwaits ▸ hasked.snoc t
      · cases hstage'.symm.trans hrenewing
    · intro _
      have hfresh := current_turn hs hfree hr hd' (.inr ⟨refresh, hstage⟩) hcovered
      exact hwaits ▸ hfresh

theorem coherent_turn (hs : t.before.Sound timings)
    (hf : t.before.Founded timings.switchGrace.toNat past) (hfree : t.before.Undisturbed)
    (h : t.before.Coherent past) : t.after.Coherent (past ++ [t]) := by
  intro r hr hd
  have hsource := source_of_turn hs hr
  generalize ho : t.outputs = outputs at hsource
  cases hsource with
  | @kept r₀ _ _ hr₀ =>
    have hcovered := h r₀ hr₀ hd
    exact ⟨fun refresh hstage a hmem => (hcovered.asked refresh hstage a hmem).snoc t,
      fun hstage => current_turn (r := r₀) hs hfree hr₀ hd hstage hcovered⟩
  | opened onset hi hopening =>
    generalize t.event = e at hopening
    cases hopening with
    | switch | reload | recover => exact covered_of_before (.inl rfl)
    | tick | refresh => cases hd
  | joined onset haside =>
    generalize t.event = e at haside
    cases haside <;> cases hd
  | @advanced r₀ signal s' work asks hears ha =>
    refine covered_of_advance hs hf hfree h hears ha hd ?_
    intro a hmem
    rw [ho]
    exact List.mem_map.mpr ⟨a, hmem, rfl⟩

theorem undisturbed_turn (hs : t.before.Sound timings) (h : t.before.Undisturbed)
    (hne : ∀ key, t.event ≠ .call (.refetch key)) : t.after.Undisturbed := by
  intro r hr key hw
  have hsource := source_of_turn hs hr
  generalize t.outputs = outputs at hsource
  cases hsource with
  | @kept r₀ _ _ hr₀ => exact h r₀ hr₀ key hw
  | opened onset hi hopening =>
    generalize t.event = e at hopening
    cases hopening <;> cases hw
  | joined onset haside =>
    generalize he : t.event = e at haside
    cases haside with
    | check | poll => cases hw
    | refetch key => exact hne key he
  | @advanced r₀ _ _ _ _ hears ha =>
    obtain rfl := hw
    generalize r₀.work = w at ha
    cases ha

theorem coherent_run (timings : Timings) (currentConfig : Option String) (es : List Event)
    (hes : ∀ key, .call (.refetch key) ∉ es) :
    let c := initial timings currentConfig
    (c.run es).1.Undisturbed ∧ (c.run es).1.Coherent (c.turns es) := by
  intro c
  induction es using List.reverseRecOn with
  | nil => exact ⟨by simp [Undisturbed, run, c, initial], by simp [Coherent, run, c, initial]⟩
  | append_singleton es e ih =>
    have hprefix : ∀ key, .call (.refetch key) ∉ es :=
      fun key hmem => hes key (List.mem_append_left _ hmem)
    have hlast : ∀ key, e ≠ .call (.refetch key) := by
      rintro key rfl
      exact hes key (List.mem_append_right _ (List.mem_singleton.mpr rfl))
    obtain ⟨hfree, hcoherent⟩ := ih hprefix
    obtain ⟨hs, hf⟩ := founded_run timings currentConfig es
    rw [run_snoc, turns_snoc]
    exact ⟨undisturbed_turn (t := ⟨_, e⟩) hs hfree hlast,
      coherent_turn (t := ⟨_, e⟩) hs hf hfree hcoherent⟩

theorem ends_of_told {n : Nat} {result : Result} {waited : Bool} (hm : .ended n result ∈ t.outputs)
    (hr : result.waited? = some waited) : ∃ r, r.id = n ∧ t.Ends r result := by
  have htold := told_of_turn hm
  generalize he : t.event = e at htold
  cases htold with
  | refused h => cases h <;> cases hr
  | exhausted | skipped | concluded => cases hr
  | @ended _ r signal s' _ ho hs hending => exact ⟨r, rfl, signal, s', he ▸ hs, hending⟩
  | @collapsed r =>
    cases hw : r.work <;> rw [hw] at hr <;> cases hr

/-- In every run in which no caller fetches the data of a key on his own, with any order of calls,
answers, timers, breakdowns, callers who go away and ends of all periodic work: no two refreshes of the
whole cache go on at the same time; and when a switch, a reload or a recovery comes to a good end, every
entry of the cache is stale or was fetched by that workflow, in a call begun after its health wait, or
after the check of a recovery that found no conflict. What callers are told of a good end is told then. -/
theorem cache_coherent_after_workflow (timings : Timings) (currentConfig : Option String)
    (es : List Event) (e : Event) (hes : ∀ key, .call (.refetch key) ∉ es) :
    let c := initial timings currentConfig
    let t : Turn := ⟨(c.run es).1, e⟩
    (∀ r ∈ t.before.running, ∀ r' ∈ t.before.running, ∀ refresh refresh',
      r.work.stage = .renewing refresh → r'.work.stage = .renewing refresh' → r = r') ∧
    (∀ r result waited, t.Ends r result → result.waited? = some waited →
      ∀ key entry, t.after.cache.find? key = some entry →
        entry.stale = true ∨ FetchedAfter r.id waited key entry.value (c.turns es ++ [t])) ∧
    (∀ n result waited, .ended n result ∈ t.outputs → result.waited? = some waited →
      ∃ r, r.id = n ∧ t.Ends r result) := by
  intro c t
  have hs : t.before.Sound timings := (sound_initial timings currentConfig).run es
  obtain ⟨hfree, hcoherent⟩ := coherent_run timings currentConfig es hes
  refine ⟨?_, ?_, fun n result waited hm hr => ends_of_told hm hr⟩
  · intro r hr r' hr' refresh refresh' hstage hstage'
    exact hs.eq_of_activity? hr hr' (Work.activity?_of_renewing hstage)
      (Work.activity?_of_renewing hstage')
  · rintro r result waited ⟨signal, s', hears, hending⟩ hresult key entry hentry
    have hr := mem_of_find? hears.find?
    obtain ⟨rfl, hd, hstage⟩ := hending.stage_of_waited? hresult
    cases hstale : entry.stale with
    | true => exact .inl rfl
    | false =>
      have hcurrent := current_turn hs hfree hr hd hstage (hcoherent r hr hd)
      exact .inr (hcurrent key entry hentry hstale)

/-- A reload that fetches the proxies, up to the last answer to its refresh. -/
def fetchingReload : List Event :=
  [.call .reload, .answer 0 0 (.restart (.ok ())), .pass 5000, .wake (.work 0),
    .answer 0 1 (.version (.ok ⟨"1", false⟩)), .answer 0 0 (.list (.error .notConfigured)),
    .answer 0 1 (.proxies (.ok ⟨⟨[]⟩⟩))]

theorem cache_coherent_after_fetchingReload :
    let c := initial Timings.standard (some "a")
    let t : Turn := ⟨(c.run fetchingReload).1, .answer 0 2 (.config (.error .notConfigured))⟩
    (∀ key, .call (.refetch key) ∉ fetchingReload) ∧
      .ended 0 (.reload (.ok ())) ∈ t.outputs ∧
      ∃ entry, t.after.cache.find? .proxies = some entry ∧ entry.stale = false ∧
        FetchedAfter 0 true .proxies entry.value (c.turns fetchingReload ++ [t]) := by
  intro c t
  have hes : ∀ key, .call (.refetch key) ∉ fetchingReload := by simp [fetchingReload]
  obtain ⟨-, hcurrent, htold⟩ := cache_coherent_after_workflow Timings.standard (some "a")
    fetchingReload (.answer 0 2 (.config (.error .notConfigured))) hes
  have houtputs : t.outputs = [.ended 0 (.reload (.ok ()))] := by
    dsimp only [t, c]
    rfl
  have hm : .ended 0 (.reload (.ok ())) ∈ t.outputs := houtputs ▸ List.mem_singleton.mpr rfl
  have hbrought : (t.after.cache.find? .proxies).any (!·.stale) = true := by decide +kernel
  obtain ⟨entry, hentry, hfresh⟩ := (Option.any_eq_true _ _).mp hbrought
  rw [Bool.not_eq_true'] at hfresh
  obtain ⟨r, hr, hends⟩ := htold 0 _ true hm rfl
  refine ⟨hes, hm, entry, hentry, hfresh, ?_⟩
  rcases hcurrent r _ true hends rfl .proxies entry hentry with hstale | hfetched
  · simp [hfresh] at hstale
  · exact hr ▸ hfetched

end Controller
end CoreWarden
