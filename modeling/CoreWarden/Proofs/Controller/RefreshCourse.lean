import CoreWarden.Proofs.Controller.LastStored
import CoreWarden.Proofs.Controller.TickCourse

/-!
The course of the debounced refresh. It begins when its time comes while nothing is going on, and asks
for the data of each key once. While it is under way no reconciliation can end, so that no other refresh
is armed in its place: it goes on until every key is answered, unless all periodic work ends or a fetch
breaks down.
-/
namespace CoreWarden

open Controller (Hears Act)

namespace Refresh

def Lacks (refresh : Refresh) (key : CacheKey) : Prop := (key, none) ∈ refresh.fetches

variable {refresh : Refresh} {slot : Nat} {key : CacheKey}

theorem lacks_iff_awaited : refresh.Lacks key ↔ ∃ slot, (slot, key.request) ∈ refresh.asks := by
  constructor
  · intro h
    obtain ⟨slot, hat⟩ := List.mem_iff_getElem?.mp h
    exact ⟨slot, mem_asks_iff.mpr ⟨key, hat, rfl⟩⟩
  · rintro ⟨slot, h⟩
    obtain ⟨key', hat, hrequest⟩ := mem_asks_iff.mp h
    obtain rfl := CacheKey.request_injective hrequest
    exact List.mem_of_getElem? hat

theorem isDone_iff : refresh.isDone = true ↔ ∀ key, ¬ refresh.Lacks key := by
  rw [isDone, List.all_eq_true]
  constructor
  · intro h key hlacks
    cases h _ hlacks
  · rintro h ⟨key, found⟩ hmem
    cases found with
    | none => exact absurd hmem (h key)
    | some result => rfl

theorem fst_fetches_settle (refresh : Refresh) (slot : Nat) (result : Except Error Json.Value)
    (cache : Cache) (wall : Time.Timestamp) :
    (refresh.settle slot result cache wall).1.fetches.map Prod.fst = refresh.fetches.map Prod.fst := by
  unfold settle
  split
  · next key hat =>
    refine (List.map_set).trans ?_
    refine List.ext_getElem? fun i => ?_
    rw [List.getElem?_set]
    split
    · next hi =>
      subst hi
      have hkey : (refresh.fetches.map Prod.fst)[slot]? = some key := by simp [hat]
      obtain ⟨hlt, -⟩ := List.getElem?_eq_some_iff.mp hkey
      rw [if_pos hlt, hkey]
    · rfl
  · rfl

theorem lacks_settle (hkeys : (refresh.fetches.map Prod.fst).Nodup)
    (hat : refresh.fetches[slot]? = some (key, none)) (result : Except Error Json.Value) (cache : Cache)
    (wall : Time.Timestamp) (key' : CacheKey) :
    (refresh.settle slot result cache wall).1.Lacks key' ↔ refresh.Lacks key' ∧ key' ≠ key := by
  have hfetches : (refresh.settle slot result cache wall).1.fetches =
      refresh.fetches.set slot (key, some (result.map fun _ => ())) := by
    unfold settle
    rw [hat]
  rw [Lacks, hfetches]
  constructor
  · intro h
    obtain ⟨i, hi⟩ := List.mem_iff_getElem?.mp h
    rw [List.getElem?_set] at hi
    split at hi
    · split at hi <;> simp at hi
    · next hne =>
      refine ⟨List.mem_of_getElem? hi, ?_⟩
      rintro rfl
      have hsame : (refresh.fetches.map Prod.fst)[slot]? = (refresh.fetches.map Prod.fst)[i]? := by
        simp [hat, hi]
      have hlt : slot < (refresh.fetches.map Prod.fst).length := by
        simpa using (List.getElem?_eq_some_iff.mp hat).1
      exact hne ((List.getElem?_inj hlt hkeys).mp hsame)
  · rintro ⟨h, hne⟩
    obtain ⟨i, hi⟩ := List.mem_iff_getElem?.mp h
    refine List.mem_iff_getElem?.mpr ⟨i, ?_⟩
    rw [List.getElem?_set, if_neg, hi]
    rintro rfl
    exact hne (Prod.mk.inj (Option.some.inj (hi.symm.trans hat))).1

end Refresh

theorem Shared.fst_fetches_resumeRefresh (s : Shared) (refresh : Refresh) (signal : Signal) :
    (s.resumeRefresh refresh signal).1.fetches.map Prod.fst = refresh.fetches.map Prod.fst := by
  unfold resumeRefresh
  split
  · split
    · exact refresh.fst_fetches_settle ..
    · rfl
  · rfl

namespace Turn

/-- The fetch for a key that a piece of work waits for is answered, with the data or with a failure. -/
def Delivers (t : Turn) (n : Nat) (key : CacheKey) : Prop :=
  ∃ answer, t.Answers n key.request answer ∧ answer.fetched?.isSome = true

/-- The time of the debounced refresh comes while nothing is going on: the refresh begins. -/
def Launches (t : Turn) (n : Nat) : Prop :=
  t.Fires ∧ t.before.state.activity = .idle ∧ t.before.nextId = n

inductive RefreshTurn (t : Turn) (r : Running) (refresh : Refresh) : Prop
  | goesOn {refresh'} (h : { r with work := .refresh refresh' } ∈ t.after.running)
      (hkeys : refresh'.fetches.map Prod.fst = refresh.fetches.map Prod.fst)
      (hlacks : ∀ key, refresh'.Lacks key ↔ refresh.Lacks key ∧ ¬ t.Delivers r.id key)
      (hopen : ∃ key, refresh'.Lacks key)
  | completes (hall : ∀ key, refresh.Lacks key → t.Delivers r.id key)
      (hgone : ∀ r' ∈ t.after.running, r'.id ≠ r.id)
  | shutDown (he : t.event = .shutdown) (hgone : ∀ r' ∈ t.after.running, r'.id ≠ r.id)
  | brokeDown (h : t.BreaksDown r.id) (hgone : ∀ r' ∈ t.after.running, r'.id ≠ r.id)

variable {timings : Timings} {t : Turn} {r : Running} {refresh : Refresh} {key : CacheKey}

theorem step_of_hears_refresh (hw : r.work = .refresh refresh) {signal : Signal}
    (hears : Hears t.before.later r t.event signal) {refresh' : Refresh} {shared : Shared}
    (hresume : t.before.later.shared.resumeRefresh refresh signal = (refresh', shared)) :
    t.before.step t.event = if refresh'.isDone
      then ({ t.before.later with shared }.drop (·.id == r.id), [])
      else ({ t.before.later with shared }.replaceWork r.id (.refresh refresh'), []) := by
  rw [Controller.step_of_hears hears]
  unfold Controller.resume
  simp only [hw, hresume]

theorem delivers_iff (hs : t.before.Sound timings) (hr : r ∈ t.before.running)
    (hw : r.work = .refresh refresh) : t.Delivers r.id key ↔ ∃ slot answer,
      t.event = .answer r.id slot answer ∧ refresh.fetches[slot]? = some (key, none) ∧
        answer.fetched?.isSome = true := by
  constructor
  · rintro ⟨answer, ⟨slot, r', he, hr', ha⟩, hfetched⟩
    obtain rfl := Option.some.inj ((hs.find?_eq_some hr).symm.trans hr')
    rw [hw] at ha
    obtain ⟨key', hat, hrequest⟩ := Refresh.mem_asks_iff.mp ha
    obtain rfl := CacheKey.request_injective hrequest
    exact ⟨slot, answer, he, hat, hfetched⟩
  · rintro ⟨slot, answer, he, hat, hfetched⟩
    refine ⟨answer, ⟨slot, r, he, hs.find?_eq_some hr, ?_⟩, hfetched⟩
    rw [hw]
    exact Refresh.mem_asks_iff.mpr ⟨key, hat, rfl⟩

theorem lacks_of_hears (hs : t.before.Sound timings) (hw : r.work = .refresh refresh)
    (hkeys : (refresh.fetches.map Prod.fst).Nodup) {signal : Signal}
    (hears : Hears t.before.later r t.event signal) {refresh' : Refresh} {shared : Shared}
    (hresume : t.before.later.shared.resumeRefresh refresh signal = (refresh', shared))
    (key : CacheKey) : refresh'.Lacks key ↔ refresh.Lacks key ∧ ¬ t.Delivers r.id key := by
  obtain rfl : (t.before.later.shared.resumeRefresh refresh signal).1 = refresh' :=
    congrArg Prod.fst hresume
  have hdelivers : t.Delivers r.id key ↔ _ := delivers_iff hs (Controller.mem_of_find? hears.find?) hw
  generalize he : t.event = e at hears hdelivers
  cases hears with
  | timeUp hr hd =>
    rw [hw] at hd
    cases hd
  | @answer slot request answer hr ha hc =>
    rw [hw] at ha
    obtain ⟨asked, hat, -⟩ := Refresh.mem_asks_iff.mp ha
    have hdelivers' : t.Delivers r.id key ↔ key = asked ∧ answer.fetched?.isSome = true := by
      rw [hdelivers]
      constructor
      · rintro ⟨slot', answer', hevent, hat', hfetched⟩
        injection hevent with _ hslot hanswer
        subst hslot hanswer
        exact ⟨(Prod.mk.inj (Option.some.inj (hat'.symm.trans hat))).1, hfetched⟩
      · rintro ⟨rfl, hfetched⟩
        exact ⟨slot, answer, rfl, hat, hfetched⟩
    rw [hdelivers', Shared.resumeRefresh]
    cases hfetched : answer.fetched? with
    | none => simp
    | some result =>
      simp only [Option.isSome_some, and_true]
      exact Refresh.lacks_settle hkeys hat result _ _ key

theorem not_delivers_of_deaf (hs : t.before.Sound timings) (hr : r ∈ t.before.running)
    (hdeaf : ∀ signal, ¬ Hears t.before.later r t.event signal) : ¬ t.Delivers r.id key := by
  rintro ⟨answer, ⟨slot, r', he, hr', ha⟩, hfetched⟩
  have hne : answer ≠ .collapsed := by
    rintro rfl
    cases hfetched
  obtain rfl := Option.some.inj ((hs.find?_eq_some hr).symm.trans hr')
  have hears : Hears t.before.later r (.answer r.id slot answer) (.answer slot answer) :=
    .answer (hs.later.find?_eq_some hr) ha hne
  exact hdeaf _ (he ▸ hears)

theorem refreshTurn_of_hears (hs : t.before.Sound timings) (hw : r.work = .refresh refresh)
    (hkeys : (refresh.fetches.map Prod.fst).Nodup) {signal : Signal}
    (hears : Hears t.before.later r t.event signal) : t.RefreshTurn r refresh := by
  have hr := Controller.mem_of_find? hears.find?
  generalize hresume : t.before.later.shared.resumeRefresh refresh signal = next
  obtain ⟨refresh', shared⟩ := next
  have hlacks := lacks_of_hears hs hw hkeys hears hresume
  have hstep := step_of_hears_refresh hw hears hresume
  by_cases hd : refresh'.isDone = true
  · rw [if_pos hd] at hstep
    refine .completes (fun key hopen => ?_) fun r' hr' => ?_
    · by_contra hnot
      exact Refresh.isDone_iff.mp hd key ((hlacks key).mpr ⟨hopen, hnot⟩)
    · rw [after, hstep] at hr'
      simpa using (List.mem_filter.mp hr').2
  · rw [if_neg hd] at hstep
    refine .goesOn ?_ (congrArg (·.1.fetches.map Prod.fst) hresume ▸ Shared.fst_fetches_resumeRefresh ..)
      hlacks (by simpa using mt Refresh.isDone_iff.mpr hd)
    rw [after, hstep]
    exact Controller.mem_replaceWork (c := { t.before.later with shared }) hr _

theorem refreshTurn_of_deaf (hs : t.before.Sound timings) (hr : r ∈ t.before.running)
    (hw : r.work = .refresh refresh) (ho : r.origin = .debounce) (hopen : ∃ key, refresh.Lacks key)
    (hdeaf : ∀ signal, ¬ Hears t.before.later r t.event signal) : t.RefreshTurn r refresh := by
  have hstays : r ∈ t.after.running → t.RefreshTurn r refresh := by
    intro hmem
    refine .goesOn (hw ▸ hmem) rfl (fun key => ?_) hopen
    simp [not_delivers_of_deaf hs hr hdeaf]
  by_cases hshut : t.event = .shutdown
  · refine .shutDown hshut fun r' hr' hid => ?_
    rw [after, hshut] at hr'
    obtain rfl := hs.eq_of_id (Controller.mem_of_mem_shutdown (c := t.before.later) hr') hr hid
    exact Controller.not_mem_shutdown (c := t.before.later) (by simp [ho]) hr'
  by_cases hleft : ∃ id, t.event = .abandon id
  · obtain ⟨id, hid⟩ := hleft
    refine hstays ?_
    rw [after, hid]
    exact Controller.mem_abandon hs.later.toNumbered hr ho id
  cases Controller.refreshFate_of_act hs.later.toExclusive (Controller.act_step t.before t.event) hr ho
      hw hshut (not_exists.mp hleft) with
  | goesOn hmem =>
    have hsame : { r with work := _ } = r := congrArg (Running.mk r.id r.origin)
      (work_of_deaf hs hr hmem rfl hdeaf)
    exact hstays (hsame ▸ hmem)
  | completes hears => exact absurd hears (hdeaf _)
  | @collapses slot request he ha =>
    have hfind := hs.find?_eq_some hr
    refine .brokeDown ⟨request, slot, r, he, hfind, ha⟩ fun r' hr' => ?_
    rw [after, he, Controller.step_of_collapsed hfind ha] at hr'
    simpa using (List.mem_filter.mp hr').2

theorem refreshTurn (hs : t.before.Sound timings) (hr : r ∈ t.before.running)
    (hw : r.work = .refresh refresh) (ho : r.origin = .debounce)
    (hkeys : (refresh.fetches.map Prod.fst).Nodup) (hopen : ∃ key, refresh.Lacks key) :
    t.RefreshTurn r refresh := by
  by_cases hheard : ∃ signal, Hears t.before.later r t.event signal
  · obtain ⟨signal, hears⟩ := hheard
    exact refreshTurn_of_hears hs hw hkeys hears
  · exact refreshTurn_of_deaf hs hr hw ho hopen (not_exists.mp hheard)

theorem not_asks_of_refresh (hs : t.before.Sound timings) (hr : r ∈ t.before.running)
    (hw : r.work = .refresh refresh) (request : Request) : ¬ t.Asks r.id request := by
  rintro ⟨slot, hask⟩
  rcases Controller.hears_of_asks (Controller.act_step t.before t.event) hask with
    hnew | ⟨r', signal, hid, hears⟩
  · exact absurd (hs.ids_lt r hr) (hnew ▸ Nat.lt_irrefl _)
  · obtain rfl := hs.eq_of_id (Controller.mem_of_find? hears.find?) hr hid
    generalize hresume : t.before.later.shared.resumeRefresh refresh signal = next
    obtain ⟨refresh', shared⟩ := next
    rw [outputs, step_of_hears_refresh hw hears hresume] at hask
    cases hd : refresh'.isDone <;> simp [hd] at hask

theorem step_of_launches {n : Nat} (h : t.Launches n) :
    let s := t.before.later.shared.onState (·.modify (·.withActivity .reconciling))
    t.before.step t.event =
      { t.before.later with shared := s.startRefresh.2, debounce := .empty }.launch .debounce
        (.refresh s.startRefresh.1) s.startRefresh.1.asks := by
  intro s
  obtain ⟨hfires, hidle, -⟩ := h
  have henter : { t.before.later with debounce := .empty }.state.enter .reconciling = _ :=
    SyncState.enter_of_idle _ _ hidle
  rw [step_of_fires hfires]
  unfold Controller.startDebounced
  dsimp only
  rw [henter]
  rfl

theorem refresh_before_or_launches (hs : t.before.Sound timings) (hr : r ∈ t.after.running)
    (hw : r.work = .refresh refresh) :
    (∃ r₀ ∈ t.before.running, r₀.id = r.id ∧ ∃ refresh₀, r₀.work = .refresh refresh₀) ∨
      t.Launches r.id ∧ r.origin = .debounce ∧
        refresh = (Refresh.start true CacheKey.all t.before.cache).1 := by
  have hsource := Controller.source_of_turn hs hr
  generalize t.outputs = outputs at hsource
  generalize he : t.event = e at hsource
  cases hsource with
  | @kept r₀ _ _ hr₀ => exact .inl ⟨r₀, hr₀, rfl, refresh, hw⟩
  | @advanced r₀ signal s' work asks hears ha =>
    have hr₀ := Controller.mem_of_find? hears.find?
    obtain rfl : work = .refresh refresh := hw
    generalize hw₀ : r₀.work = w at ha
    cases ha
    exact .inl ⟨r₀, hr₀, rfl, _, hw₀⟩
  | joined onset haside =>
    obtain rfl : _ = Work.refresh refresh := hw
    cases haside
  | opened onset hi hopening =>
    obtain rfl : _ = Work.refresh refresh := hw
    cases hopening
    cases onset
    refine .inr ⟨⟨?_, hi, rfl⟩, rfl, rfl⟩
    by_contra hnot
    rw [step_of_not_fires he hnot] at hr
    exact absurd (hs.ids_lt _ hr) (Nat.lt_irrefl _)

end Turn

/-- How a debounced refresh that is under way came about: its time had come while nothing was going on,
and since then it has begun no further call, and lacks just the answers that have not come. -/
structure Refreshing (past : List Turn) (r : Running) (refresh : Refresh) : Prop where
  keys : refresh.fetches.map Prod.fst = CacheKey.all
  origin : r.origin = .debounce
  lacks : ∃ key, refresh.Lacks key
  begun : ∃ earlier u later, past = earlier ++ u :: later ∧ u.Launches r.id ∧
    (∀ v ∈ later, ∀ request, ¬ v.Asks r.id request) ∧
    ∀ key, refresh.Lacks key ↔ ∀ v ∈ later, ¬ v.Delivers r.id key

namespace Refreshing

variable {timings : Timings} {past : List Turn} {t : Turn} {r : Running} {refresh : Refresh}

theorem nodup (h : Refreshing past r refresh) : (refresh.fetches.map Prod.fst).Nodup := by
  rw [h.keys]
  decide

theorem launched (h : t.Launches r.id) (ho : r.origin = .debounce) (cache : Cache) :
    Refreshing (past ++ [t]) r (Refresh.start true CacheKey.all cache).1 := by
  have hlacks : ∀ key, (Refresh.start true CacheKey.all cache).1.Lacks key := by
    intro key
    exact Refresh.lacks_iff_awaited.mpr (Refresh.mem_asks_start cache key)
  refine ⟨rfl, ho, ⟨.profiles, hlacks _⟩, past, t, [], rfl, h, by simp, fun key => ?_⟩
  simp [hlacks key]

theorem goesOn (h : Refreshing past r refresh) {refresh' : Refresh}
    (hkeys : refresh'.fetches.map Prod.fst = CacheKey.all)
    (hasks : ∀ request, ¬ t.Asks r.id request)
    (hlacks : ∀ key, refresh'.Lacks key ↔ refresh.Lacks key ∧ ¬ t.Delivers r.id key)
    (hopen : ∃ key, refresh'.Lacks key) :
    Refreshing (past ++ [t]) { r with work := .refresh refresh' } refresh' := by
  obtain ⟨earlier, u, later, rfl, hlaunches, hquiet, hgot⟩ := h.begun
  refine ⟨hkeys, h.origin, hopen, earlier, u, later ++ [t], by simp, hlaunches, ?_, fun key => ?_⟩
  · exact List.forall_mem_append.mpr ⟨hquiet, by simpa using hasks⟩
  · rw [hlacks, hgot, List.forall_mem_append]
    simp

end Refreshing

namespace Controller

variable {timings : Timings} {past : List Turn} {t : Turn}

/-- Every refresh under way came about as `Refreshing` says. -/
def AllRefreshing (past : List Turn) (c : Controller) : Prop :=
  ∀ r ∈ c.running, ∀ refresh, r.work = .refresh refresh → Refreshing past r refresh

theorem allRefreshing_turn (hs : t.before.Sound timings) (h : t.before.AllRefreshing past) :
    t.after.AllRefreshing (past ++ [t]) := by
  intro r hr refresh hw
  rcases Turn.refresh_before_or_launches hs hr hw with
    ⟨r₀, hr₀, hid, refresh₀, hw₀⟩ | ⟨hlaunches, ho, rfl⟩
  · have hbefore := h r₀ hr₀ refresh₀ hw₀
    cases Turn.refreshTurn hs hr₀ hw₀ hbefore.origin hbefore.nodup hbefore.lacks with
    | @goesOn refresh' hmem hkeys hlacks hopen =>
      obtain rfl := (hs.step t.event).eq_of_id hr hmem hid.symm
      obtain rfl : refresh' = refresh := by simpa using hw
      exact hbefore.goesOn (hkeys.trans hbefore.keys) (Turn.not_asks_of_refresh hs hr₀ hw₀) hlacks hopen
    | completes _ hgone | shutDown _ hgone | brokeDown _ hgone => exact absurd hid.symm (hgone r hr)
  · exact Refreshing.launched hlaunches ho _

theorem allRefreshing_run (timings : Timings) (currentConfig : Option String) (es : List Event) :
    let c := initial timings currentConfig
    (c.run es).1.AllRefreshing (c.turns es) := by
  intro c
  have hrun := turns_induction (P := fun past c' => c'.Sound timings ∧ c'.AllRefreshing past) (c := c)
    ⟨sound_initial timings currentConfig, fun r hr => by cases hr⟩
    (fun past t h => ⟨h.1.step t.event, allRefreshing_turn h.1 h.2⟩) es
  exact hrun.2

end Controller

end CoreWarden
