import CoreWarden.Proofs.Controller.Agreement
import Mathlib.Tactic.IntervalCases

/-!
A switch that has committed is not rolled back. A reconciliation changes the profile that is current
only if the last that was heard of the store is not good, and then to what the store holds.
-/
namespace CoreWarden
namespace Controller

section

variable {timings : Timings} {held : Nat → Option String} {past : List Turn} {t : Turn}

/-! ### What the store has said to a switch -/

/-- While a switch is past its note, the store is loosened only if the switch breaks down. -/
theorem not_loosens_of_refreshing (hs : t.before.Sound timings) {r : Running} {id : String}
    {remaining : Bool} {refresh : Refresh} (hr : r ∈ t.before.running)
    (hw : r.work = .switch id (.refreshing remaining refresh))
    (hgoes : ∀ slot request, (slot, request) ∈ r.work.awaits →
      t.event ≠ .answer r.id slot .collapsed) : ¬ t.Loosens := by
  rintro (⟨n, id', e, slot, r₁, -, hfind, ha⟩ | ⟨r₁, slot, request, he, hfind, ha, hn⟩)
  · obtain ⟨remaining', hw₁⟩ := Work.storing_of_mem_awaits ha
    obtain rfl := hs.eq_of_switch hr hw (mem_of_find? hfind) hw₁
    simp [hw] at hw₁
  · obtain ⟨id₁, phase₁, hw₁⟩ := Work.switch_of_isNoting hn
    obtain rfl := hs.eq_of_switch hr hw (mem_of_find? hfind) hw₁
    exact hgoes slot request ha he

theorem ne_collapsed_of_hears {r : Running} {signal : Signal}
    (h : Hears t.before.later r t.event signal) (slot : Nat) :
    t.event ≠ .answer r.id slot .collapsed := by
  intro he
  rw [he] at h
  cases h with
  | answer hr ha hc => exact hc rfl

theorem ne_collapsed_of_mem (hs : t.before.Sound timings) {r r' : Running}
    (hr : r ∈ t.before.running) (hr' : r' ∈ t.after.running) (hid : r.id = r'.id) (slot : Nat) (request : Request)
    (ha : (slot, request) ∈ r.work.awaits) : t.event ≠ .answer r.id slot .collapsed := by
  intro he
  rw [Turn.after, he, step_of_collapsed (hs.find?_eq_some hr) ha] at hr'
  have hne := (List.mem_filter.mp hr').2
  simp [hid] at hne

def Noted (past : List Turn) (c : Controller) : Prop :=
  ∀ r ∈ c.running, ∀ id remaining refresh, r.work = .switch id (.refreshing remaining refresh) →
    Since (fun _ v => ∃ result, v.Answers r.id (.store id) (.store result)) (fun w => ¬ w.Loosens) past

theorem noted_turn (hs : t.before.Sound timings) (h : t.before.Noted past) :
    t.after.Noted (past ++ [t]) := by
  intro r hr id remaining refresh hw
  obtain ⟨r₀, hr₀, hid, id₀, phase, phase', hw₀, hw', hphase⟩ :=
    Turn.noting_source hs hr (by rw [hw]; rfl)
  obtain ⟨rfl, rfl⟩ : id = id₀ ∧ phase' = .refreshing remaining refresh := by
    simpa [hw, eq_comm] using hw'
  have hstill : ∀ remaining' refresh', r₀.work = .switch id (.refreshing remaining' refresh') →
      Since (fun _ v => ∃ result, v.Answers r.id (.store id) (.store result)) (fun w => ¬ w.Loosens)
        (past ++ [t]) := by
    intro remaining' refresh' hw₁
    have hl := not_loosens_of_refreshing hs hr₀ hw₁ (ne_collapsed_of_mem hs hr₀ hr hid)
    exact (hid ▸ h r₀ hr₀ id remaining' refresh' hw₁).snoc hl
  rcases hphase with rfl | ⟨signal, hears, hnoting⟩
  · exact hstill _ _ hw₀
  cases hnoting with
  | made remaining result refresh =>
    obtain ⟨request, hm, hanswer⟩ := hears.answers
    have hrequest : request = .store id := by simpa [hw₀, Work.awaits, Switch.awaits] using hm
    exact Since.last ⟨result, hid ▸ hrequest ▸ hanswer⟩
  | still => exact hstill _ _ hw₀
  | refreshes => exact hstill _ _ hw₀

theorem noted_of_commits (hs : t.before.Sound timings) (h : t.before.Noted past) {r : Running}
    {id : String} (hc : t.Commits r id) : ¬ t.Loosens ∧
      Since (fun _ v => ∃ result, v.Answers r.id (.store id) (.store result)) (fun w => ¬ w.Loosens)
        past := by
  obtain ⟨phase, signal, s', remaining, hw, hears, hresume⟩ := hc
  obtain ⟨remaining', refresh, rfl⟩ := Switch.refreshing_of_done hresume
  have hr := mem_of_find? hears.find?
  exact ⟨not_loosens_of_refreshing hs hr hw fun slot _ _ => ne_collapsed_of_hears hears slot,
    h r hr id remaining' refresh hw⟩

/-! ### Runs -/

/-- All that is known of the store and the controller after some turns. -/
structure Stored (timings : Timings) (held : Nat → Option String) (past : List Turn)
    (c : Controller) : Prop where
  sound : c.Sound timings
  following : c.Following held past
  agrees : c.Agrees (held past.length) ∨ Unsettled past
  noted : c.Noted past

theorem Stored.turn (h : t.before.Stored timings held past) (hstore : StoreTurn held past t) :
    t.after.Stored timings held (past ++ [t]) where
  sound := h.sound.step t.event
  following := following_turn h.sound hstore h.following
  agrees := agrees_turn h.sound hstore h.following h.agrees
  noted := noted_turn h.sound h.noted

theorem stored_initial (timings : Timings) {currentConfig : Option String}
    (h : held 0 = currentConfig) : (initial timings currentConfig).Stored timings held [] where
  sound := sound_initial timings currentConfig
  following := by simp [Following, initial]
  agrees := .inl ⟨by simp [initial], fun _ => h⟩
  noted := by simp [Noted, initial]

theorem stored_run {currentConfig : Option String} (h : held 0 = currentConfig) {es : List Event}
    (hstore : StoreRun held ((initial timings currentConfig).turns es)) :
    ((initial timings currentConfig).run es).1.Stored timings held
      ((initial timings currentConfig).turns es) := by
  induction es using List.reverseRecOn with
  | nil => exact stored_initial timings h
  | append_singleton es e ih =>
    rw [turns_snoc] at hstore ⊢
    rw [run_snoc]
    exact Stored.turn (t := ⟨_, e⟩) (ih hstore.left) (hstore _ _ [] rfl)

/-- What a turn does to the profile that is current, given what is known of the store. -/
theorem Stored.moves (h : t.before.Stored timings held past) (hstore : StoreTurn held past t) :
    t.after.snapshot.currentConfig = t.before.snapshot.currentConfig ∨
      (∃ r id, t.Commits r id ∧ t.after.snapshot.currentConfig = some id) ∨
      Unsettled past ∧ (∃ r list proxies, t.Concludes r (.ok list) (.ok proxies)) ∧
        t.after.snapshot.currentConfig = held past.length := by
  cases moved_of_turn t with
  | kept h => exact .inl h
  | @committed r id phase signal s' remaining hw hears hresume ha =>
    exact .inr (.inl ⟨r, id, ⟨phase, signal, s', remaining, hw, hears, hresume⟩, ha⟩)
  | @adopted r tick signal list proxies id hw hears hresults hlist ha =>
    have hconcludes : t.Concludes r (.ok list) (.ok proxies) := ⟨tick, signal, hw, hears, hresults⟩
    have hheld := (held_of_concludes h.sound hstore h.following hconcludes).2
    have hafter : t.after.snapshot.currentConfig = held past.length := by rw [ha, hheld, hlist]
    rcases h.agrees with hagrees | hunsettled
    · have hnone := isNoting_eq_false h.sound.toExclusive (mem_of_find? hears.find?)
        (by simp [hw, Work.activity?]) (by rw [hw]; rfl)
      exact .inl (hafter.trans (hagrees.held_eq hnone))
    · exact .inr (.inr ⟨hunsettled, ⟨r, _, _, hconcludes⟩, hafter⟩)

end

theorem not_unsettled {earlier later : List Turn} {v : Turn} (hv : v.Settles) (hl : ¬ v.Loosens)
    (hlater : ∀ w ∈ later, ¬ w.Loosens) : ¬ Unsettled (earlier ++ v :: later) := by
  rintro ⟨before, u, after, hsplit, hu, hafter⟩
  rcases List.append_eq_append_iff.mp hsplit with ⟨mid, rfl, hmid⟩ | ⟨mid, rfl, hmid⟩
  · have hmem : u ∈ v :: later := by
      rw [hmid]
      simp
    rcases List.mem_cons.mp hmem with rfl | hm
    · exact hl hu
    · exact hlater u hm hu
  · cases mid with
    | nil =>
      obtain ⟨rfl, -⟩ := List.cons.inj hmid
      exact hl hu
    | cons x mid =>
      obtain ⟨-, rfl⟩ := List.cons.inj hmid
      exact hafter v (by simp) hv

theorem not_loosens_of_stored {t : Turn} {n : Nat} {id : String}
    (h : t.Answers n (.store id) (.store (.ok ()))) : ¬ t.Loosens := by
  obtain ⟨slot, r, he, -, -⟩ := h
  rintro (⟨n', id', e, slot', r', he', -, -⟩ | ⟨r', slot', request, he', -, -, -⟩)
  · simp [he] at he'
  · simp [he] at he'

theorem not_commits_of_activity? {t : Turn}
    (h : ∀ r ∈ t.before.running, r.work.activity? ≠ some .switching) {r : Running} {id : String} :
    ¬ t.Commits r id := by
  rintro ⟨phase, signal, s', remaining, hw, hears, -⟩
  exact h r (mem_of_find? hears.find?) (by rw [hw]; rfl)

theorem currentConfig_of_commits {t : Turn} {r : Running} {id : String} (h : t.Commits r id) :
    t.after.snapshot.currentConfig = some id := by
  obtain ⟨phase, signal, s', remaining, hw, hears, hresume⟩ := h
  rw [Turn.after, step_of_hears hears]
  unfold resume
  simp only [hw, hresume, proceed, finish, currentConfig_drop]
  exact Switch.currentConfig_of_done hresume

section

variable {timings : Timings} {held : Nat → Option String} {currentConfig : Option String}
  {es : List Event} {past rest : List Turn} {t : Turn}

theorem stored_before (h : held 0 = currentConfig)
    (hstore : StoreRun held ((initial timings currentConfig).turns es))
    (hsplit : (initial timings currentConfig).turns es = past ++ t :: rest) :
    t.before.Stored timings held past := by
  obtain ⟨es₁, -, rfl, hbefore, -, -⟩ := before_of_turns hsplit
  rw [hsplit] at hstore
  exact hbefore ▸ stored_run h hstore.left

/-- A switch whose note the store has not refused stays committed while nothing loosens the store and
no other switch commits. -/
theorem stays_committed (h : held 0 = currentConfig)
    (hstore : StoreRun held ((initial timings currentConfig).turns es))
    (hsplit : (initial timings currentConfig).turns es = past ++ t :: rest) {r : Running} {id : String}
    (hc : t.Commits r id) (hnoted : ∀ u ∈ past, ∀ e, ¬ u.Answers r.id (.store id) (.store (.error e)))
    (hrest : ∀ u ∈ rest, ¬ u.Loosens ∧ ∀ r' id', ¬ u.Commits r' id') :
    ((initial timings currentConfig).run es).1.snapshot.currentConfig = some id := by
  induction rest using List.reverseRecOn generalizing es with
  | nil =>
    obtain ⟨-, es₂, -, -, hnil, hrun⟩ := before_of_turns hsplit
    cases es₂ with
    | nil => exact hrun ▸ currentConfig_of_commits hc
    | cons => cases hnil
  | append_singleton rest u ih =>
    have hsplit' : (initial timings currentConfig).turns es = (past ++ t :: rest) ++ u :: [] := by
      simp [hsplit]
    obtain ⟨es₁, es₂, hpast, hbefore, hnil, hrun⟩ := before_of_turns hsplit'
    obtain rfl : es₂ = [] := by
      cases es₂ with
      | nil => rfl
      | cons => cases hnil
    have hstored := stored_before h hstore hsplit
    have hid : u.before.snapshot.currentConfig = some id := by
      rw [hbefore]
      refine ih ?_ hpast.symm fun v hv => hrest v (List.mem_append_left _ hv)
      rw [hsplit', hpast] at hstore
      exact hstore.left
    rw [hrun]
    change u.after.snapshot.currentConfig = some id
    rcases (stored_before h hstore hsplit').moves (hstore _ _ _ hsplit') with hkept | hmoved | hloose
    · exact hkept.trans hid
    · obtain ⟨r', id', hcommits, -⟩ := hmoved
      exact absurd hcommits ((hrest u (by simp)).2 r' id')
    · -- the store has taken the note of the switch, and nothing has loosened it since
      obtain ⟨hl, p, v, q, rfl, ⟨result, hanswer⟩, hq⟩ :=
        noted_of_commits hstored.sound hstored.noted hc
      cases result with
      | error e => exact absurd hanswer (hnoted v (by simp) e)
      | ok =>
        refine absurd hloose.1 ?_
        rw [List.append_assoc]
        refine not_unsettled (.inl ⟨_, _, hanswer⟩) (not_loosens_of_stored hanswer) ?_
        intro w hw
        rcases List.mem_append.mp hw with hw | hw
        · exact hq w hw
        · rcases List.mem_cons.mp hw with rfl | hw
          · exact hl
          · exact (hrest w (by simp [hw])).1

end

/-- Beside a store that begins with the profile that is current, and to which nobody but the
controller writes, a reconciliation changes that profile only if the last that was heard of the store
is not good, and then to what the store holds. A switch whose note was not refused stays committed
until another one commits, has its note refused, or breaks down after it was begun. -/
theorem no_rollback (timings : Timings) (currentConfig : Option String) (held : Nat → Option String)
    (es : List Event) (h : held 0 = currentConfig)
    (hstore : StoreRun held ((initial timings currentConfig).turns es)) :
    let c := initial timings currentConfig
    (∀ past t rest, c.turns es = past ++ t :: rest →
      t.after.snapshot.currentConfig = t.before.snapshot.currentConfig ∨
        (∃ r id, t.Commits r id ∧ t.after.snapshot.currentConfig = some id) ∨
        Unsettled past ∧ (∃ r list proxies, t.Concludes r (.ok list) (.ok proxies)) ∧
          t.after.snapshot.currentConfig = held past.length) ∧
      ∀ past t rest r id, c.turns es = past ++ t :: rest → t.Commits r id →
        (∀ u ∈ past, ∀ e, ¬ u.Answers r.id (.store id) (.store (.error e))) →
        (∀ u ∈ rest, ¬ u.Loosens ∧ ∀ r' id', ¬ u.Commits r' id') →
          (c.run es).1.snapshot.currentConfig = some id := by
  intro c
  refine ⟨?_, ?_⟩
  · intro past t rest hsplit
    exact (stored_before h hstore hsplit).moves (hstore _ _ _ hsplit)
  · intro past t rest r id hsplit hc hnoted hrest
    exact stays_committed h hstore hsplit hc hnoted hrest

def notedSwitch (id : String) (note : Except Error Unit) : List Event :=
  [.call (.switch id), .answer 0 0 (.status (.error .notConfigured)), .answer 0 0 (.switch (.ok ())),
    .pass 3000, .wake (.work 0), .answer 0 1 (.version (.ok ⟨"1", false⟩)),
    .answer 0 0 (.status (.error .notConfigured)), .answer 0 0 (.store note),
    .answer 0 0 (.list (.error .notConfigured)), .answer 0 1 (.proxies (.error .notConfigured)),
    .answer 0 2 (.config (.error .notConfigured))]

def reconciliation (held : String) : List Event :=
  [.call .reconcile, .answer 1 0 (.list (.ok ⟨some held, []⟩)), .answer 1 1 (.proxies (.ok default))]

def ghostRun : List Event :=
  notedSwitch "ghost" (.error (.notFound "配置档案 ghost")) ++ reconciliation "a"

def takenRun : List Event := notedSwitch "b" (.ok ()) ++ reconciliation "b"

/-- What a store holds that takes the note of the second run. -/
def takenHeld (k : Nat) : Option String := if k ≤ 7 then some "a" else some "b"

theorem storeRun_ghost :
    StoreRun (fun _ => some "a") ((initial .standard (some "a")).turns ghostRun) := by
  intro past t rest hsplit
  have ht : t.event ∈ ghostRun := event_mem_of_turns (by rw [hsplit]; simp)
  refine ⟨.inl rfl, ?_, ?_⟩
  · rintro n id ⟨slot, r, he, -, -⟩
    simp [he, ghostRun, notedSwitch, reconciliation] at ht
  · rintro n list ⟨slot, r, he, -, -⟩
    obtain ⟨-, -, rfl⟩ : n = 1 ∧ slot = 0 ∧ list = ⟨some "a", []⟩ := by
      simpa [he, ghostRun, notedSwitch, reconciliation] using ht
    refine ⟨past.length, Nat.le_refl _, ?_, rfl⟩
    intro earlier u later hpast _
    rw [hpast, List.length_append, List.length_cons]
    omega

theorem ghost_is_rolled_back :
    let c := ((initial .standard (some "a")).run
      (notedSwitch "ghost" (.error (.notFound "配置档案 ghost")))).1
    StoreRun (fun _ => some "a") ((initial .standard (some "a")).turns ghostRun) ∧
      c.snapshot.currentConfig = some "ghost" ∧
      (∀ t ∈ c.turns (reconciliation "a"), ∀ r id, ¬ t.Commits r id) ∧
      (c.run (reconciliation "a")).1.snapshot.currentConfig = some "a" := by
  intro c
  have hwork : ∀ t ∈ c.turns (reconciliation "a"), ∀ r ∈ t.before.running,
      r.work.activity? ≠ some .switching := by decide +kernel
  have hbefore : c.snapshot.currentConfig = some "ghost" := by decide +kernel
  have hafter : (c.run (reconciliation "a")).1.snapshot.currentConfig = some "a" := by decide +kernel
  clear_value c
  refine ⟨storeRun_ghost, hbefore, ?_, hafter⟩
  intro t ht r id hc
  exact not_commits_of_activity? (hwork t ht) hc

theorem storeRun_taken : StoreRun takenHeld ((initial .standard (some "a")).turns takenRun) := by
  intro past t rest hsplit
  have hevents : takenRun = past.map Turn.event ++ t.event :: rest.map Turn.event := by
    rw [← turns_event (initial .standard (some "a")) takenRun, hsplit]
    simp
  have hevent : takenRun[past.length]? = some t.event := by simp [hevents]
  have hnoting : ∀ u ∈ ((initial .standard (some "a")).turns takenRun)[7]?, u.before.running ≠ [] ∧
      ∀ r ∈ u.before.running, r.work.awaits = [(0, .store "b")] := by decide +kernel
  refine ⟨?_, ?_, ?_⟩
  · by_cases h7 : past.length = 7
    · obtain ⟨hne, hawaits⟩ := hnoting t (by simp [hsplit, ← h7])
      obtain ⟨r, hr⟩ := List.exists_mem_of_ne_nil _ hne
      exact .inr ⟨"b", ⟨r, .inl hr, by simp [hawaits r hr]⟩, by simp [takenHeld, h7]⟩
    · refine .inl ?_
      unfold takenHeld
      grind
  · rintro n id ⟨slot, r, he, hfind, ha⟩
    have h7 : past.length = 7 := by
      obtain ⟨hlt, -⟩ := List.getElem?_eq_some_iff.mp hevent
      change past.length < 14 at hlt
      rw [he] at hevent
      interval_cases past.length <;> simp [takenRun, notedSwitch, reconciliation] at hevent ⊢
    have hawaits := (hnoting t (by simp [hsplit, ← h7])).2 r (mem_of_find? hfind)
    obtain ⟨-, rfl⟩ : slot = 0 ∧ id = "b" := by simpa [hawaits] using ha
    simp [takenHeld, h7]
  · rintro n list ⟨slot, r, he, -, -⟩
    obtain ⟨-, -, rfl⟩ : n = 1 ∧ slot = 0 ∧ list = ⟨some "b", []⟩ := by
      simpa [he, takenRun, notedSwitch, reconciliation] using List.mem_of_getElem? hevent
    have hlate : 7 < past.length := by
      by_contra hle
      rw [he] at hevent
      interval_cases past.length <;> simp [takenRun, notedSwitch, reconciliation] at hevent
    refine ⟨past.length, Nat.le_refl _, ?_, ?_⟩
    · intro earlier u later hpast _
      rw [hpast, List.length_append, List.length_cons]
      omega
    · rw [takenHeld, if_neg (Nat.not_le.mpr hlate)]

theorem no_rollback_of_taken :
    let c := initial .standard (some "a")
    StoreRun takenHeld (c.turns takenRun) ∧
      (∃ past t rest r, c.turns takenRun = past ++ t :: rest ∧ t.Commits r "b" ∧
        ∀ u ∈ rest, ¬ u.Loosens ∧ ∀ r' id', ¬ u.Commits r' id') ∧
      (c.run takenRun).1.snapshot.currentConfig = some "b" := by
  intro c
  obtain ⟨hmoves, hstays⟩ := no_rollback .standard (some "a") takenHeld takenRun rfl storeRun_taken
  have hcommit : ∀ u ∈ (c.turns takenRun)[10]?, u.before.snapshot.currentConfig = some "a" ∧
      u.after.snapshot.currentConfig = some "b" ∧
      ∀ r ∈ u.before.running, r.work.activity? = some .switching := by decide +kernel
  have hlt : 10 < (c.turns takenRun).length := by decide +kernel
  obtain ⟨hbefore, hafter, hworking⟩ := hcommit _ (List.getElem?_eq_getElem hlt)
  have hsplit := (List.take_append_drop 10 (c.turns takenRun)).symm
  rw [List.drop_eq_getElem_cons hlt] at hsplit
  generalize (c.turns takenRun)[10] = t at hbefore hafter hworking hsplit
  have hquiet : ∀ u ∈ (c.turns takenRun).drop 11, ∀ r ∈ u.before.running,
      r.work.activity? ≠ some .switching := by decide +kernel
  have hheard : ∀ u ∈ c.turns takenRun, ∀ n slot e,
      u.event ≠ .answer n slot (.store (.error e)) ∧ u.event ≠ .answer n slot .collapsed := by
    intro u hu n slot e
    have hmem := event_mem_of_turns hu
    constructor <;> intro he <;> simp [he, takenRun, notedSwitch, reconciliation] at hmem
  have hrest : ∀ u ∈ (c.turns takenRun).drop 11, ¬ u.Loosens ∧ ∀ r' id', ¬ u.Commits r' id' := by
    intro u hu
    refine ⟨?_, fun r' id' => not_commits_of_activity? (hquiet u hu)⟩
    rintro (⟨n, -, e, slot, -, he, -⟩ | ⟨r', slot, -, he, -⟩)
    · exact (hheard u (List.mem_of_mem_drop hu) n slot e).1 he
    · exact (hheard u (List.mem_of_mem_drop hu) r'.id slot default).2 he
  -- the eleventh turn changes the profile, and not for a reconciliation, so it commits the switch
  rcases hmoves _ _ _ hsplit with
    hkept | ⟨r, id, hcommits, hid⟩ | ⟨-, ⟨r, _, _, tick, _, hw, hears, -⟩, -⟩
  · simp [hbefore, hafter] at hkept
  · obtain rfl := Option.some.inj (hafter.symm.trans hid)
    refine ⟨storeRun_taken, ⟨_, _, _, r, hsplit, hcommits, hrest⟩, ?_⟩
    refine hstays _ _ _ r "b" hsplit hcommits ?_ hrest
    rintro u hu e ⟨slot, -, he, -⟩
    exact (hheard u (List.mem_of_mem_take hu) r.id slot e).1 he
  · have hswitching := hworking r (mem_of_find? hears.find?)
    simp [hw, Work.activity?] at hswitching

end Controller
end CoreWarden
