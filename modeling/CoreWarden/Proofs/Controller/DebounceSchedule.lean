import CoreWarden.Proofs.Controller.Guise
import CoreWarden.Proofs.Controller.RefreshCourse
import CoreWarden.Proofs.Controller.TickDecision

/-!
The schedule of the debounced refresh. A reconciliation that detects a change arms it; it acts when the
pause since then is over, not before and not after, and once for the last such reconciliation. Time does
not pass the moment that it waits for.
-/
namespace CoreWarden

open Controller (Hears)
open Time (pauseEnd)

namespace Turn

def Undisturbed (t : Turn) : Prop := (∀ n, ¬ t.Detects n) ∧ t.event ≠ .shutdown

/-- All that the debounced refresh does when it begins. -/
structure BeginsRefresh (t : Turn) : Prop where
  snapshot : t.after.snapshot = t.before.snapshot.withActivity .reconciling
  cache : ∀ key, t.after.cache.find? key = (t.before.cache.find? key).map CacheEntry.marked
  running : ∃ refresh, t.after.running =
    t.before.running ++ [⟨t.before.nextId, .debounce, .refresh refresh⟩]
  outputs : t.outputs = [.ask t.before.nextId 0 .list, .ask t.before.nextId 1 .proxies,
    .ask t.before.nextId 2 .config]

variable {timings : Timings} {t : Turn}

theorem beginsRefresh_of_launches {n : Nat} (h : t.Launches n) : t.BeginsRefresh := by
  have hstep := step_of_launches h
  have hafter := congrArg Prod.fst hstep
  refine ⟨?_, fun key => ?_, ⟨_, congrArg Controller.running hafter⟩, ?_⟩
  · exact congrArg Controller.snapshot hafter
  · have hcache : t.after.cache = _ := congrArg Controller.cache hafter
    rw [hcache]
    exact Cache.find?_startRefresh _ key
  · rw [outputs, hstep]
    rfl

theorem step_of_fires_busy (h : t.Fires) (hbusy : t.before.state.activity ≠ .idle) :
    t.before.step t.event = ({ t.before.later with debounce := .empty }, []) := by
  have henter : { t.before.later with debounce := .empty }.state.enter .reconciling = _ :=
    SyncState.enter_of_ne_idle _ _ hbusy
  rw [step_of_fires h]
  unfold Controller.startDebounced
  dsimp only
  rw [henter]

/-! ### What a turn makes of the slot -/

theorem debounce_of_fires (h : t.Fires) : t.after.debounce = .empty := by
  by_cases hidle : t.before.state.activity = .idle
  · rw [after, step_of_launches ⟨h, hidle, rfl⟩]
    rfl
  · rw [after, step_of_fires_busy h hidle]

theorem debounce_of_shutdown (h : t.event = .shutdown) : t.after.debounce = .empty := by
  rw [after, h]
  rfl

theorem debounce_of_undisturbed (h : t.Undisturbed) (hfires : ¬ t.Fires) :
    t.after.debounce = t.before.debounce := by
  by_cases hw : t.event = .wake .debounce
  · rw [step_of_not_fires hw hfires]
    rfl
  · exact debounce_eq h.2 hw h.1

theorem due?_of_detects (hs : t.before.Sound timings) {n : Nat} (h : t.Detects n) :
    t.after.debounce.due? = some (pauseEnd t.now timings.invalidateDebounce.toNat) := by
  obtain ⟨r, profiles, proxies, hconcludes, -, hchange⟩ := h
  have hslot := congrArg Lasting.debounce (lasting_of_concludes hconcludes)
  rw [Controller.lasting_conclude] at hslot
  have harmed : t.after.debounce = t.before.debounce.replace t.now
      t.before.shared.timings.invalidateDebounce.toNat () := hslot.trans (if_pos hchange)
  rw [harmed, hs.timings_eq]
  rfl

theorem due?_before_or_detects (hs : t.before.Sound timings) {due : Nat}
    (h : t.after.debounce.due? = some due) :
    ((∃ n, t.Detects n) ∧ pauseEnd t.now timings.invalidateDebounce.toNat = due) ∨
      t.Undisturbed ∧ ¬ t.Fires ∧ t.before.debounce.due? = some due := by
  by_cases hdetects : ∃ n, t.Detects n
  · obtain ⟨n, hdetects⟩ := hdetects
    exact .inl ⟨⟨n, hdetects⟩, Option.some.inj ((due?_of_detects hs hdetects).symm.trans h)⟩
  by_cases hshut : t.event = .shutdown
  · rw [debounce_of_shutdown hshut] at h
    cases h
  by_cases hfires : t.Fires
  · rw [debounce_of_fires hfires] at h
    cases h
  have hquiet : t.Undisturbed := ⟨not_exists.mp hdetects, hshut⟩
  exact .inr ⟨hquiet, hfires, debounce_of_undisturbed hquiet hfires ▸ h⟩

theorem now_le_debounce {due : Nat} (hd : t.before.debounce.due? = some due) (hn : t.now ≤ due) :
    t.after.now ≤ due := by
  refine Controller.now_le_of_dues (List.mem_filterMap.mpr ⟨.debounce, ?_, hd⟩) hn
  simp [Controller.timers]

theorem now_of_detects {n : Nat} (h : t.Detects n) : t.after.now = t.now := by
  obtain ⟨r, profiles, proxies, hconcludes, -, -⟩ := h
  obtain ⟨tick, signal, -, hears, -⟩ := hconcludes
  exact now_of_hears hears

end Turn

/-- What has become by now of a refresh armed for some moment, if nothing else has meddled with it. -/
inductive AlarmCourse (due : Nat) (later : List Turn) (c : Controller) : Prop
  | waits (hquiet : ∀ v ∈ later, ¬ v.Fires) (hd : c.debounce.due? = some due) (hn : c.now ≤ due)
  | acted (h : ∃ l₁ v l₂, later = l₁ ++ v :: l₂ ∧ v.Fires ∧ v.now = due ∧ ∀ w ∈ l₁ ++ l₂, ¬ w.Fires)
      (hd : c.debounce.due? = none)

namespace Controller

variable {timings : Timings} {past later : List Turn} {t : Turn} {due : Nat}

/-- The debounced refresh that waits was armed by the last reconciliation that has detected a change,
which no end of periodic work has followed, and for the end of the pause after it. -/
def Scheduled (delay : Nat) (past : List Turn) (c : Controller) : Prop :=
  ∀ due, c.debounce.due? = some due → c.now ≤ due ∧
    Since (fun _ u => (∃ n, u.Detects n) ∧ pauseEnd u.now delay = due)
      (fun v => v.Undisturbed ∧ ¬ v.Fires) past

theorem scheduled_turn (hs : t.before.Sound timings)
    (h : t.before.Scheduled timings.invalidateDebounce.toNat past) :
    t.after.Scheduled timings.invalidateDebounce.toNat (past ++ [t]) := by
  intro due hd
  rcases Turn.due?_before_or_detects hs hd with ⟨⟨n, hdetects⟩, rfl⟩ | ⟨hquiet, hfires, hbefore⟩
  · refine ⟨?_, Since.last ⟨⟨n, hdetects⟩, rfl⟩⟩
    rw [Turn.now_of_detects hdetects]
    exact Time.le_pauseEnd _ _
  · obtain ⟨hn, hsince⟩ := h due hbefore
    exact ⟨Turn.now_le_debounce hbefore hn, hsince.snoc ⟨hquiet, hfires⟩⟩

theorem scheduled_run (timings : Timings) (currentConfig : Option String) (es : List Event) :
    let c := initial timings currentConfig
    (c.run es).1.Scheduled timings.invalidateDebounce.toNat (c.turns es) := by
  intro c
  have hrun := turns_induction
    (P := fun past c' => c'.Sound timings ∧ c'.Scheduled timings.invalidateDebounce.toNat past) (c := c)
    ⟨sound_initial timings currentConfig, fun due hd => by cases hd⟩
    (fun past t h => ⟨h.1.step t.event, scheduled_turn h.1 h.2⟩) es
  exact hrun.2

theorem alarmCourse_turn (h : AlarmCourse due later t.before) (hquiet : t.Undisturbed) :
    AlarmCourse due (later ++ [t]) t.after := by
  cases h with
  | waits hnone hd hn =>
    by_cases hfires : t.Fires
    · have hnow : t.now = due := by
        obtain ⟨-, due', hd', hle⟩ := hfires
        obtain rfl := Option.some.inj (hd.symm.trans hd')
        exact Nat.le_antisymm hn hle
      refine .acted ⟨later, t, [], rfl, hfires, hnow, by simpa using hnone⟩ ?_
      rw [Turn.debounce_of_fires hfires]
      rfl
    · refine .waits ?_ (Turn.debounce_of_undisturbed hquiet hfires ▸ hd) (Turn.now_le_debounce hd hn)
      exact List.forall_mem_append.mpr ⟨hnone, by simpa using hfires⟩
  | acted hacted hd =>
    have hfires : ¬ t.Fires := by
      rintro ⟨-, due', hd', -⟩
      cases hd.symm.trans hd'
    obtain ⟨l₁, v, l₂, rfl, hv, hnow, hothers⟩ := hacted
    refine .acted ⟨l₁, v, l₂ ++ [t], by simp, hv, hnow, ?_⟩
      (Turn.debounce_of_undisturbed hquiet hfires ▸ hd)
    rw [← List.append_assoc]
    exact List.forall_mem_append.mpr ⟨hothers, by simpa using hfires⟩

theorem alarmCourse_run {c : Controller} (hd : c.debounce.due? = some due) (hn : c.now ≤ due)
    (es : List Event) (h : ∀ v ∈ c.turns es, v.Undisturbed) :
    AlarmCourse due (c.turns es) (c.run es).1 := by
  refine turns_induction (P := fun later c' => (∀ v ∈ later, v.Undisturbed) → AlarmCourse due later c')
    (c := c) (fun _ => .waits (by simp) hd hn) ?_ es h
  intro later t ih hquiet
  obtain ⟨hlater, ht⟩ := List.forall_mem_append.mp hquiet
  exact alarmCourse_turn (ih hlater) (ht t (List.mem_singleton.mpr rfl))

/-- In every run: the debounced refresh acts when the pause since a reconciliation that has detected a
change is over, if none has done so since and periodic work has not ended; and after each such
reconciliation it acts at that moment, once. If nothing is going on, it then takes the activity, marks
every entry stale and asks for the data of each key once, and otherwise it does nothing. Once begun, it
holds the activity until each of the fetches is answered, unless periodic work ends or a fetch breaks
down; no reconciliation ends while it does. -/
theorem debounced_refresh_keeps_schedule (timings : Timings) (currentConfig : Option String)
    (es : List Event) (e : Event) :
    let c := initial timings currentConfig
    let past := c.turns es
    let t : Turn := ⟨(c.run es).1, e⟩
    let due (u : Turn) := pauseEnd u.now timings.invalidateDebounce.toNat
    (t.Fires →
      Since (fun _ u => (∃ n, u.Detects n) ∧ due u = t.now) (fun v => v.Undisturbed ∧ ¬ v.Fires) past ∧
      if t.before.snapshot.activity = .idle then t.BeginsRefresh
        else t.before.step e = ({ t.before.later with debounce := .empty }, [])) ∧
    (∀ earlier u later, past = earlier ++ u :: later → (∃ n, u.Detects n) →
      (∀ v ∈ later, v.Undisturbed) → AlarmCourse (due u) later t.before) ∧
    ∀ r ∈ t.before.running, ∀ refresh, r.work = .refresh refresh →
      Refreshing past r refresh ∧ t.before.snapshot.activity = .reconciling ∧
      (∀ r' profiles proxies, ¬ t.Concludes r' profiles proxies) ∧ t.RefreshTurn r refresh ∧
      ((∀ r' ∈ t.after.running, r'.id ≠ r.id) → t.after.snapshot.activity = .idle) := by
  intro c past t due
  have hs : t.before.Sound timings := (sound_initial timings currentConfig).run es
  refine ⟨fun hfires => ⟨?_, ?_⟩, ?_, ?_⟩
  · obtain ⟨-, moment, hd, hle⟩ := hfires
    obtain ⟨hn, hsince⟩ := scheduled_run timings currentConfig es moment hd
    obtain rfl : moment = t.now := Nat.le_antisymm hle hn
    exact hsince
  · split
    · next hidle => exact Turn.beginsRefresh_of_launches ⟨hfires, hidle, rfl⟩
    · next hbusy => exact Turn.step_of_fires_busy hfires hbusy
  · intro earlier u later hpast hdetects hquiet
    obtain ⟨n, hdetects⟩ := hdetects
    obtain ⟨es₁, es₂, -, hbefore, rfl, hrun⟩ := before_of_turns hpast
    have hs' : u.before.Sound timings := hbefore ▸ (sound_initial timings currentConfig).run es₁
    have hcourse := alarmCourse_run (Turn.due?_of_detects hs' hdetects)
      (Turn.now_of_detects hdetects ▸ Time.le_pauseEnd _ _) es₂ hquiet
    rw [← hrun] at hcourse
    exact hcourse
  · intro r hr refresh hw
    have hrefreshing := allRefreshing_run timings currentConfig es r hr refresh hw
    have ha : r.work.activity? = some .reconciling := by rw [hw]; rfl
    refine ⟨hrefreshing, hs.activity_of_mem hr ha, ?_, ?_, ?_⟩
    · rintro r' profiles proxies ⟨tick, signal, hw', hears, -⟩
      have hsame := hs.eq_of_activity? hr (mem_of_find? hears.find?) (by simp [ha])
        (by simp [hw', Work.activity?])
      rw [← hsame, hw] at hw'
      cases hw'
    · exact Turn.refreshTurn hs hr hw hrefreshing.origin hrefreshing.nodup hrefreshing.lacks
    · exact idle_of_gone hs hr (by simp [ha])

def failedTick : List Event := failedFetch ++ [lastFetch, .pass 500]

def firstAnswer : List Event :=
  failedTick ++ [.wake .debounce, .answer 1 0 (.list (.error .notConfigured))]

def oneFailed : Refresh :=
  ⟨[(.profiles, some (.error .notConfigured)), (.proxies, none), (.clashConfig, none)]⟩

/-- The refresh begins when the pause is over, and waits for the other fetches after the first one. -/
theorem failed_tick_is_followed_by_refresh :
    let c := initial Timings.standard (some "a")
    let r : Running := ⟨1, .debounce, .refresh oneFailed⟩
    let left : Turn := ⟨(c.run firstAnswer).1, .abandon 1⟩
    (r ∈ left.before.running ∧ Refreshing (c.turns firstAnswer) r oneFailed ∧
      left.RefreshTurn r oneFailed) ∧
    let tick : Turn := ⟨(c.run failedFetch).1, lastFetch⟩
    let pause : Turn := ⟨tick.after, .pass 500⟩
    let begun : Turn := ⟨(c.run failedTick).1, .wake .debounce⟩
    tick.Detects 0 ∧ AlarmCourse 500 [pause] begun.before ∧ begun.Fires ∧ begun.BeginsRefresh := by
  have hr : ((initial Timings.standard (some "a")).run firstAnswer).1.find? 1 =
      some ⟨1, .debounce, .refresh oneFailed⟩ := rfl
  have hmem := mem_of_find? hr
  obtain ⟨-, -, hunderway⟩ := debounced_refresh_keeps_schedule Timings.standard (some "a") firstAnswer
    (.abandon 1)
  obtain ⟨hrefreshing, -, -, hturn, -⟩ := hunderway _ hmem oneFailed rfl
  refine ⟨⟨hmem, hrefreshing, hturn⟩, ?_⟩
  intro tick pause begun
  have hfires : begun.Fires := ⟨rfl, 500, by decide +kernel, by decide +kernel⟩
  have hpause : pause.Undisturbed := by
    refine ⟨?_, by simp [pause]⟩
    rintro n ⟨r, profiles, proxies, hconcludes, -⟩
    obtain ⟨slot, reply, he⟩ := hconcludes.event
    cases he
  have hidle : begun.before.snapshot.activity = .idle := by decide +kernel
  have hnow : pauseEnd tick.now Timings.standard.invalidateDebounce.toNat = 500 := by decide +kernel
  obtain ⟨hacts, hcourse, -⟩ := debounced_refresh_keeps_schedule Timings.standard (some "a") failedTick
    (.wake .debounce)
  have harmed := hcourse _ tick [pause] (turns_append ..) ⟨0, detects_lastFetch⟩ (by simpa using hpause)
  have hbegins := (hacts hfires).2
  rw [if_pos hidle] at hbegins
  exact ⟨detects_lastFetch, hnow ▸ harmed, hfires, hbegins⟩

def lateRefresh : Timings := { invalidateDebounce := 1000000000000 }

/-- The refresh begins after thirty years, although no reconciliation has come to its end as long ago as
the pause is to last. -/
theorem overlong_debounce_is_cut_short :
    let c := initial lateRefresh (some "a")
    let es := failedFetch ++ [lastFetch, .pass 1000000000000]
    let t : Turn := ⟨(c.run es).1, .wake .debounce⟩
    t.Fires ∧ t.BeginsRefresh ∧ ∀ u ∈ c.turns es, u.now + lateRefresh.invalidateDebounce.toNat ≠ t.now := by
  intro c es t
  have hfires : t.Fires := ⟨rfl, Time.longestPause, by decide +kernel, by decide +kernel⟩
  have hidle : t.before.state.activity = .idle := by decide +kernel
  have hnow : t.now = Time.longestPause := by decide +kernel
  have hlt : Time.longestPause < lateRefresh.invalidateDebounce.toNat := by decide +kernel
  exact ⟨hfires, Turn.beginsRefresh_of_launches ⟨hfires, hidle, rfl⟩, fun u _ => by omega⟩

end Controller
end CoreWarden
