import CoreWarden.Proofs.Controller.Failure

/-!
How workflows renew the cache. A workflow that succeeds has refreshed all keys under its own number; it
does not come to that when it fails or when a collaborator breaks down.
-/
namespace CoreWarden

open Controller (Hears Opening Aside)

/-- How far work is with the refresh of the cache. -/
inductive Stage where
  | before
  | renewing (refresh : Refresh)
  | renewed
  /-- The failure is recorded, and there will be no refresh. -/
  | failed

def Switch.stage : Switch → Stage
  | refreshing _ refresh => .renewing refresh
  | reporting _ => .failed
  | _ => .before

def Reload.stage : Reload → Stage
  | refreshing refresh => .renewing refresh
  | _ => .before

def Recovery.stage : Recovery → Stage
  | reloading reload => reload.stage
  | refreshing refresh => .renewing refresh
  | rechecking => .renewed
  | checking => .before

def Work.stage : Work → Stage
  | switch _ phase => phase.stage
  | reload phase => phase.stage
  | recover _ phase => phase.stage
  | refresh r => .renewing r
  | check | reconcile _ | refetch _ => .before

namespace Stage

/-- Whether a signal answers the last fetch of a refresh. -/
def renews (s : Shared) (signal : Signal) : Stage → Bool
  | renewing refresh => (s.resumeRefresh refresh signal).1.isDone
  | _ => false

/-- Where a signal leads that lets work go on, and what is asked then. -/
inductive Leads (s : Shared) (signal : Signal) (failure : Option Error) :
    Stage → Stage → List (Nat × Request) → Prop
  | same (stage asks) : Leads s signal failure stage stage asks
  | begins (cache : Cache) : Leads s signal failure before
      (renewing (Refresh.start true CacheKey.all cache).1) (Refresh.start true CacheKey.all cache).1.asks
  | goesOn (refresh refresh' asks) : Leads s signal failure (renewing refresh) (renewing refresh') asks
  | completes {refresh asks} (h : (renewing refresh).renews s signal = true) :
      Leads s signal failure (renewing refresh) renewed asks
  | fails {asks} (h : failure.isSome = true) : Leads s signal failure before failed asks

/-- Where work stands that ends with a signal. -/
inductive Ends (s : Shared) (signal : Signal) (failure : Option Error) : Stage → Prop
  | completes {refresh} (h : (renewing refresh).renews s signal = true) :
      Ends s signal failure (renewing refresh)
  | renewed : Ends s signal failure renewed
  | failed : Ends s signal failure failed
  | fails {stage} (h : failure.isSome = true) : Ends s signal failure stage

end Stage

/-! ### Each workflow -/

theorem Shared.startRefresh_fst {s t : Shared} {refresh : Refresh} (h : s.startRefresh = (refresh, t)) :
    refresh = (Refresh.start true CacheKey.all s.cache).1 :=
  (congrArg Prod.fst h).symm

theorem Stage.renews_of_done {s t : Shared} {refresh refresh' : Refresh} {signal : Signal}
    (h : s.resumeRefresh refresh signal = (refresh', t)) (hd : refresh'.isDone = true) :
    (renewing refresh).renews s signal = true := by
  rw [renews, h]
  exact hd

namespace Reload

variable {s s' : Shared} {phase phase' : Reload} {signal : Signal} {asks : List (Nat × Request)}

theorem renews_of_done (h : resume s phase signal = (s', .done (.ok ()))) :
    ∃ refresh, phase = .refreshing refresh ∧ (Stage.renewing refresh).renews s signal = true := by
  have hprobed : ∀ progress, (probed s progress).2 ≠ .done (.ok ()) := by
    intro progress
    fun_cases probed s progress <;> simp
  revert h
  fun_cases resume s phase signal <;> intro h
  case case3 | case4 => exact absurd (congrArg Prod.snd h) (hprobed _)
  case case5 refresh refresh' t hr =>
    unfold refreshed at h
    split at h
    · next hd => exact ⟨refresh, rfl, Stage.renews_of_done hr hd⟩
    · cases h
  all_goals cases h

theorem leads_probed {failure : Option Error} {progress : Progress Probe (Except Error Unit)}
    (h : probed s progress = (s', .waiting phase asks)) :
    Stage.Leads s signal failure .before phase.stage asks := by
  revert h
  fun_cases probed s progress <;> intro h <;> cases h
  case case1 => exact .same _ _
  case case3 refresh hr =>
    obtain rfl := Shared.startRefresh_fst hr
    exact .begins _

theorem leads {failure : Option Error} (h : resume s phase signal = (s', .waiting phase' asks)) :
    Stage.Leads s signal failure phase.stage phase'.stage asks := by
  revert h
  fun_cases resume s phase signal <;> intro h
  case case3 | case4 => exact leads_probed h
  case case5 refresh refresh' t hr =>
    unfold refreshed at h
    split at h <;> cases h
    exact .goesOn _ _ _
  all_goals cases h
  all_goals exact .same _ _

end Reload

namespace Recovery

variable {s s' : Shared} {attempt : UInt32} {phase phase' : Recovery} {signal : Signal}

theorem leads {failure : Option Error} {asks : List (Nat × Request)}
    (h : resume s attempt phase signal = (s', .waiting phase' asks)) :
    Stage.Leads s signal failure phase.stage phase'.stage asks := by
  revert h
  fun_cases resume s attempt phase signal <;> intro h
  case case2 result report t _ _ refresh t' hr =>
    cases h
    obtain rfl := Shared.startRefresh_fst hr
    exact .begins _
  case case3 reload =>
    generalize hr : reload.resume s signal = step at h
    fun_cases reloaded step <;> cases h
    · exact Reload.leads hr
    · obtain ⟨refresh, rfl, hrenews⟩ := Reload.renews_of_done hr
      exact .completes hrenews
  case case5 refresh refresh' t hr =>
    unfold refreshed at h
    split at h <;> cases h
    exact .goesOn _ _ _
  all_goals cases h
  all_goals exact .same _ _

theorem ends {result : Except Error RecoveryOutcome}
    (h : resume s attempt phase signal = (s', .done result)) :
    Stage.Ends s signal (resume s attempt phase signal).2.error? phase.stage := by
  cases result with
  | error e => exact .fails (by simp [h, Progress.error?])
  | ok outcome =>
    revert h
    fun_cases resume s attempt phase signal <;> intro h
    case case3 reload =>
      generalize hr : reload.resume s signal = step at h
      fun_cases reloaded step <;> cases h
    case case4 => exact .renewed
    case case5 refresh refresh' t hr =>
      unfold refreshed at h
      split at h
      · next hd => exact .completes (Stage.renews_of_done hr hd)
      · cases h
    all_goals cases h

end Recovery

namespace Switch

variable {s s' : Shared} {id : String} {phase phase' : Switch} {signal : Signal}

theorem leads_probed {progress : Progress Probe (Except Error Unit)} {asks : List (Nat × Request)}
    (h : probed s id progress = (s', .waiting phase asks)) :
    Stage.Leads s signal (failure? (probed s id progress).2) .before phase.stage asks := by
  revert h
  fun_cases probed s id progress <;> intro h <;> cases h
  case case2 => exact .fails rfl
  all_goals exact .same _ _

theorem leads {asks : List (Nat × Request)}
    (h : resume s id phase signal = (s', .waiting phase' asks)) :
    Stage.Leads s signal (failure? (resume s id phase signal).2) phase.stage phase'.stage asks := by
  revert h
  fun_cases resume s id phase signal <;> intro h
  case case7 =>
    cases h
    exact .fails rfl
  case case8 | case9 => exact leads_probed h
  case case11 remaining result refresh t hr =>
    cases h
    obtain rfl := Shared.startRefresh_fst hr
    exact .begins _
  case case12 remaining refresh refresh' t hr =>
    unfold refreshed at h
    split at h <;> cases h
    exact .goesOn _ _ _
  all_goals cases h
  all_goals exact .same _ _

theorem ends {result : Except Error SwitchOutcome}
    (h : resume s id phase signal = (s', .done result)) :
    Stage.Ends s signal (failure? (resume s id phase signal).2) phase.stage := by
  have hprobed : ∀ progress, (probed s id progress).2 ≠ .done result := by
    intro progress
    fun_cases probed s id progress <;> simp [fail]
  revert h
  fun_cases resume s id phase signal <;> intro h
  case case8 | case9 => exact absurd (congrArg Prod.snd h) (hprobed _)
  case case12 remaining refresh refresh' t hr =>
    unfold refreshed at h
    split at h
    · next hd => exact .completes (Stage.renews_of_done hr hd)
    · cases h
  case case13 => exact .failed
  all_goals cases h

end Switch

/-! ### All work -/

namespace Work

variable {s s' : Shared} {w w' : Work} {signal : Signal}

theorem Advance.leads {asks : List (Nat × Request)} (h : w.Advance s signal s' w' asks) :
    Stage.Leads s signal (w.failure? s signal) w.stage w'.stage asks := by
  cases h with
  | switch h => exact Switch.leads h
  | reload h => exact Reload.leads h
  | recover h => exact Recovery.leads h
  | reconcile => exact .same _ _
  | refresh => exact .goesOn _ _ _

theorem Ending.ends {result : Option Result} (h : w.Ending s signal s' result)
    (ha : w.activity?.isSome = true) : Stage.Ends s signal (w.failure? s signal) w.stage := by
  cases h with
  | switch h => exact Switch.ends h
  | @reload phase _ _ result h =>
    unfold Controller.reloadEnded at h
    split at h
    · next t e hstep => exact .fails (by simp [failure?, hstep, Progress.error?])
    · next hne =>
      cases result with
      | error e => exact absurd h (hne _ _)
      | ok =>
        obtain ⟨refresh, rfl, hrenews⟩ := Reload.renews_of_done h
        exact .completes hrenews
  | recover h => exact Recovery.ends h
  | refresh h hd => exact .completes (Stage.renews_of_done h hd)
  | check | refetched | notRefetched => cases ha

end Work

/-! ### In a run -/

namespace Turn

def Begins (t : Turn) (n : Nat) : Prop := ∀ key : CacheKey, t.Asks n key.request

def Renews (t : Turn) (n : Nat) : Prop :=
  ∃ r signal, Hears t.before.later r t.event signal ∧ r.id = n ∧
    r.work.stage.renews t.before.later.shared signal = true

def Fails (t : Turn) (n : Nat) : Prop :=
  ∃ r signal, Hears t.before.later r t.event signal ∧ r.id = n ∧
    (r.work.failure? t.before.later.shared signal).isSome = true

def BreaksDown (t : Turn) (n : Nat) : Prop := ∃ request, t.Answers n request .collapsed

end Turn

def Renewed (n : Nat) (past : List Turn) : Prop :=
  Since (fun earlier t => (∃ u ∈ earlier, u.Begins n) ∧ t.Renews n) (fun _ => True) past

theorem Renewed.snoc {n : Nat} {past : List Turn} (h : Renewed n past) (t : Turn) :
    Renewed n (past ++ [t]) :=
  Since.snoc h trivial

/-- What has happened to work that has come to a stage. -/
def Stage.Backed (past : List Turn) (n : Nat) : Stage → Prop
  | before => True
  | renewing _ => ∃ u ∈ past, u.Begins n
  | renewed => Renewed n past
  | failed => ∃ u ∈ past, u.Fails n

/-- A workflow has renewed the cache, or why it has not. -/
inductive Settled (past : List Turn) (n : Nat) : Prop
  | renewed (h : Renewed n past)
  | failed (h : ∃ u ∈ past, u.Fails n)
  | brokeDown (h : ∃ u ∈ past, u.BreaksDown n)

theorem exists_mem_snoc {past : List Turn} {p : Turn → Prop} (h : ∃ u ∈ past, p u) (t : Turn) :
    ∃ u ∈ past ++ [t], p u := by
  obtain ⟨u, hu, hp⟩ := h
  exact ⟨u, List.mem_append_left _ hu, hp⟩

theorem exists_mem_last {past : List Turn} {p : Turn → Prop} {t : Turn} (h : p t) :
    ∃ u ∈ past ++ [t], p u :=
  ⟨t, List.mem_append_right _ (List.mem_singleton.mpr rfl), h⟩

theorem Stage.Backed.snoc {past : List Turn} {n : Nat} {stage : Stage} (h : stage.Backed past n)
    (t : Turn) : stage.Backed (past ++ [t]) n := by
  cases stage with
  | before => trivial
  | renewing => exact exists_mem_snoc h t
  | renewed => exact Renewed.snoc h t
  | failed => exact exists_mem_snoc h t

theorem Settled.snoc {past : List Turn} {n : Nat} (h : Settled past n) (t : Turn) :
    Settled (past ++ [t]) n := by
  cases h with
  | renewed h => exact .renewed (h.snoc t)
  | failed h => exact .failed (exists_mem_snoc h t)
  | brokeDown h => exact .brokeDown (exists_mem_snoc h t)

theorem Refresh.mem_asks_start (cache : Cache) (key : CacheKey) :
    ∃ slot, (slot, key.request) ∈ (start true CacheKey.all cache).1.asks := by
  cases key with
  | profiles => exact ⟨0, .head _⟩
  | proxies => exact ⟨1, .tail _ (.head _)⟩
  | clashConfig => exact ⟨2, .tail _ (.tail _ (.head _))⟩

namespace Turn

variable {timings : Timings} {past : List Turn} {t : Turn} {n : Nat}

theorem begins_of_asks (cache : Cache) (h : ∀ a ∈ (Refresh.start true CacheKey.all cache).1.asks,
    Output.ask n a.1 a.2 ∈ t.outputs) : t.Begins n := by
  intro key
  obtain ⟨slot, hslot⟩ := Refresh.mem_asks_start cache key
  exact ⟨slot, h _ hslot⟩

theorem renewed_of_ends {r : Running} {signal : Signal} {refresh : Refresh}
    (hs : Hears t.before.later r t.event signal) (hstage : r.work.stage = .renewing refresh)
    (hbacked : r.work.stage.Backed past r.id)
    (h : (Stage.renewing refresh).renews t.before.later.shared signal = true) :
    Renewed r.id (past ++ [t]) := by
  rw [hstage] at hbacked
  exact Since.last ⟨hbacked, r, signal, hs, rfl, hstage ▸ h⟩

end Turn

namespace Controller

variable {timings : Timings} {past : List Turn} {t : Turn}

def Staged (past : List Turn) (c : Controller) : Prop :=
  ∀ r ∈ c.running, r.work.stage.Backed past r.id

theorem staged_turn (hs : t.before.Sound timings) (h : t.before.Staged past) :
    t.after.Staged (past ++ [t]) := by
  intro r hr
  have hsource := source_of_turn hs hr
  generalize ho : t.outputs = outputs at hsource
  cases hsource with
  | @kept r₀ _ _ hr₀ => exact (h r₀ hr₀).snoc t
  | opened onset hi hopening =>
    generalize t.event = e at hopening
    cases hopening with
    | refresh =>
      refine exists_mem_last (Turn.begins_of_asks t.before.later.shared.cache ?_)
      intro a ha
      rw [ho]
      exact List.mem_map.mpr ⟨a, ha, rfl⟩
    | switch | reload | recover | tick => trivial
  | joined onset haside =>
    generalize t.event = e at haside
    cases haside <;> trivial
  | @advanced r₀ signal s' work asks hears ha =>
    have hbacked := h r₀ (mem_of_find? hears.find?)
    have hleads := ha.leads
    change work.stage.Backed (past ++ [t]) r₀.id
    generalize hstage : r₀.work.stage = stage at hleads
    generalize work.stage = stage' at hleads
    cases hleads with
    | same => exact hstage ▸ hbacked.snoc t
    | begins cache =>
      refine exists_mem_last (Turn.begins_of_asks cache ?_)
      intro a ha
      rw [ho]
      exact List.mem_map.mpr ⟨a, ha, rfl⟩
    | goesOn refresh =>
      rw [hstage] at hbacked
      exact exists_mem_snoc hbacked t
    | completes hrenews => exact Turn.renewed_of_ends hears hstage hbacked hrenews
    | fails hfails => exact exists_mem_last ⟨r₀, signal, hears, rfl, hfails⟩

/-- A workflow goes on, or renews the cache, fails or is taken along. -/
theorem workflow_turn (hs : t.before.Sound timings) (h : t.before.Staged past) {r : Running}
    (hr : r ∈ t.before.running) (hd : r.work.isDetached = true) :
    (∃ r' ∈ t.after.running, r'.id = r.id ∧ r'.work.isDetached = true) ∨
      Settled (past ++ [t]) r.id := by
  have hfate := fate_of_turn hs hr
  cases hfate with
  | goesOn hkept => exact .inl ⟨_, hkept, rfl, hd⟩
  | advances hears ha hkept => exact .inl ⟨_, hkept, rfl, ha.isDetached.trans hd⟩
  | concludes hears hw => simp [hw, Work.isDetached] at hd
  | @collapses slot request he ha =>
    exact .inr (.brokeDown (exists_mem_last ⟨request, slot, r, he, hs.find?_eq_some hr, ha⟩))
  | aborted hcalled =>
    obtain ⟨awaits, ho⟩ := hs.attended r hr hd
    have hnot := hcalled awaits ho
    rw [hd] at hnot
    cases hnot
  | ends hears hending =>
    have ha : r.work.activity?.isSome = true := by
      cases hw : r.work <;> simp_all [Work.isDetached, Work.activity?]
    have hbacked := h r hr
    have hends := hending.ends ha
    generalize hstage : r.work.stage = stage at hends
    cases hends with
    | completes hrenews => exact .inr (.renewed (Turn.renewed_of_ends hears hstage hbacked hrenews))
    | renewed =>
      rw [hstage] at hbacked
      exact .inr (.renewed (Renewed.snoc hbacked t))
    | failed =>
      rw [hstage] at hbacked
      exact .inr (.failed (exists_mem_snoc hbacked t))
    | fails hfails => exact .inr (.failed (exists_mem_last ⟨r, _, hears, rfl, hfails⟩))

theorem workflow_run {c : Controller} (hs : c.Sound timings) (h : c.Staged []) (es : List Event) :
    (c.run es).1.Sound timings ∧ (c.run es).1.Staged (c.turns es) ∧
      ∀ u ∈ c.turns es, ∀ r ∈ u.before.running, r.work.isDetached = true →
        (∃ r' ∈ (c.run es).1.running, r'.id = r.id ∧ r'.work.isDetached = true) ∨
          Settled (c.turns es) r.id := by
  refine turns_induction (P := fun past c => c.Sound timings ∧ c.Staged past ∧
    ∀ u ∈ past, ∀ r ∈ u.before.running, r.work.isDetached = true →
      (∃ r' ∈ c.running, r'.id = r.id ∧ r'.work.isDetached = true) ∨ Settled past r.id)
    ⟨hs, h, by simp⟩ ?_ es
  rintro past t ⟨hs, hstaged, hpast⟩
  refine ⟨hs.step t.event, staged_turn hs hstaged, ?_⟩
  intro u hu r hr hd
  rcases List.mem_append.mp hu with hu | hu
  · rcases hpast u hu r hr hd with ⟨r', hr', hid, hd'⟩ | hsettled
    · exact hid ▸ workflow_turn hs hstaged hr' hd'
    · exact .inr (hsettled.snoc t)
  · obtain rfl := List.mem_singleton.mp hu
    exact workflow_turn hs hstaged hr hd

end Controller
end CoreWarden
