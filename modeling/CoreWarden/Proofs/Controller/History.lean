import CoreWarden.Proofs.Controller.Refusal
import CoreWarden.Proofs.Controller.Renewal
import Mathlib.Data.List.DropRight

/-!
The history of switches. A switch that was begun is entered once: when it commits, or when the core
turns it down or does not become healthy. Nothing else is entered, and the history keeps the entries
that were made last.
-/
namespace CoreWarden

open Controller (Hears Act Resumed Opening)

/-- What is left out of a list before it grows is left out afterwards too. -/
theorem rtake_rtake_append_singleton {α : Type} (l : List α) (x : α) (n : Nat) :
    (l.rtake n ++ [x]).rtake n = (l ++ [x]).rtake n := by
  cases n with
  | zero => simp
  | succ n => simp [List.rtake_eq_reverse_take_reverse, List.take_take]

namespace Snapshot

def record (s : Snapshot) : List (String × Bool) := s.history.map fun e => (e.configId, e.success)

theorem record_pushHistory (s : Snapshot) (entry : HistoryEntry) (limit : Nat) :
    (s.pushHistory entry limit).record =
      (s.record ++ [(entry.configId, entry.success)]).rtake limit := by
  simp [record, pushHistory, List.rtake, List.map_drop]

end Snapshot

def Shared.historyAfter (s : Shared) : Option (String × Bool) → List HistoryEntry
  | some (id, success) =>
    (s.state.snapshot.pushHistory ⟨id, s.wall, success⟩ s.state.historyLimit).history
  | none => s.state.snapshot.history

/-! ### How a switch is settled -/

namespace Switch

/-- The error with which the core turns a switch down, or does not become healthy. -/
def fault? (s : Shared) : Switch → Signal → Option Error
  | switching, .answer 0 (.switch (.error e)) => some e
  | probing probe, signal => (probe.resume s.pace s.now signal).error?
  | _, _ => none

/-- Whether a signal settles a switch: it commits, or it meets a fault. -/
def verdict? (s : Shared) (id : String) (phase : Switch) (signal : Signal) : Option Bool :=
  if (phase.resume s id signal).2.isOk then some true
  else (phase.fault? s signal).map fun _ => false

def isReporting : Switch → Bool
  | reporting _ => true
  | _ => false

variable {s s' : Shared} {id : String} {phase phase' : Switch} {signal : Signal}

theorem history_probed (s : Shared) (id : String) (progress : Progress Probe (Except Error Unit)) :
    (probed s id progress).1.state.snapshot.history =
      s.historyAfter (progress.error?.map fun _ => (id, false)) := by
  fun_cases probed s id progress <;> rfl

theorem isOk_probed (s : Shared) (id : String) (progress : Progress Probe (Except Error Unit)) :
    (probed s id progress).2.isOk = false := by
  fun_cases probed s id progress <;> rfl

theorem history_resume (s : Shared) (id : String) (phase : Switch) (signal : Signal) :
    (resume s id phase signal).1.state.snapshot.history =
      s.historyAfter ((phase.verdict? s id signal).map (id, ·)) := by
  unfold verdict?
  fun_cases resume s id phase signal with
  | case8 wake => simp [isOk_probed, fault?, history_probed, Probe.start, Probe.ask, Progress.error?]
  | case9 probe signal => simp [isOk_probed, fault?, history_probed, Function.comp_def]
  | case1 result report t h | case2 result report t h | case10 result report t h =>
    obtain rfl := Shared.check_eq h
    rfl
  | case11 remaining result refresh t h =>
    obtain ⟨cache, rfl⟩ := Shared.startRefresh_eq h
    rfl
  | case12 remaining refresh signal refresh' t h =>
    obtain ⟨cache, rfl⟩ := Shared.resumeRefresh_eq h
    unfold refreshed
    split <;> rfl
  | case14 phase signal =>
    rw [fault?]
    · rfl
    all_goals assumption
  | case3 | case4 | case5 | case6 | case7 | case13 => rfl

theorem isReporting_of_probed {progress : Progress Probe (Except Error Unit)}
    {asks : List (Nat × Request)} (h : probed s id progress = (s', .waiting phase' asks)) :
    phase'.isReporting = progress.error?.isSome := by
  revert h
  fun_cases probed s id progress <;> intro h <;> cases h <;> rfl

theorem isReporting_of_resume {asks : List (Nat × Request)}
    (h : resume s id phase signal = (s', .waiting phase' asks)) :
    phase'.isReporting = (phase.isReporting || (phase.verdict? s id signal).isSome) := by
  have hverdict : phase.verdict? s id signal = (phase.fault? s signal).map fun _ => false := by
    simp [verdict?, h, Progress.isOk]
  rw [hverdict, Option.isSome_map]
  revert h
  fun_cases resume s id phase signal <;> intro h
  case case8 => exact isReporting_of_probed h
  case case9 => exact isReporting_of_probed h
  case case12 =>
    unfold refreshed at h
    split at h <;> cases h
    rfl
  case case14 =>
    cases h
    rw [fault?]
    · simp
    all_goals assumption
  all_goals (cases h) <;> rfl

theorem verdict?_of_done {result : Except Error SwitchOutcome}
    (h : resume s id phase signal = (s', .done result)) (hp : phase.isReporting = false) :
    phase.verdict? s id signal = some true := by
  cases result with
  | ok outcome => simp [verdict?, h, Progress.isOk]
  | error e =>
    rw [reporting_of_done h] at hp
    cases hp

theorem resume_of_fault {e : Error} (h : phase.fault? s signal = some e) :
    resume s id phase signal = fail s id e := by
  revert h
  fun_cases fault? s phase signal <;> intro h
  case case1 =>
    cases h
    rfl
  case case2 probe =>
    have hprogress : probe.resume s.pace s.now signal = .done (.error e) := by
      revert h
      generalize probe.resume s.pace s.now signal = progress
      fun_cases Progress.error? progress <;> intro h <;> cases h
      rfl
    simp only [resume, hprogress, probed]
  case case3 => cases h

theorem verdict?_of_fault {e : Error} (h : phase.fault? s signal = some e) :
    phase.verdict? s id signal = some false := by
  have hok : (resume s id phase signal).2.isOk = false := by
    rw [resume_of_fault h]
    rfl
  simp [verdict?, hok, h]

theorem verdict?_of_isReporting (hp : phase.isReporting = true) :
    phase.verdict? s id signal = none := by
  cases phase with
  | reporting e =>
    have hok : (resume s id (.reporting e) signal).2.isOk = false := by
      unfold resume
      split <;> first | rfl | simp_all
    simp [verdict?, hok, fault?]
  | _ => cases hp

end Switch

structure SwitchEnd where
  number : Nat
  configId : String
  success : Bool

namespace SwitchEnd

def entry (e : SwitchEnd) : String × Bool := (e.configId, e.success)

end SwitchEnd

def Work.verdict? (s : Shared) (signal : Signal) : Work → Option (String × Bool)
  | switch id phase => (phase.verdict? s id signal).map (id, ·)
  | _ => none

namespace Turn

def switchEnd? (t : Turn) : Option SwitchEnd :=
  (t.before.later.heard? t.event).bind fun (r, signal) =>
    (r.work.verdict? t.before.later.shared signal).map fun verdict => ⟨r.id, verdict.1, verdict.2⟩

/-- A call of `switch` that is neither refused nor needless begins work under a number. -/
def Opens (t : Turn) (n : Nat) (id : String) : Prop :=
  t.event = .call (.switch id) ∧ n = t.before.nextId ∧
    ⟨n, .caller true, .switch id .checking⟩ ∈ t.after.running

/-- The core turns a switch down, or does not become healthy. -/
def FailsSwitch (t : Turn) (r : Running) (id : String) (e : Error) : Prop :=
  ∃ phase signal, r.work = .switch id phase ∧ Hears t.before.later r t.event signal ∧
    phase.fault? t.before.later.shared signal = some e

variable {t : Turn} {e : SwitchEnd}

theorem switchEnd?_of_hears {r : Running} {signal : Signal}
    (h : Hears t.before.later r t.event signal) : t.switchEnd? =
      (r.work.verdict? t.before.later.shared signal).map fun verdict =>
        ⟨r.id, verdict.1, verdict.2⟩ := by
  simp [switchEnd?, h.heard?]

theorem switchEnd?_eq_some_iff : t.switchEnd? = some e ↔ ∃ r phase signal, r.id = e.number ∧
    r.work = .switch e.configId phase ∧ Hears t.before.later r t.event signal ∧
      phase.verdict? t.before.later.shared e.configId signal = some e.success := by
  constructor
  · intro h
    obtain ⟨⟨r, signal⟩, hheard, hend⟩ := Option.bind_eq_some_iff.mp h
    obtain ⟨⟨id, success⟩, hverdict, rfl⟩ := Option.map_eq_some_iff.mp hend
    unfold Work.verdict? at hverdict
    split at hverdict
    · next id' phase hw =>
      obtain ⟨success', hverdict, he⟩ := Option.map_eq_some_iff.mp hverdict
      cases he
      exact ⟨r, phase, signal, rfl, hw, Controller.hears_of_heard? hheard, hverdict⟩
    · cases hverdict
  · rintro ⟨r, phase, signal, hid, hw, hs, hverdict⟩
    rw [switchEnd?_of_hears hs, hw]
    simp [Work.verdict?, hverdict, hid]

theorem commits_iff {n : Nat} {id : String} :
    t.switchEnd? = some ⟨n, id, true⟩ ↔ ∃ r, r.id = n ∧ t.Commits r id := by
  rw [switchEnd?_eq_some_iff]
  constructor
  · rintro ⟨r, phase, signal, hid, hw, hs, hverdict⟩
    refine ⟨r, hid, phase, signal, ?_⟩
    cases hresume : phase.resume t.before.later.shared id signal with
    | mk s' step =>
      have hok : step.isOk = true := by
        by_contra hnot
        simp [Switch.verdict?, hresume, hnot] at hverdict
      have heffect := (Switch.effect hresume).1
      generalize s'.state = state at heffect
      cases heffect with
      | success remaining => exact ⟨s', remaining, hw, hs, rfl⟩
      | none hne | check report hne =>
        match step with
        | .done (.ok outcome) => exact absurd rfl (hne outcome)
        | .done (.error e) | .waiting phase' asks => cases hok
      | failure => cases hok
  · rintro ⟨r, hid, phase, signal, s', remaining, hw, hs, hresume⟩
    refine ⟨r, phase, signal, hid, hw, hs, ?_⟩
    simp [Switch.verdict?, hresume, Progress.isOk]

theorem failsSwitch_iff {n : Nat} {id : String} :
    t.switchEnd? = some ⟨n, id, false⟩ ↔ ∃ r e, r.id = n ∧ t.FailsSwitch r id e := by
  rw [switchEnd?_eq_some_iff]
  constructor
  · rintro ⟨r, phase, signal, hid, hw, hs, hverdict⟩
    unfold Switch.verdict? at hverdict
    split at hverdict
    · cases hverdict
    · obtain ⟨e, hfault, -⟩ := Option.map_eq_some_iff.mp hverdict
      exact ⟨r, e, hid, phase, signal, hw, hs, hfault⟩
  · rintro ⟨r, e, hid, phase, signal, hw, hs, hfault⟩
    exact ⟨r, phase, signal, hid, hw, hs, Switch.verdict?_of_fault hfault⟩

end Turn

theorem Reload.history_resume (s : Shared) (phase : Reload) (signal : Signal) :
    (Controller.reloadEnded (resume s phase signal)).1.state.snapshot.history =
      s.state.snapshot.history := by
  have heffect := (effect_resume s phase signal).1
  generalize resume s phase signal = step at heffect
  obtain ⟨t, progress⟩ := step
  generalize hstate : t.state = state at heffect
  unfold Controller.reloadEnded
  cases heffect with
  | none hok =>
    split
    · next h =>
      obtain ⟨rfl, rfl⟩ := Prod.mk.inj h
      simp [hstate]
    · exact congrArg (·.snapshot.history) hstate
  | success => exact congrArg (·.snapshot.history) hstate

theorem Recovery.Effect.history {s : Shared} {attempt : UInt32} {state : SyncState}
    {step : Recovery.Step} (h : Recovery.Effect s attempt state step) :
    state.snapshot.history = s.state.snapshot.history := by
  cases h with
  | none | check | reloaded => rfl
  | failure | refreshed | rechecked => simp

@[simp] theorem SyncState.history_leave (s : SyncState) (a : Activity) :
    (s.leave a).snapshot.history = s.snapshot.history := by
  rw [snapshot_leave]
  split <;> rfl

namespace Controller

/-! ### What else happens leaves the history alone -/

theorem history_drop (c : Controller) (p : Running → Bool) :
    (c.drop p).snapshot.history = c.snapshot.history :=
  state_drop (·.snapshot.history) SyncState.history_leave c p

theorem history_conclude (c : Controller) (f : Tick.Finding) :
    (c.conclude f).snapshot.history = c.snapshot.history := by
  refine conclude_induction (P := fun c' => c'.snapshot.history = c.snapshot.history) rfl ?_ ?_ ?_
  · intro c₁ id h₁
    rw [snapshot_onState, SyncState.snapshot_adopt]
    exact h₁
  · intro c₁ h₁
    exact (c₁.history_drop _).trans h₁
  · intro c₁ wall h₁
    exact h₁

theorem history_resume (c : Controller) (r : Running) (signal : Signal) :
    (c.resume r signal).1.snapshot.history =
      c.shared.historyAfter (r.work.verdict? c.shared signal) := by
  have hproceed : ∀ {φ ρ : Type} (point : φ → Work) (result : ρ → Result)
      (step : Shared × Progress φ ρ),
        (c.proceed r point result step).1.snapshot.history = step.1.state.snapshot.history :=
    fun point result step =>
      state_proceed (·.snapshot.history) SyncState.history_leave c r point result step
  fun_cases resume c r signal with
  | case1 signal id phase hw =>
    rw [hproceed, hw]
    exact Switch.history_resume c.shared id phase signal
  | case2 signal phase hw =>
    rw [hproceed, hw]
    exact Reload.history_resume c.shared phase signal
  | case3 signal attempt phase hw =>
    rw [hproceed, hw]
    exact (Recovery.effect_resume c.shared attempt phase signal).1.history
  | case4 hw result found shared h =>
    obtain rfl := Shared.check_eq h
    exact hw ▸ history_drop _ _
  | case6 signal tick hw tick' profiles proxies h f =>
    exact hw ▸ (history_drop _ _).trans (history_conclude c f)
  | case8 key hw answer value h | case9 key hw answer e h => exact hw ▸ history_drop _ _
  | case12 signal refresh hw refresh' shared h c' hd =>
    obtain ⟨cache, rfl⟩ := Shared.resumeRefresh_eq h
    exact hw ▸ history_drop _ _
  | case13 signal refresh hw refresh' shared h c' hd =>
    obtain ⟨cache, rfl⟩ := Shared.resumeRefresh_eq h
    rw [hw]
    rfl
  | case5 signal hw hne =>
    rw [hw]
    rfl
  | case7 signal tick hw tick' h =>
    rw [hw]
    rfl
  | case10 key hw answer h =>
    rw [hw]
    rfl
  | case11 signal key hw hne =>
    rw [hw]
    rfl

theorem history_of_act {c : Controller} {e : Event} {out : Controller × List Output}
    (h : Act c e out) (hheard : c.heard? e = none) :
    out.1.snapshot.history = c.snapshot.history := by
  cases h with
  | nothing | refused | skippedCall | droppedRefresh | detached | passed => rfl
  | exhausted => simp; rfl
  | resumed hs ho => simp [hs.heard?] at hheard
  | skippedTick ho | joins ho =>
    obtain ⟨hs, -, -, -⟩ := ho.frame
    exact congrArg (·.state.snapshot.history) hs
  | begins ho hi hw =>
    cases hw with
    | switch | reload =>
      change (SyncState.setError _ none).snapshot.history = _
      simp
      rfl
    | recover | tick | refresh => rfl
  | @collapsed r =>
    exact (history_drop _ _).trans (congrArg (·.state.snapshot.history) (c.shared_stopTicker r.origin))
  | abandoned => exact c.history_drop _
  | started => exact congrArg (·.state.snapshot.history) c.shared_startBackground
  | shutDown =>
    change ((((c.abort .reconciler).abort .poller).abort .debounce).abort
      .visibility).snapshot.history = _
    simp only [abort, history_drop]
  | visibility visible =>
    obtain ⟨c₁, slot, rfl | rfl, hc⟩ := c.changeVisibility_eq visible <;> rw [hc]
    · exact c₁.history_drop _
    · exact (c.onState .recordSkippedTick).history_drop _
  | expired hd hn =>
    have hsnapshot := congrArg Snapshot.history (SyncState.expire_of_due _ hd hn).1
    exact hsnapshot

theorem waiting_of_mem_proceed {c : Controller} {r r' : Running} {φ ρ : Type} {point : φ → Work}
    {result : ρ → Result} {step : Shared × Progress φ ρ}
    (hr : r' ∈ (c.proceed r point result step).1.running) (hid : r'.id = r.id) :
    ∃ s' phase asks, step = (s', .waiting phase asks) ∧ r'.work = point phase := by
  obtain ⟨s', progress⟩ := step
  cases progress with
  | waiting phase asks =>
    obtain ⟨r₀, -, rfl⟩ := List.mem_map.mp hr
    refine ⟨s', phase, asks, rfl, ?_⟩
    by_cases hid₀ : r₀.id = r.id
    · simp [hid₀]
    · simp [hid₀] at hid
  | done value =>
    have hgone := (List.mem_filter.mp hr).2
    simp [hid] at hgone

theorem switch_of_mem_resume {c : Controller} {r r' : Running} {id : String} {phase : Switch}
    {signal : Signal} (hw : r.work = .switch id phase) (hr : r' ∈ (c.resume r signal).1.running)
    (hid : r'.id = r.id) : ∃ s' phase' asks,
      phase.resume c.shared id signal = (s', .waiting phase' asks) ∧ r'.work = .switch id phase' := by
  have hresume : c.resume r signal =
      c.proceed r (.switch id) .switch (phase.resume c.shared id signal) := by
    simp [resume, hw]
  exact waiting_of_mem_proceed (hresume ▸ hr) hid

end Controller

namespace Turn

variable {t : Turn}

/-- A turn enters what it settles in the history, and nothing else. -/
theorem history (t : Turn) : t.after.snapshot.history =
    t.before.later.shared.historyAfter (t.switchEnd?.map SwitchEnd.entry) := by
  cases hheard : t.before.later.heard? t.event with
  | some heard =>
    obtain ⟨r, signal⟩ := heard
    have hs := Controller.hears_of_heard? hheard
    rw [switchEnd?_of_hears hs, after, Controller.step_of_hears hs, Controller.history_resume,
      Option.map_map]
    congr 1
    cases r.work.verdict? t.before.later.shared signal <;> rfl
  | none =>
    have hnone : t.switchEnd? = none := by simp [switchEnd?, hheard]
    rw [hnone]
    have hkept := Controller.history_of_act (Controller.act_step t.before t.event) hheard
    exact hkept

theorem settled_of_switchEnd? {e : SwitchEnd} (h : t.switchEnd? = some e) :
    (∃ r ∈ t.before.running, ∃ phase, r.id = e.number ∧ r.work = .switch e.configId phase ∧
      phase.isReporting = false) ∧
    ∀ r ∈ t.after.running, r.id = e.number →
      ∃ phase, r.work = .switch e.configId phase ∧ phase.isReporting = true := by
  obtain ⟨r, phase, signal, hid, hw, hears, hverdict⟩ := switchEnd?_eq_some_iff.mp h
  have hr := Controller.mem_of_find? hears.find?
  have hpending : phase.isReporting = false := by
    cases hp : phase.isReporting with
    | false => rfl
    | true => simp [Switch.verdict?_of_isReporting hp] at hverdict
  refine ⟨⟨r, hr, phase, hid, hw, hpending⟩, ?_⟩
  intro r' hr' hid'
  rw [after, Controller.step_of_hears hears] at hr'
  obtain ⟨s', phase', asks, hresume, hw'⟩ :=
    Controller.switch_of_mem_resume hw hr' (hid'.trans hid.symm)
  refine ⟨phase', hw', ?_⟩
  simp [Switch.isReporting_of_resume hresume, hverdict]

end Turn

/-! ### Over a run -/

def switchEnds (past : List Turn) : List SwitchEnd := past.filterMap Turn.switchEnd?

def Recorded (past : List Turn) (n : Nat) : Prop := ∃ e ∈ switchEnds past, e.number = n

/-- What has become of a switch that was begun. -/
inductive SwitchFate (past : List Turn) (c : Controller) (n : Nat) (id : String) : Prop
  | settled {success} (h : ⟨n, id, success⟩ ∈ switchEnds past)
  | goesOn {r phase} (hr : r ∈ c.running) (hid : r.id = n) (hw : r.work = .switch id phase)
      (hp : phase.isReporting = false)
  | brokeDown (hbroke : ∃ t ∈ past, t.BreaksDown n) (hgone : ∀ r ∈ c.running, r.id ≠ n)
      (hnot : ¬ Recorded past n)

theorem switchEnds_snoc (past : List Turn) (t : Turn) :
    switchEnds (past ++ [t]) = switchEnds past ++ t.switchEnd?.toList := by
  simp [switchEnds, List.filterMap_append, List.filterMap_cons]
  cases t.switchEnd? <;> rfl

theorem recorded_snoc {past : List Turn} {t : Turn} {n : Nat} :
    Recorded (past ++ [t]) n ↔ Recorded past n ∨ ∃ e, t.switchEnd? = some e ∧ e.number = n := by
  simp [Recorded, switchEnds_snoc, or_and_right, exists_or]

namespace Controller

variable {timings : Timings} {past : List Turn} {t : Turn}

structure Chronicled (past : List Turn) (c : Controller) : Prop where
  opened : ∀ r ∈ c.running, ∀ id phase, r.work = .switch id phase → ∃ t ∈ past, t.Opens r.id id
  pending : ∀ r ∈ c.running, ∀ id phase, r.work = .switch id phase → phase.isReporting = false →
    ¬ Recorded past r.id
  begun : ∀ e ∈ switchEnds past, ∃ t ∈ past, t.Opens e.number e.configId
  once : ((switchEnds past).map SwitchEnd.number).Nodup
  used : ∀ t ∈ past, ∀ n id, t.Opens n id → n < c.nextId
  apart : past.Pairwise fun t u => ∀ n id id', t.Opens n id → ¬ u.Opens n id'
  fates : ∀ t ∈ past, ∀ n id, t.Opens n id → SwitchFate past c n id

namespace Chronicled

theorem lt_nextId {c : Controller} (h : Chronicled past c) {n : Nat} (hn : Recorded past n) :
    n < c.nextId := by
  obtain ⟨e, he, rfl⟩ := hn
  obtain ⟨t, ht, ho⟩ := h.begun e he
  exact h.used t ht _ _ ho

theorem source (hs : t.before.Sound timings) {r : Running} (hr : r ∈ t.after.running) {id : String}
    {phase : Switch} (hw : r.work = .switch id phase) :
    t.Opens r.id id ∨ ∃ r₀ ∈ t.before.running, ∃ phase₀, r₀.id = r.id ∧ r₀.work = .switch id phase₀ ∧
      (phase.isReporting = false → phase₀.isReporting = false) := by
  have hsource := source_of_turn hs hr
  generalize t.outputs = outputs at hsource
  cases hsource with
  | @kept r₀ _ _ hr₀ => exact .inr ⟨r₀, hr₀, phase, rfl, hw, fun hp => hp⟩
  | opened onset hi hopening =>
    generalize he : t.event = e at onset hopening
    cases hopening with
    | switch =>
      cases hw
      cases onset
      exact .inl ⟨he, rfl, hr⟩
    | reload | recover | tick | refresh => cases hw
  | joined onset haside =>
    generalize t.event = e at haside
    cases haside <;> cases hw
  | @advanced r₀ signal s' work asks hears ha =>
    have hr₀ := mem_of_find? hears.find?
    generalize hw₀ : r₀.work = work₀ at ha
    cases ha with
    | @switch id' phase₀ _ _ phase' _ hresume =>
      cases hw
      refine .inr ⟨r₀, hr₀, phase₀, rfl, hw₀, fun hp => ?_⟩
      have hreporting := Switch.isReporting_of_resume hresume
      rw [hp] at hreporting
      exact (Bool.or_eq_false_iff.mp hreporting.symm).1
    | reload | recover | reconcile | refresh => cases hw

theorem not_recorded (h : Chronicled past t.before) {e : SwitchEnd} (he : t.switchEnd? = some e) :
    ¬ Recorded past e.number := by
  obtain ⟨⟨r, hr, phase, hid, hw, hp⟩, -⟩ := Turn.settled_of_switchEnd? he
  exact hid ▸ h.pending r hr _ _ hw hp

/-- A switch that goes on is settled by a turn, goes on after it, or is taken along in it. -/
theorem fate_of_goesOn (hs : t.before.Sound timings) (h : Chronicled past t.before) {r : Running}
    (hr : r ∈ t.before.running) {id : String} {phase : Switch} (hw : r.work = .switch id phase)
    (hp : phase.isReporting = false) : SwitchFate (past ++ [t]) t.after r.id id := by
  have hsettled : ∀ {signal success}, Hears t.before.later r t.event signal →
      phase.verdict? t.before.later.shared id signal = some success →
        SwitchFate (past ++ [t]) t.after r.id id := by
    intro signal success hears hverdict
    have hend : t.switchEnd? = some ⟨r.id, id, success⟩ :=
      Turn.switchEnd?_eq_some_iff.mpr ⟨r, phase, signal, rfl, hw, hears, hverdict⟩
    have hmem : ⟨r.id, id, success⟩ ∈ switchEnds (past ++ [t]) := by simp [switchEnds_snoc, hend]
    exact .settled hmem
  cases fate_of_turn hs hr with
  | goesOn hkept => exact .goesOn hkept rfl hw hp
  | @advances signal s' work asks hears ha hkept =>
    rw [hw] at ha
    cases ha with
    | @switch _ _ _ _ phase' _ hresume =>
      have hreporting := Switch.isReporting_of_resume hresume
      rw [hp, Bool.false_or] at hreporting
      cases hverdict : phase.verdict? t.before.later.shared id signal with
      | some success => exact hsettled hears hverdict
      | none =>
        rw [hverdict] at hreporting
        exact .goesOn hkept rfl rfl hreporting
  | ends hears he =>
    rw [hw] at he
    cases he with
    | switch hresume => exact hsettled hears (Switch.verdict?_of_done hresume hp)
  | concludes hears hw' => simp [hw] at hw'
  | @collapses slot request he ha =>
    have hafter : t.after = (t.before.later.collapse r).1 := by
      rw [Turn.after, he, step_of_collapsed (hs.find?_eq_some hr) ha]
    refine .brokeDown (exists_mem_last ⟨request, slot, r, he, hs.find?_eq_some hr, ha⟩) ?_ ?_
    · intro r' hr' hid
      rw [hafter] at hr'
      have hgone := (List.mem_filter.mp hr').2
      simp [hid] at hgone
    · rw [recorded_snoc]
      rintro (hpast | ⟨e, hend, hid⟩)
      · exact h.pending r hr _ _ hw hp hpast
      · simp [Turn.switchEnd?, heard?, he] at hend
  | aborted hcalled =>
    obtain ⟨awaits, ho⟩ := hs.attended r hr (by simp [hw, Work.isDetached])
    have hd := hcalled awaits ho
    simp [hw, Work.isDetached] at hd

theorem gone_after (hs : t.before.Sound timings) {n : Nat} (hn : n < t.before.nextId)
    (hgone : ∀ r ∈ t.before.running, r.id ≠ n) : ∀ r ∈ t.after.running, r.id ≠ n := by
  intro r hr
  have hsource := source_of_turn hs hr
  generalize t.outputs = outputs at hsource
  cases hsource with
  | @kept r₀ _ _ hr₀ => exact hgone r₀ hr₀
  | opened | joined => exact Nat.ne_of_gt hn
  | @advanced r₀ _ _ _ _ hears => exact hgone r₀ (mem_of_find? hears.find?)

theorem turn (hs : t.before.Sound timings) (h : Chronicled past t.before) :
    Chronicled (past ++ [t]) t.after where
  opened r hr id phase hw := by
    rcases source hs hr hw with hopens | ⟨r₀, hr₀, phase₀, hid, hw₀, -⟩
    · exact exists_mem_last hopens
    · exact hid ▸ exists_mem_snoc (h.opened r₀ hr₀ id phase₀ hw₀) t
  pending r hr id phase hw hp := by
    rw [recorded_snoc]
    rintro (hpast | ⟨e, he, hid⟩)
    · rcases source hs hr hw with hopens | ⟨r₀, hr₀, phase₀, hid, hw₀, hp₀⟩
      · exact Nat.ne_of_lt (h.lt_nextId hpast) hopens.2.1
      · exact h.pending r₀ hr₀ id phase₀ hw₀ (hp₀ hp) (hid ▸ hpast)
    · obtain ⟨phase', hw', hp'⟩ := (Turn.settled_of_switchEnd? he).2 r hr hid.symm
      cases hw.symm.trans hw'
      rw [hp] at hp'
      cases hp'
  begun e he := by
    rw [switchEnds_snoc] at he
    rcases List.mem_append.mp he with he | he
    · exact exists_mem_snoc (h.begun e he) t
    · obtain ⟨⟨r, hr, phase, hid, hw, -⟩, -⟩ :=
        Turn.settled_of_switchEnd? (Option.mem_toList.mp he)
      exact hid ▸ exists_mem_snoc (h.opened r hr _ phase hw) t
  once := by
    rw [switchEnds_snoc]
    cases he : t.switchEnd? with
    | none => simpa using h.once
    | some e =>
      have hnew := h.not_recorded he
      simp only [Option.toList_some, List.map_append, List.map_cons, List.map_nil]
      refine List.nodup_append.mpr ⟨h.once, List.nodup_singleton _, ?_⟩
      intro n hn m hm hnm
      obtain ⟨e', he', rfl⟩ := List.mem_map.mp hn
      exact hnew ⟨e', he', hnm.trans (List.mem_singleton.mp hm)⟩
  used u hu n id ho := by
    rcases List.mem_append.mp hu with hu | hu
    · exact Nat.lt_of_lt_of_le (h.used u hu n id ho) (nextId_le_of_turn t)
    · obtain rfl := List.mem_singleton.mp hu
      exact (hs.step u.event).ids_lt _ ho.2.2
  apart := by
    refine List.pairwise_append.mpr ⟨h.apart, List.pairwise_singleton _ _, ?_⟩
    intro u hu v hv n id id' ho ho'
    obtain rfl := List.mem_singleton.mp hv
    exact Nat.ne_of_lt (h.used u hu n id ho) ho'.2.1
  fates u hu n id ho := by
    rcases List.mem_append.mp hu with hu | hu
    · cases h.fates u hu n id ho with
      | settled he => exact .settled (by rw [switchEnds_snoc]; exact List.mem_append_left _ he)
      | goesOn hr hid hw hp => exact hid ▸ h.fate_of_goesOn hs hr hw hp
      | brokeDown hbroke hgone hnot =>
        refine .brokeDown (exists_mem_snoc hbroke t) (gone_after hs (h.used u hu n id ho) hgone) ?_
        rw [recorded_snoc]
        rintro (hpast | ⟨e, he, hid⟩)
        · exact hnot hpast
        · obtain ⟨⟨r, hr, phase, hid', -, -⟩, -⟩ := Turn.settled_of_switchEnd? he
          exact hgone r hr (hid'.trans hid)
    · obtain rfl := List.mem_singleton.mp hu
      exact .goesOn ho.2.2 rfl rfl rfl

theorem run (timings : Timings) (currentConfig : Option String) (es : List Event) :
    ((initial timings currentConfig).run es).1.Sound timings ∧
      Chronicled ((initial timings currentConfig).turns es) ((initial timings currentConfig).run es).1 := by
  refine turns_induction (P := fun past c => c.Sound timings ∧ Chronicled past c)
    ⟨sound_initial timings currentConfig, ?_⟩ ?_ es
  · refine ⟨?_, ?_, ?_, List.nodup_nil, ?_, .nil, ?_⟩ <;> simp [initial, switchEnds]
  · rintro past t ⟨hs, h⟩
    exact ⟨hs.step t.event, h.turn hs⟩

end Chronicled

theorem record_after (t : Turn) : t.after.snapshot.record =
    match t.switchEnd? with
    | some e => (t.before.snapshot.record ++ [e.entry]).rtake t.before.state.historyLimit
    | none => t.before.snapshot.record := by
  rw [Snapshot.record, t.history]
  cases t.switchEnd? with
  | none => rfl
  | some e => exact Snapshot.record_pushHistory ..

/-- The history is what was settled last. -/
theorem record_run (timings : Timings) (currentConfig : Option String) (es : List Event) :
    ((initial timings currentConfig).run es).1.snapshot.record =
      ((switchEnds ((initial timings currentConfig).turns es)).map SwitchEnd.entry).rtake
        timings.historyLimit.toNat := by
  suffices h : ((initial timings currentConfig).run es).1.state.historyLimit =
      timings.historyLimit.toNat ∧ _ from h.2
  refine turns_induction (P := fun past c => c.state.historyLimit = timings.historyLimit.toNat ∧
    c.snapshot.record = ((switchEnds past).map SwitchEnd.entry).rtake timings.historyLimit.toNat)
    ⟨rfl, by simp [switchEnds]; rfl⟩ ?_ es
  rintro past t ⟨hlimit, hrecord⟩
  refine ⟨(congrArg Prod.fst (t.before.limits_step t.event)).trans hlimit, ?_⟩
  rw [record_after, switchEnds_snoc]
  cases t.switchEnd? with
  | none => simpa using hrecord
  | some e =>
    dsimp only
    rw [hrecord, hlimit, rtake_rtake_append_singleton]
    simp

/-- Over every run, with any limit: the history is what was settled last, in this order, as far back
as the limit goes. Every switch that was begun, each under a number of its own, is settled once at
most, by its commit or by the error of the core's answer or of the health wait; and it is, unless it
still goes on or a collaborator broke down in it before. -/
theorem history_is_exact (timings : Timings) (currentConfig : Option String) (es : List Event) :
    let c := ((initial timings currentConfig).run es).1
    let past := (initial timings currentConfig).turns es
    c.snapshot.record = ((switchEnds past).map SwitchEnd.entry).rtake timings.historyLimit.toNat ∧
      c.snapshot.history.length ≤ timings.historyLimit.toNat ∧
      ((switchEnds past).map SwitchEnd.number).Nodup ∧
      (past.Pairwise fun t u => ∀ n id id', t.Opens n id → ¬ u.Opens n id') ∧
      (∀ e ∈ switchEnds past, ∃ t ∈ past, t.Opens e.number e.configId) ∧
      (∀ n id, ⟨n, id, true⟩ ∈ switchEnds past ↔ ∃ t ∈ past, ∃ r, r.id = n ∧ t.Commits r id) ∧
      (∀ n id, ⟨n, id, false⟩ ∈ switchEnds past ↔
        ∃ t ∈ past, ∃ r e, r.id = n ∧ t.FailsSwitch r id e) ∧
      ∀ t ∈ past, ∀ n id, t.Opens n id →
        (∃ success, ⟨n, id, success⟩ ∈ switchEnds past) ∨
          ¬ Recorded past n ∧ ((∃ r ∈ c.running, r.id = n) ∨ ∃ t ∈ past, t.BreaksDown n) := by
  intro c past
  have hrecord : c.snapshot.record = _ := record_run timings currentConfig es
  have h : Chronicled past c := (Chronicled.run timings currentConfig es).2
  have hmem : ∀ e, e ∈ switchEnds past ↔ ∃ t ∈ past, t.switchEnd? = some e :=
    fun e => List.mem_filterMap
  refine ⟨hrecord, ?_, h.once, h.apart, h.begun, ?_, ?_, ?_⟩
  · have hlength := congrArg List.length hrecord
    simp only [Snapshot.record, List.length_map, List.rtake, List.length_drop] at hlength
    omega
  · intro n id
    simp only [hmem, Turn.commits_iff]
  · intro n id
    simp only [hmem, Turn.failsSwitch_iff]
  · intro t ht n id ho
    cases h.fates t ht n id ho with
    | settled he => exact .inl ⟨_, he⟩
    | goesOn hr hid hw hp =>
      exact .inr ⟨hid ▸ h.pending _ hr _ _ hw hp, .inl ⟨_, hr, hid⟩⟩
    | brokeDown hbroke hgone hnot => exact .inr ⟨hnot, .inr hbroke⟩

end Controller
end CoreWarden
