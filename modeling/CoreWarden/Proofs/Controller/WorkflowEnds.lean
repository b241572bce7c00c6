import CoreWarden.Proofs.Controller.History
import CoreWarden.Proofs.Controller.PendingReset

/-!
How workflows end. The end of a workflow is recorded once, as a success or with the error that it fails
with, unless it still goes on or a collaborator broke down in it before; a workflow that is gone has
left its activity.
-/
namespace CoreWarden

open Controller (Hears)

/-! ### What settles a workflow -/

namespace Work

def fault? (s : Shared) (signal : Signal) : Work → Option Error
  | switch _ phase => phase.fault? s signal
  | reload phase => (phase.resume s signal).2.error?
  | recover attempt phase => (phase.resume s attempt signal).2.error?
  | _ => none

/-- Whether a signal brings a workflow to its good end. -/
def completes (s : Shared) (signal : Signal) : Work → Bool
  | switch id phase => (phase.resume s id signal).2.isOk
  | reload phase => (phase.resume s signal).2.isOk
  | recover attempt phase => (phase.resume s attempt signal).2.isOk
  | _ => false

/-- How a signal settles a workflow, if it does: for good, or with an error. -/
def settled? (s : Shared) (signal : Signal) (w : Work) : Option (Option Error) :=
  if w.completes s signal then some none else (w.fault? s signal).map some

/-- Whether this is a workflow whose end is not recorded yet. -/
def isPending : Work → Bool
  | switch _ phase => !phase.isReporting
  | reload _ | recover .. => true
  | _ => false

variable {s s' : Shared} {w w' : Work} {signal : Signal}

theorem isSome_settled?_switch (s : Shared) (id : String) (phase : Switch) (signal : Signal) :
    ((switch id phase).settled? s signal).isSome = (phase.verdict? s id signal).isSome := by
  unfold settled? Switch.verdict? completes fault?
  dsimp only
  split <;> simp

theorem Advance.isPending {asks : List (Nat × Request)} (h : w.Advance s signal s' w' asks) :
    w'.isPending = (w.isPending && !(w.settled? s signal).isSome) := by
  cases h with
  | @switch id phase _ _ phase' _ h =>
    rw [isSome_settled?_switch]
    simp [Work.isPending, Switch.isReporting_of_resume h]
  | reload h | recover h =>
    simp [Work.isPending, settled?, completes, fault?, h, Progress.isOk, Progress.error?]
  | reconcile | refresh => rfl

theorem Ending.settled {result : Option Result} (h : w.Ending s signal s' result)
    (hp : w.isPending = true) : (w.settled? s signal).isSome = true := by
  cases h with
  | @switch id phase _ _ outcome h =>
    rw [isSome_settled?_switch, Switch.verdict?_of_done h (by simpa [Work.isPending] using hp)]
    rfl
  | @reload phase _ _ outcome h =>
    cases outcome with
    | ok =>
      have hok : (phase.resume s signal).2.isOk = true := by
        rw [← isOk_reloadEnded, h]
        rfl
      simp [settled?, completes, hok]
    | error e =>
      have hdone := Controller.error_of_reloadEnded h
      simp [settled?, completes, fault?, hdone, Progress.isOk, Progress.error?]
  | @recover attempt phase _ _ outcome h =>
    cases outcome <;> simp [settled?, completes, fault?, h, Progress.isOk, Progress.error?]
  | check | refetched | notRefetched | refresh => cases hp

theorem isPending_of_settled (h : (w.settled? s signal).isSome = true) : w.isPending = true := by
  cases w with
  | switch id phase =>
    rw [isSome_settled?_switch] at h
    cases hp : phase.isReporting with
    | false => simp [Work.isPending, hp]
    | true => simp [Switch.verdict?_of_isReporting hp] at h
  | reload | recover => rfl
  | check | reconcile | refetch | refresh => cases h

theorem failure?_of_fault? {e : Error} (h : w.fault? s signal = some e) :
    w.failure? s signal = some e := by
  cases w with
  | switch id phase =>
    rw [failure?, Switch.resume_of_fault h]
    rfl
  | reload | recover => exact h
  | check | reconcile | refetch | refresh => cases h

end Work

/-! ### What is left of a good end -/

theorem Switch.lastSuccess_of_isOk {s : Shared} {id : String} {phase : Switch} {signal : Signal}
    (h : (resume s id phase signal).2.isOk = true) :
    (resume s id phase signal).1.state.snapshot.lastSuccess = some s.wall := by
  obtain ⟨outcome, hdone⟩ := Progress.eq_done_of_isOk h
  have heffect := (effect_resume s id phase signal).1
  rw [hdone] at heffect
  generalize (resume s id phase signal).1.state = state at heffect
  cases heffect with
  | none hok | check report hok => exact absurd rfl (hok outcome)
  | success => rfl

theorem Reload.lastSuccess_of_isOk {s : Shared} {phase : Reload} {signal : Signal}
    (h : (resume s phase signal).2.isOk = true) :
    (resume s phase signal).1.state.snapshot.lastSuccess = some s.wall := by
  obtain ⟨⟨⟩, hdone⟩ := Progress.eq_done_of_isOk h
  have heffect := (effect_resume s phase signal).1
  rw [hdone] at heffect
  generalize (resume s phase signal).1.state = state at heffect
  cases heffect with
  | none hok => exact absurd rfl hok
  | success => rfl

theorem Recovery.lastSuccess_of_isOk {s : Shared} {attempt : UInt32} {phase : Recovery} {signal : Signal}
    (h : (resume s attempt phase signal).2.isOk = true) :
    (resume s attempt phase signal).1.state.snapshot.lastSuccess = some s.wall := by
  obtain ⟨outcome, hdone⟩ := Progress.eq_done_of_isOk h
  have heffect := (effect_resume s attempt phase signal).1
  rw [hdone] at heffect
  generalize (resume s attempt phase signal).1.state = state at heffect
  cases heffect <;> rfl

namespace Controller

variable {c : Controller} {r r' : Running} {signal : Signal}

theorem lastSuccess_resume (h : r.work.completes c.shared signal = true) :
    (c.resume r signal).1.snapshot.lastSuccess = some c.shared.wall := by
  have hproceed : ∀ {φ ρ : Type} (point : φ → Work) (result : ρ → Result)
      (step : Shared × Progress φ ρ), step.1.state.snapshot.lastSuccess = some c.shared.wall →
        (c.proceed r point result step).1.snapshot.lastSuccess = some c.shared.wall := by
    intro φ ρ point result step hstep
    refine (state_proceed (·.snapshot.lastSuccess) (fun s a => ?_) ..).trans hstep
    rw [SyncState.snapshot_leave]
    split <;> rfl
  fun_cases resume c r signal with
  | case1 signal id phase hw =>
    rw [hw] at h
    exact hproceed _ _ _ (Switch.lastSuccess_of_isOk h)
  | case2 signal phase hw =>
    rw [hw] at h
    rw [reloadEnded_of_isOk h]
    exact hproceed _ _ _ (Reload.lastSuccess_of_isOk h)
  | case3 signal attempt phase hw =>
    rw [hw] at h
    exact hproceed _ _ _ (Recovery.lastSuccess_of_isOk h)
  | _ => simp_all [Work.completes]

/-- A workflow that is settled is pending no more, or is gone. -/
theorem not_isPending_of_settled (h : (r.work.settled? c.shared signal).isSome = true)
    (hr : r' ∈ (c.resume r signal).1.running) (hid : r'.id = r.id) : r'.work.isPending = false := by
  unfold resume at hr
  cases hw : r.work with
  | switch id phase =>
    rw [hw] at h hr
    obtain ⟨s', phase', asks, hresume, hw'⟩ := waiting_of_mem_proceed hr hid
    rw [Work.isSome_settled?_switch] at h
    simp [hw', Work.isPending, Switch.isReporting_of_resume hresume, h]
  | reload phase =>
    rw [hw] at h hr
    obtain ⟨s', phase', asks, hresume, -⟩ := waiting_of_mem_proceed hr hid
    have hwaiting := resume_of_reloadEnded hresume
    simp [Work.settled?, Work.completes, Work.fault?, hwaiting, Progress.isOk, Progress.error?] at h
  | recover attempt phase =>
    rw [hw] at h hr
    obtain ⟨s', phase', asks, hresume, -⟩ := waiting_of_mem_proceed hr hid
    simp [Work.settled?, Work.completes, Work.fault?, hresume, Progress.isOk, Progress.error?] at h
  | check | reconcile | refetch | refresh =>
    rw [hw] at h
    cases h

end Controller

/-- The end of a workflow that is recorded. -/
structure WorkflowEnd where
  number : Nat
  /-- What it failed with, unless it succeeded. -/
  error : Option Error

namespace Turn

def workflowEnd? (t : Turn) : Option WorkflowEnd :=
  (t.before.later.heard? t.event).bind fun (r, signal) =>
    (r.work.settled? t.before.later.shared signal).map fun error => ⟨r.id, error⟩

variable {t : Turn} {e : WorkflowEnd}

theorem workflowEnd?_of_hears {r : Running} {signal : Signal}
    (h : Hears t.before.later r t.event signal) : t.workflowEnd? =
      (r.work.settled? t.before.later.shared signal).map fun error => ⟨r.id, error⟩ := by
  simp [workflowEnd?, h.heard?]

theorem workflowEnd?_eq_some_iff : t.workflowEnd? = some e ↔ ∃ r signal, r.id = e.number ∧
    Hears t.before.later r t.event signal ∧
      r.work.settled? t.before.later.shared signal = some e.error := by
  constructor
  · intro h
    obtain ⟨⟨r, signal⟩, hheard, hend⟩ := Option.bind_eq_some_iff.mp h
    obtain ⟨error, hsettled, rfl⟩ := Option.map_eq_some_iff.mp hend
    exact ⟨r, signal, rfl, Controller.hears_of_heard? hheard, hsettled⟩
  · rintro ⟨r, signal, hid, hears, hsettled⟩
    rw [workflowEnd?_of_hears hears, hsettled, hid]
    rfl

theorem pending_of_workflowEnd? (h : t.workflowEnd? = some e) :
    (∃ r ∈ t.before.running, r.id = e.number ∧ r.work.isPending = true) ∧
      ∀ r ∈ t.after.running, r.id = e.number → r.work.isPending = false := by
  obtain ⟨r, signal, hid, hears, hsettled⟩ := workflowEnd?_eq_some_iff.mp h
  have hsome : (r.work.settled? t.before.later.shared signal).isSome = true := by rw [hsettled]; rfl
  refine ⟨⟨r, Controller.mem_of_find? hears.find?, hid, Work.isPending_of_settled hsome⟩, ?_⟩
  intro r' hr' hid'
  rw [after, Controller.step_of_hears hears] at hr'
  exact Controller.not_isPending_of_settled hsome hr' (hid'.trans hid.symm)

theorem snapshot_of_workflowEnd? (h : t.workflowEnd? = some e) : match e.error with
    | none => t.after.snapshot.lastSuccess = some t.before.later.shared.wall
    | some error => t.after.snapshot.switchError = some error.message := by
  obtain ⟨r, signal, -, hears, hsettled⟩ := workflowEnd?_eq_some_iff.mp h
  unfold Work.settled? at hsettled
  split at hsettled
  · next hcompletes =>
    rw [← Option.some.inj hsettled]
    dsimp only
    rw [after, Controller.step_of_hears hears]
    exact Controller.lastSuccess_resume hcompletes
  · obtain ⟨error, hfault, herror⟩ := Option.map_eq_some_iff.mp hsettled
    have hfailure : t.failure? = some error :=
      (failure?_of_hears hears).trans (Work.failure?_of_fault? hfault)
    rw [← herror]
    exact (shows_of_failure? hfailure).1

end Turn

/-! ### Over a run -/

/-- The ends of workflows that were recorded, in this order. -/
def workflowEnds (past : List Turn) : List WorkflowEnd := past.filterMap Turn.workflowEnd?

theorem workflowEnds_snoc (past : List Turn) (t : Turn) :
    workflowEnds (past ++ [t]) = workflowEnds past ++ t.workflowEnd?.toList := by
  simp [workflowEnds, List.filterMap_append, List.filterMap_cons]
  cases t.workflowEnd? <;> rfl

theorem mem_workflowEnds_snoc {past : List Turn} {t : Turn} {e : WorkflowEnd} :
    e ∈ workflowEnds (past ++ [t]) ↔ e ∈ workflowEnds past ∨ t.workflowEnd? = some e := by
  simp [workflowEnds_snoc]

inductive WorkflowFate (past : List Turn) (c : Controller) (n : Nat) : Prop
  | settled {error} (h : ⟨n, error⟩ ∈ workflowEnds past)
  | goesOn {r} (hr : r ∈ c.running) (hid : r.id = n) (hp : r.work.isPending = true)
  | brokeDown (h : ∃ t ∈ past, t.BreaksDown n)

namespace Controller

variable {timings : Timings} {past : List Turn} {t : Turn}

theorem pending_before (hs : t.before.Sound timings) {r : Running} (hr : r ∈ t.after.running)
    (hp : r.work.isPending = true) : r.id = t.before.nextId ∨
      ∃ r₀ ∈ t.before.running, r₀.id = r.id ∧ r₀.work.isPending = true := by
  have hsource := source_of_turn hs hr
  generalize t.outputs = outputs at hsource
  cases hsource with
  | @kept r₀ _ _ hr₀ => exact .inr ⟨r₀, hr₀, rfl, hp⟩
  | opened | joined => exact .inl rfl
  | @advanced r₀ signal s' work asks hears ha =>
    have hpending : (r₀.work.isPending && !(r₀.work.settled? _ signal).isSome) = true :=
      ha.isPending.symm.trans hp
    exact .inr ⟨r₀, mem_of_find? hears.find?, rfl, (Bool.and_eq_true_iff.mp hpending).1⟩

/-- A pending workflow is settled by a turn, goes on after it, or is taken along in it. -/
theorem fate_of_pending (hs : t.before.Sound timings) {r : Running} (hr : r ∈ t.before.running)
    (hp : r.work.isPending = true) : WorkflowFate (past ++ [t]) t.after r.id := by
  have hsettled : ∀ {signal}, Hears t.before.later r t.event signal →
      (r.work.settled? t.before.later.shared signal).isSome = true →
        WorkflowFate (past ++ [t]) t.after r.id := by
    intro signal hears hsome
    obtain ⟨error, herror⟩ := Option.isSome_iff_exists.mp hsome
    have hend : t.workflowEnd? = some ⟨r.id, error⟩ :=
      Turn.workflowEnd?_eq_some_iff.mpr ⟨r, signal, rfl, hears, herror⟩
    exact .settled (mem_workflowEnds_snoc.mpr (.inr hend))
  have hdetached : r.work.isDetached = true := by
    cases hw : r.work <;> simp_all [Work.isPending, Work.isDetached]
  cases fate_of_turn hs hr with
  | goesOn hkept => exact .goesOn hkept rfl hp
  | @advances signal s' work asks hears ha hkept =>
    by_cases hsome : (r.work.settled? t.before.later.shared signal).isSome = true
    · exact hsettled hears hsome
    · refine .goesOn hkept rfl ?_
      change work.isPending = true
      rw [ha.isPending, hp]
      simpa using hsome
  | ends hears he => exact hsettled hears (he.settled hp)
  | concludes hears hw => simp [hw, Work.isPending] at hp
  | @collapses slot request he ha =>
    exact .brokeDown (exists_mem_last ⟨request, slot, r, he, hs.find?_eq_some hr, ha⟩)
  | aborted hcalled =>
    obtain ⟨awaits, ho⟩ := hs.attended r hr hdetached
    have hnot := hcalled awaits ho
    rw [hdetached] at hnot
    cases hnot

/-- What is on record about the workflows of a controller is what has happened. -/
structure Registered (past : List Turn) (c : Controller) : Prop where
  pending : ∀ r ∈ c.running, r.work.isPending = true → ∀ e ∈ workflowEnds past, e.number ≠ r.id
  used : ∀ e ∈ workflowEnds past, e.number < c.nextId
  once : ((workflowEnds past).map WorkflowEnd.number).Nodup
  fates : ∀ t ∈ past, ∀ r ∈ t.after.running, r.work.isPending = true → WorkflowFate past c r.id

namespace Registered

theorem turn (hs : t.before.Sound timings) (h : Registered past t.before) :
    Registered (past ++ [t]) t.after where
  pending r hr hp e he hid := by
    rcases mem_workflowEnds_snoc.mp he with he | he
    · rcases pending_before hs hr hp with hnew | ⟨r₀, hr₀, hid₀, hp₀⟩
      · exact Nat.ne_of_lt (h.used e he) (hid.trans hnew)
      · exact h.pending r₀ hr₀ hp₀ e he (hid.trans hid₀.symm)
    · have hnot := (Turn.pending_of_workflowEnd? he).2 r hr hid.symm
      rw [hp] at hnot
      cases hnot
  used e he := by
    rcases mem_workflowEnds_snoc.mp he with he | he
    · exact Nat.lt_of_lt_of_le (h.used e he) (nextId_le_of_turn t)
    · obtain ⟨⟨r, hr, hid, -⟩, -⟩ := Turn.pending_of_workflowEnd? he
      exact hid ▸ Nat.lt_of_lt_of_le (hs.ids_lt r hr) (nextId_le_of_turn t)
  once := by
    rw [workflowEnds_snoc]
    cases he : t.workflowEnd? with
    | none => simpa using h.once
    | some e =>
      obtain ⟨⟨r, hr, hid, hp⟩, -⟩ := Turn.pending_of_workflowEnd? he
      simp only [Option.toList_some, List.map_append, List.map_cons, List.map_nil]
      refine List.nodup_append.mpr ⟨h.once, List.nodup_singleton _, ?_⟩
      intro n hn m hm hnm
      obtain ⟨e', he', rfl⟩ := List.mem_map.mp hn
      exact h.pending r hr hp e' he' ((hnm.trans (List.mem_singleton.mp hm)).trans hid.symm)
  fates u hu r hr hp := by
    rcases List.mem_append.mp hu with hu | hu
    · cases h.fates u hu r hr hp with
      | settled he => exact .settled (mem_workflowEnds_snoc.mpr (.inl he))
      | goesOn hr' hid hp' => exact hid ▸ fate_of_pending hs hr' hp'
      | brokeDown hbroke => exact .brokeDown (exists_mem_snoc hbroke t)
    · obtain rfl := List.mem_singleton.mp hu
      exact .goesOn hr rfl hp

theorem run (timings : Timings) (currentConfig : Option String) (es : List Event) :
    ((initial timings currentConfig).run es).1.Sound timings ∧
      Registered ((initial timings currentConfig).turns es) ((initial timings currentConfig).run es).1 := by
  refine turns_induction (P := fun past c => c.Sound timings ∧ Registered past c)
    ⟨sound_initial timings currentConfig, ?_⟩ ?_ es
  · refine ⟨?_, ?_, List.nodup_nil, ?_⟩ <;> simp [initial, workflowEnds]
  · rintro past t ⟨hs, h⟩
    exact ⟨hs.step t.event, h.turn hs⟩

end Registered

theorem idle_of_gone (hs : t.before.Sound timings) {r : Running} (hr : r ∈ t.before.running)
    (ha : r.work.activity?.isSome = true) (hgone : ∀ r' ∈ t.after.running, r'.id ≠ r.id) :
    t.after.state.activity = .idle := by
  by_contra hbusy
  obtain ⟨r', hr', ha'⟩ := (hs.step t.event).exists_holder hbusy
  -- Whatever holds an activity then was the workflow itself before.
  have hsame : ∀ r₀ ∈ t.before.running, r₀.id = r'.id → r₀.work.activity?.isSome = true → False := by
    intro r₀ hr₀ hid ha₀
    obtain rfl := hs.eq_of_activity? hr₀ hr ha₀ ha
    exact hgone r' hr' hid.symm
  have hholds : r'.work.activity?.isSome = true := by rw [ha']; rfl
  have hsource := source_of_turn hs hr'
  generalize t.outputs = outputs at hsource
  cases hsource with
  | @kept r₀ _ _ hr₀ => exact hsame r₀ hr₀ rfl hholds
  | opened onset hi =>
    have hnone : r.work.activity? = none := hs.activity?_eq_none hi hr
    rw [hnone] at ha
    cases ha
  | joined onset haside =>
    generalize t.event = event at haside
    cases haside <;> cases hholds
  | @advanced r₀ signal s' work asks hears hadvance =>
    refine hsame r₀ (mem_of_find? hears.find?) rfl ?_
    rw [← hadvance.activity?]
    exact hholds

end Controller
end CoreWarden
