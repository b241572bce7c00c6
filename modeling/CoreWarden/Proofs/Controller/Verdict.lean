import CoreWarden.Proofs.Controller.FailedSwitch
import CoreWarden.Proofs.Controller.Overlooked
import CoreWarden.Proofs.Controller.Told

/-!
What is shown of conflicts. A check is complete when the status query behind it is answered, whatever
work it belongs to; the report is shown as a whole, and nothing else writes what is shown. So it is
always one report that is shown, the one of the check that was completed last.
-/
namespace CoreWarden

open Controller (Hears)

namespace Snapshot

def verdict (s : Snapshot) : Bool × Conflict × List Instance :=
  (s.multiCoreWarning, s.conflict, s.runningCores)

theorem overlooks_verdict : Overlooks verdict where
  activity _ _ := rfl
  switchError _ _ := rfl
  attempts _ _ := rfl
  currentConfig _ _ := rfl
  lastSuccess _ _ := rfl
  lastReconcile _ _ := rfl
  skippedTicks _ _ := rfl

end Snapshot

namespace ConflictReport

def verdict (r : ConflictReport) : Bool × Conflict × List Instance :=
  (r.hasConflict, r.status, r.instances)

theorem running_of_mem_ofStatus {result : Except Error StatusReport} {i : Instance}
    (h : i ∈ (ofStatus result).instances) : i.running = true := by
  cases result with
  | ok report => exact (List.mem_filter.mp h).2
  | error e => cases h

theorem conflict_iff (result : Except Error StatusReport) :
    (ofStatus result).status = .conflict ↔ 1 < (ofStatus result).instances.length := by
  cases result with
  | ok report => by_cases h : 1 < report.running.length <;> simp [ofStatus, h]
  | error e => simp [ofStatus]

theorem instances_of_unknown {result : Except Error StatusReport} {reason : String}
    (h : (ofStatus result).status = .unknown reason) : (ofStatus result).instances = [] := by
  cases result with
  | ok report =>
    simp only [ofStatus] at h
    split at h <;> cases h
  | error e => rfl

end ConflictReport

/-! ### Which answers complete a check -/

theorem CacheKey.request_ne_status (key : CacheKey) : key.request ≠ .status := by
  cases key <;> simp [request]

theorem Refresh.status_not_mem_asks (r : Refresh) (slot : Nat) : (slot, .status) ∉ r.asks := by
  intro h
  obtain ⟨fetch, -, heq⟩ := List.mem_map.mp h
  exact fetch.1.1.request_ne_status (Prod.mk.inj heq).2

theorem Probe.status_not_mem_awaits (probe : Probe) (slot : Nat) : (slot, .status) ∉ probe.awaits := by
  cases probe <;> simp [awaits]

theorem Reload.status_not_mem_awaits (phase : Reload) (slot : Nat) : (slot, .status) ∉ phase.awaits := by
  cases phase with
  | restarting | pausing => simp [awaits]
  | probing probe => exact probe.status_not_mem_awaits slot
  | refreshing refresh => exact refresh.status_not_mem_asks slot

/-- The answer to a status query that a piece of work waits for. -/
def Work.checked? (work : Work) : Signal → Option (Except Error StatusReport)
  | .answer slot (.status result) => if (slot, .status) ∈ work.awaits then some result else none
  | _ => none

theorem Work.checked?_eq_none {w : Work} (h : ∀ slot, (slot, .status) ∉ w.awaits)
    (signal : Signal) : w.checked? signal = none := by
  unfold checked?
  split
  · exact if_neg (h _)
  · rfl

/-- What is shown of conflicts once a check is complete, if one is. -/
def Snapshot.verdictAfter (s : Snapshot) : Option (Except Error StatusReport) →
    Bool × Conflict × List Instance
  | some result => (ConflictReport.ofStatus result).verdict
  | none => s.verdict

theorem Switch.verdict_probed (s : Shared) (id : String)
    (progress : Progress Probe (Except Error Unit)) :
    (probed s id progress).1.state.snapshot.verdict = s.state.snapshot.verdict := by
  fun_cases probed s id progress <;> rfl

theorem Switch.verdict_resume (s : Shared) (id : String) (phase : Switch) (signal : Signal) :
    (phase.resume s id signal).1.state.snapshot.verdict =
      s.state.snapshot.verdictAfter ((Work.switch id phase).checked? signal) := by
  fun_cases resume s id phase signal with
  | case1 result report t h | case2 result report t h | case10 result report t h =>
    cases h
    simp [Work.checked?, Work.awaits, awaits, Snapshot.verdictAfter]
    rfl
  | case5 result | case13 e result =>
    simp [Work.checked?, Work.awaits, awaits, Snapshot.verdictAfter]
    rfl
  | case3 | case4 | case6 | case7 => rfl
  | case8 => exact verdict_probed ..
  | case9 probe signal =>
    rw [Work.checked?_eq_none (w := .switch id (.probing probe)) probe.status_not_mem_awaits]
    exact verdict_probed ..
  | case11 remaining result refresh t h =>
    obtain ⟨cache, rfl⟩ := Shared.startRefresh_eq h
    rfl
  | case12 remaining refresh signal refresh' t h =>
    obtain ⟨cache, rfl⟩ := Shared.resumeRefresh_eq h
    rw [Work.checked?_eq_none (w := .switch id (.refreshing remaining refresh))
      refresh.status_not_mem_asks]
    unfold refreshed
    split <;> rfl
  | case14 phase signal =>
    have hnone : (Work.switch id phase).checked? signal = none := by
      unfold Work.checked?
      split
      · cases phase <;> simp_all [Work.awaits, awaits]
      · rfl
    rw [hnone]
    rfl

theorem Reload.verdict_resume (s : Shared) (phase : Reload) (signal : Signal) :
    (phase.resume s signal).1.state.snapshot.verdict = s.state.snapshot.verdict := by
  have heffect := (effect_resume s phase signal).1
  generalize phase.resume s signal = step at heffect
  obtain ⟨t, progress⟩ := step
  generalize hstate : t.state = state at heffect
  cases heffect <;> rfl

theorem Recovery.verdict_succeed (s : Shared) (attempt : UInt32) (reloaded : Bool) :
    (succeed s attempt reloaded).1.state.snapshot.verdict = s.state.snapshot.verdict :=
  Snapshot.overlooks_verdict.setError s.state none

theorem Recovery.verdict_reloaded (step : Shared × Reload.Step) :
    (reloaded step).1.state.snapshot.verdict = step.1.state.snapshot.verdict := by
  fun_cases reloaded step with
  | case1 | case2 => rfl
  | case3 s e =>
    simp only [fail, Shared.state_onState, SyncState.snapshot_recordFailure]
    rfl

theorem Recovery.verdict_resume (s : Shared) (attempt : UInt32) (phase : Recovery) (signal : Signal) :
    (phase.resume s attempt signal).1.state.snapshot.verdict =
      s.state.snapshot.verdictAfter ((Work.recover attempt phase).checked? signal) := by
  fun_cases resume s attempt phase signal with
  | case1 result report t h =>
    cases h
    simp [Work.checked?, Work.awaits, awaits, Snapshot.verdictAfter]
    rfl
  | case2 result report t h hc refresh u k =>
    cases h
    obtain ⟨cache, rfl⟩ := Shared.startRefresh_eq k
    simp [Work.checked?, Work.awaits, awaits, Snapshot.verdictAfter]
    rfl
  | case3 reload signal =>
    rw [Work.checked?_eq_none (w := .recover attempt (.reloading reload))
      reload.status_not_mem_awaits, verdict_reloaded, Reload.verdict_resume]
    rfl
  | case4 result =>
    rw [verdict_succeed]
    simp [Work.checked?, Work.awaits, awaits, Snapshot.verdictAfter]
    rfl
  | case5 refresh signal refresh' t h =>
    obtain ⟨cache, rfl⟩ := Shared.resumeRefresh_eq h
    rw [Work.checked?_eq_none (w := .recover attempt (.refreshing refresh))
      refresh.status_not_mem_asks]
    unfold refreshed
    split
    · exact verdict_succeed ..
    · rfl
  | case6 phase signal =>
    have hnone : (Work.recover attempt phase).checked? signal = none := by
      unfold Work.checked?
      split
      · cases phase <;> simp_all [Work.awaits, awaits]
      · rfl
    rw [hnone]
    rfl

theorem Work.verdict_snapshotAfter (s : Shared) (work : Work) (signal : Signal) :
    (work.snapshotAfter s signal).verdict = s.state.snapshot.verdictAfter (work.checked? signal) := by
  cases work with
  | switch id phase => exact Switch.verdict_resume s id phase signal
  | recover attempt phase => exact Recovery.verdict_resume s attempt phase signal
  | check =>
    cases signal with
    | timeUp => rfl
    | answer slot answer =>
      by_cases hslot : slot = 0
      · subst hslot
        cases answer <;> simp [checked?, awaits, Snapshot.verdictAfter, snapshotAfter]
        rfl
      · cases answer <;> simp [checked?, awaits, Snapshot.verdictAfter, snapshotAfter, hslot]
  | reload phase =>
    rw [checked?_eq_none (w := .reload phase) phase.status_not_mem_awaits]
    rfl
  | refresh refresh =>
    rw [checked?_eq_none (w := .refresh refresh) refresh.status_not_mem_asks]
    rfl
  | reconcile tick =>
    rw [checked?_eq_none (by simp [awaits, Tick.awaits])]
    rfl
  | refetch key =>
    rw [checked?_eq_none (by simp [awaits, key.request_ne_status.symm])]
    rfl

/-! ### The last check -/

theorem Controller.reports_of_verdict {c : Controller} {report : ConflictReport}
    (h : c.snapshot.verdict = report.verdict) : c.Reports report := by
  obtain ⟨hwarning, hrest⟩ := Prod.mk.inj h
  exact ⟨hwarning, Prod.mk.inj hrest⟩

namespace Turn

def checked? (t : Turn) : Option (Except Error StatusReport) :=
  (t.before.later.heard? t.event).bind fun (r, signal) => r.work.checked? signal

theorem checked?_of_hears {t : Turn} {r : Running} {signal : Signal}
    (h : Hears t.before.later r t.event signal) : t.checked? = r.work.checked? signal := by
  simp [checked?, h.heard?]

/-- A turn in which a check is complete shows its report; no other turn touches what is shown. -/
theorem verdict_after (t : Turn) :
    t.after.snapshot.verdict = t.before.snapshot.verdictAfter t.checked? := by
  rw [t.observed Snapshot.overlooks_verdict]
  split
  · next r signal hheard =>
    rw [checked?_of_hears (Controller.hears_of_heard? hheard)]
    exact r.work.verdict_snapshotAfter t.before.later.shared signal
  · next hheard =>
    have hnone : t.checked? = none := by simp [checked?, hheard]
    rw [hnone]
    rfl

theorem reports_of_told {t : Turn} {id : Nat} {report : ConflictReport}
    (h : .ended id (.check report) ∈ t.outputs) : t.after.Reports report := by
  have htold := Controller.told_of_turn h
  generalize hresult : Result.check report = told at htold
  generalize he : t.event = e at htold
  cases htold with
  | @ended _ r signal s' _ ho hears hending =>
    generalize hw : r.work = work at hending
    cases hending with
    | check result =>
      cases hresult
      have hchecked : t.checked? = some result := by
        rw [checked?_of_hears (he ▸ hears), hw]
        simp [Work.checked?, Work.awaits]
      refine Controller.reports_of_verdict ?_
      rw [t.verdict_after, hchecked]
      rfl
    | switch | reload | recover | refetched | notRefetched => cases hresult
  | refused hrefusal =>
    cases hresult
    cases hrefusal
  | @collapsed r =>
    generalize r.work = work at hresult
    cases work <;> cases hresult
  | exhausted | skipped | concluded => cases hresult

end Turn

def lastCheck? (past : List Turn) : Option (Except Error StatusReport) :=
  past.reverse.findSome? Turn.checked?

theorem lastCheck?_snoc (past : List Turn) (t : Turn) :
    lastCheck? (past ++ [t]) = t.checked?.or (lastCheck? past) := by
  rw [lastCheck?, List.reverse_append, List.findSome?_append]
  simp [lastCheck?]

namespace Controller

theorem verdict_run (c : Controller) (es : List Event) :
    (c.run es).1.snapshot.verdict = c.snapshot.verdictAfter (lastCheck? (c.turns es)) := by
  refine turns_induction (P := fun past c' =>
    c'.snapshot.verdict = c.snapshot.verdictAfter (lastCheck? past)) rfl ?_ es
  intro past t h
  rw [t.verdict_after, lastCheck?_snoc]
  cases t.checked? with
  | some result => rfl
  | none => exact h

/-- What is shown of conflicts is consistent in every state. There is a warning if and only if there is
a conflict, and that is if more than one process is shown; all processes shown are alive, and none is
shown when nobody knows. All of it is the report of the check that was completed last: the processes of
the answer that are alive, in their order, or the reason why there was no answer; and who called for a
check was told the report that was shown then. -/
theorem conflict_fields_agree (timings : Timings) (currentConfig : Option String)
    (es : List Event) :
    let c := ((initial timings currentConfig).run es).1
    let past := (initial timings currentConfig).turns es
    let s := c.snapshot
    (s.multiCoreWarning = true ↔ s.conflict = .conflict) ∧
    (s.conflict = .conflict ↔ 1 < s.runningCores.length) ∧
    (∀ i ∈ s.runningCores, i.running = true) ∧
    (∀ reason, s.conflict = .unknown reason → s.runningCores = []) ∧
    (lastCheck? past = none →
      s.multiCoreWarning = false ∧ s.conflict = .noConflict ∧ s.runningCores = []) ∧
    (∀ report, lastCheck? past = some (.ok report) →
      c.Reports (.ofStatus (.ok report)) ∧ s.runningCores = report.instances.filter (·.running) ∧
        (s.conflict = .conflict ↔ 1 < report.runningCount)) ∧
    (∀ e, lastCheck? past = some (.error e) →
      c.Reports (.ofStatus (.error e)) ∧ s.conflict = .unknown e.message ∧ s.runningCores = []) ∧
    ∀ t ∈ past, ∀ id report, .ended id (.check report) ∈ t.outputs → t.after.Reports report := by
  intro c past s
  have hverdict : s.verdict = (Snapshot.initial currentConfig).verdictAfter (lastCheck? past) :=
    (initial timings currentConfig).verdict_run es
  -- Before any check it is as if the process manager had answered that there are no processes.
  have hreports : c.Reports (.ofStatus ((lastCheck? past).getD (.ok ⟨[], .null, .unknown⟩))) := by
    apply reports_of_verdict
    rw [show c.snapshot.verdict = _ from hverdict]
    cases lastCheck? past <;> rfl
  refine ⟨?_, ?_, ?_, ?_, ?_, ?_, ?_, fun t _ id report => Turn.reports_of_told⟩
  · rw [hreports.1, hreports.2.1]
    simp [ConflictReport.hasConflict]
  · rw [hreports.2.1, hreports.2.2]
    exact ConflictReport.conflict_iff _
  · rw [hreports.2.2]
    exact fun i => ConflictReport.running_of_mem_ofStatus
  · rw [hreports.2.1, hreports.2.2]
    exact fun reason => ConflictReport.instances_of_unknown
  · intro hlast
    rw [hlast] at hreports
    exact hreports
  · intro report hlast
    rw [hlast] at hreports
    exact ⟨hreports, hreports.2.2, hreports.2.1 ▸ ConflictReport.conflict_iff (.ok report)⟩
  · intro e hlast
    rw [hlast] at hreports
    exact ⟨hreports, hreports.2⟩

end Controller

end CoreWarden
