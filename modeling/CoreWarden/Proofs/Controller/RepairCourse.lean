import CoreWarden.Proofs.Controller.RepairScript
import CoreWarden.Proofs.Controller.SwitchCourse
import CoreWarden.Proofs.Controller.WorkflowEnds

/-!
The course of a reload or of a recovery in a run. Whatever happens beside it, it follows its script; in
the turn in which the script is over its end is recorded, as a success or with its error.
-/
namespace CoreWarden

open Controller (Hears)
open RepairScript (Script)
open Time (pauseEnd)

/-! ### Work that repairs the core -/

namespace Reload.Reached

variable {timings : Timings} {asked now now' : Nat} {phase : Reload} {notes : List Note}

theorem later (h : phase.Reached timings asked now notes) (hn : ∀ due, phase.due? = some due → now' ≤ due) :
    phase.Reached timings asked now' notes := by
  cases h with
  | restarting => exact .restarting
  | pausing => exact .pausing (hn _ rfl)
  | probing h => exact .probing (h.later (hn _ rfl))
  | refreshing h hr => exact .refreshing h hr

theorem le_due (h : phase.Reached timings asked now notes) {due : Nat} (hd : phase.due? = some due) :
    now ≤ due := by
  cases h with
  | pausing hn =>
    cases hd
    exact hn
  | probing h =>
    cases hd
    exact h.le_due
  | restarting | refreshing => cases hd

end Reload.Reached

namespace Recovery.Reached

variable {timings : Timings} {asked now now' : Nat} {phase : Recovery} {notes : List Note}

theorem later (h : phase.Reached timings asked now notes) (hn : ∀ due, phase.due? = some due → now' ≤ due) :
    phase.Reached timings asked now' notes := by
  cases h with
  | checking => exact .checking
  | reloading hc hs => exact .reloading hc (hs.later hn)
  | rechecking hc hs => exact .rechecking hc hs
  | refreshing hc hr => exact .refreshing hc hr

theorem le_due (h : phase.Reached timings asked now notes) {due : Nat} (hd : phase.due? = some due) :
    now ≤ due := by
  cases h with
  | reloading hc hs => exact hs.le_due hd
  | checking | rechecking | refreshing => cases hd

end Recovery.Reached

namespace Work

/-- What a piece of work has behind it that repairs the core for a call. -/
inductive Mends (timings : Timings) (asked : Nat) (attempt : UInt32) (now : Nat) :
    Call → Work → List Note → Prop
  | reload {phase notes} (h : Reload.Reached timings asked now phase notes) :
      Mends timings asked attempt now .reload (.reload phase) notes
  | recover {phase notes} (h : Recovery.Reached timings asked now phase notes) :
      Mends timings asked attempt now .recover (.recover attempt phase) notes

namespace Mends

variable {timings : Timings} {asked now now' : Nat} {attempt : UInt32} {call : Call} {w : Work}
  {notes : List Note}

theorem isDetached (h : w.Mends timings asked attempt now call notes) : w.isDetached = true := by
  cases h <;> rfl

theorem later (h : w.Mends timings asked attempt now call notes)
    (hn : ∀ due, w.due? = some due → now' ≤ due) : w.Mends timings asked attempt now' call notes := by
  cases h with
  | reload h => exact .reload (h.later hn)
  | recover h => exact .recover (h.later hn)

theorem le_due (h : w.Mends timings asked attempt now call notes) {due : Nat} (hd : w.due? = some due) :
    now ≤ due := by
  cases h with
  | reload h | recover h => exact h.le_due hd

end Mends

/-- A signal leads a repair on to another point. -/
inductive MovesOn (s : Shared) : Work → Work → Prop
  | reload {phase phase' notes asks} (h : Reload.Moves s phase notes (.waiting phase' asks)) :
      MovesOn s (.reload phase) (.reload phase')
  | recover {attempt phase phase' notes asks}
      (h : Recovery.Moves s attempt phase notes (.waiting phase' asks)) :
      MovesOn s (.recover attempt phase) (.recover attempt phase')

end Work

/-! ### The end of a repair -/

/-- The error that a call ends with. -/
def Result.failure? : Result → Option Error
  | switch (.error e) | reload (.error e) | recover (.error e) | refetch (.error e) => some e
  | _ => none

namespace Work

variable {s : Shared} {signal : Signal}

theorem settled?_reload_of_done {phase : Reload} {result : Except Error Unit}
    (h : (phase.resume s signal).2 = .done result) :
    (reload phase).settled? s signal = some (Result.reload result).failure? := by
  cases result <;> simp [settled?, completes, fault?, h, Progress.isOk, Progress.error?, Result.failure?]

theorem settled?_recover_of_done {attempt : UInt32} {phase : Recovery}
    {result : Except Error RecoveryOutcome} (h : (phase.resume s attempt signal).2 = .done result) :
    (recover attempt phase).settled? s signal = some (Result.recover result).failure? := by
  cases result <;> simp [settled?, completes, fault?, h, Progress.isOk, Progress.error?, Result.failure?]

theorem succeeds_of_completes {w : Work} (h : w.completes s signal = true) :
    w.succeeds s signal = true := by
  cases w with
  | switch | reload => exact h
  | recover => exact Bool.or_eq_true_iff.mpr (.inl h)
  | check | reconcile | refetch | refresh => cases h

theorem settled?_eq_none_iff {w : Work} : w.settled? s signal = some none ↔ w.completes s signal = true := by
  unfold settled?
  split
  · next h => simp [h]
  · next h => simp [h]

theorem fault?_of_settled {w : Work} {e : Error} (h : w.settled? s signal = some (some e)) :
    w.fault? s signal = some e := by
  unfold settled? at h
  split at h
  · cases h
  · simpa using h

end Work

namespace Turn

variable {timings : Timings} {t : Turn} {r : Running} {signal : Signal}

def Records (t : Turn) (timings : Timings) : Option Error → Prop
  | none => t.after.snapshot.lastSuccess = some t.before.later.shared.wall ∧
      t.after.state.reset.due? = some (pauseEnd t.now timings.attemptReset.toNat)
  | some e => t.after.snapshot.switchError = some e.message ∧ t.after.state.reset.isPending = false

/-- The work under a number is over, with this result, and the attempts are as many as before. -/
structure EndsRepair (t : Turn) (timings : Timings) (n ended : Nat) (result : Result) : Prop where
  moment : t.now = ended
  stands : ∃ r ∈ t.before.running, r.id = n
  gone : ∀ r ∈ t.after.running, r.id ≠ n
  attempts : t.after.snapshot.recoveryAttempts = t.before.snapshot.recoveryAttempts
  records : t.Records timings result.failure?

theorem attempts_of_hears (h : Hears t.before.later r t.event signal) :
    t.after.snapshot.recoveryAttempts = t.before.snapshot.recoveryAttempts := by
  cases t.tally with
  | kept _ _ hk => exact hk.1
  | succeeded _ _ _ ha => exact ha
  | entered hentry =>
    obtain ⟨he, -⟩ := hentry
    generalize t.event = e at h he
    subst he
    cases h
  | cleared _ hclear =>
    unfold clears at hclear
    generalize t.event = e at h hclear
    cases h <;> cases hclear

theorem records_of_settled (h : Hears t.before.later r t.event signal) {failure : Option Error}
    (hsettled : r.work.settled? t.before.later.shared signal = some failure)
    (hlimits : t.before.limits.2 = timings.attemptReset.toNat) : t.Records timings failure := by
  have hend : t.workflowEnd? = some ⟨r.id, failure⟩ :=
    workflowEnd?_eq_some_iff.mpr ⟨r, signal, rfl, h, hsettled⟩
  have hshown := snapshot_of_workflowEnd? hend
  cases failure with
  | none =>
    have hsucceeds := Work.succeeds_of_completes (Work.settled?_eq_none_iff.mp hsettled)
    have hdue := due?_of_succeeds (succeeds_of_hears h hsucceeds)
    rw [hlimits] at hdue
    exact ⟨hshown, hdue⟩
  | some e =>
    have hfailure : t.failure? = some e :=
      (failure?_of_hears h).trans (Work.failure?_of_fault? (Work.fault?_of_settled hsettled))
    refine ⟨hshown, ?_⟩
    rw [(shows_of_failure? hfailure).2]
    rfl

end Turn

/-! ### The turns of a repair -/

theorem Controller.snd_reloadEnded (step : Shared × Reload.Step) : (reloadEnded step).2 = step.2 := by
  unfold reloadEnded
  split <;> rfl

namespace Turn

variable {timings : Timings} {t : Turn} {r : Running} {asked : Nat} {attempt : UInt32} {call : Call}
  {notes : List Note} {signal : Signal}

inductive Repairs (t : Turn) (r : Running) (timings : Timings) (asked : Nat) (attempt : UInt32)
    (call : Call) (notes : List Note) (signal : Signal) : Prop
  | goesOn {work} (hr : { r with work } ∈ t.after.running)
      (h : work.Mends timings asked attempt t.after.now call (notes ++ t.notes r.id))
      (hm : r.work.MovesOn t.before.later.shared work)
  | ends {result} (hgone : ∀ r' ∈ t.after.running, r'.id ≠ r.id)
      (h : Script pauseEnd timings asked attempt call (notes ++ t.notes r.id) t.now result)
      (ho : t.outputs = Controller.report r result)
      (hsettled : r.work.settled? t.before.later.shared signal = some result.failure?)

theorem repairs_of_proceeds {φ ρ : Type} {point : φ → Work} {result : ρ → Result} {step : Progress φ ρ}
    (hears : Hears t.before.later r t.event signal) (h : t.Proceeds r point result step)
    (hw : ∀ phase asks, step = .waiting phase asks →
      (point phase).Mends timings asked attempt t.now call
        (notes ++ ((t.taken? r.id).toList.map fun a => .answered t.now a.1 a.2) ++
          asks.map (.asked t.now ·.2)) ∧
      r.work.MovesOn t.before.later.shared (point phase))
    (hd : ∀ value, step = .done value →
      Script pauseEnd timings asked attempt call
        (notes ++ (t.taken? r.id).toList.map fun a => .answered t.now a.1 a.2) t.now (result value) ∧
      r.work.settled? t.before.later.shared signal = some (result value).failure?) :
    t.Repairs r timings asked attempt call notes signal := by
  cases h with
  | waiting hr ha =>
    obtain ⟨hmends, hmoves⟩ := hw _ _ rfl
    refine .goesOn hr ?_ hmoves
    rw [Turn.notes, ha, now_of_hears hears, List.map_map, ← List.append_assoc]
    exact hmends
  | done hgone ho =>
    obtain ⟨hscript, hsettled⟩ := hd _ rfl
    refine .ends hgone ?_ ho hsettled
    rw [Turn.notes, asks_of_report ho, List.map_nil, List.append_nil]
    exact hscript

theorem repairs_of_hears (hserved : t.IsServed r.id)
    (h : r.work.Mends t.before.later.shared.timings asked attempt t.now call notes)
    (hears : Hears t.before.later r t.event signal) :
    t.Repairs r t.before.later.shared.timings asked attempt call notes signal := by
  have hawaited := awaited_of_hears hserved hears
  obtain ⟨id, origin, work⟩ := r
  cases h with
  | @reload phase _ h =>
    have hmoves := Reload.moves_of_awaited (s := t.before.later.shared) hawaited
    have hleads := h.moves hmoves
    -- A reload on its own records its failure itself; within a recovery the recovery does.
    have hproceeds : t.Proceeds _ .reload .reload _ := proceeds_of_hears hears rfl
    rw [Controller.snd_reloadEnded] at hproceeds
    refine repairs_of_proceeds hears hproceeds (fun phase' asks hstep => ?_) (fun value hstep => ?_) <;>
      rw [hstep] at hleads
    · exact ⟨.reload hleads, .reload (hstep ▸ hmoves)⟩
    · exact ⟨.reload hleads, Work.settled?_reload_of_done hstep⟩
  | @recover phase _ h =>
    have hmoves : phase.Moves t.before.later.shared attempt _ _ := Recovery.moves_of_awaited hawaited
    have hleads := h.moves hmoves
    have hproceeds : t.Proceeds _ (.recover attempt) .recover _ := proceeds_of_hears hears rfl
    refine repairs_of_proceeds hears hproceeds (fun phase' asks hstep => ?_) (fun value hstep => ?_) <;>
      rw [hstep] at hleads
    · exact ⟨.recover hleads, .recover (hstep ▸ hmoves)⟩
    · exact ⟨.recover hleads, Work.settled?_recover_of_done hstep⟩

end Turn

/-! ### In a run -/

/-- How a repair stands after some turns: it has followed its script so far, or to the end; then the end
is on record, and its caller has been told the result unless he has gone. -/
inductive Mending (timings : Timings) (asked : Nat) (attempt : UInt32) (call : Call) (n : Nat)
    (past : List Turn) (c : Controller) : Prop
  | goesOn {r} (hr : r ∈ c.running) (hid : r.id = n)
      (h : r.work.Mends timings asked attempt c.now call (transcript past n))
      (hc : r.origin = .caller true ∨ ∃ t ∈ past, t.event = .abandon n)
  | ended {result ended t} (hgone : ∀ r ∈ c.running, r.id ≠ n)
      (h : Script pauseEnd timings asked attempt call (transcript past n) ended result)
      (ht : t ∈ past) (he : t.EndsRepair timings n ended result)
      (hc : .ended n result ∈ t.outputs ∨ ∃ u ∈ past, u.event = .abandon n)

namespace Mending

variable {timings : Timings} {asked n : Nat} {attempt : UInt32} {call : Call} {past : List Turn} {t : Turn}

theorem hears {r : Running} {signal : Signal} (hs : t.before.Sound timings)
    (hlimits : t.before.limits.2 = timings.attemptReset.toNat) (hserved : t.IsServed r.id)
    (h : r.work.Mends timings asked attempt t.now call (transcript past r.id))
    (hc : r.origin = .caller true ∨ ∃ t ∈ past, t.event = .abandon r.id)
    (hears : Hears t.before.later r t.event signal) :
    Mending timings asked attempt call r.id (past ++ [t]) t.after := by
  obtain rfl := hs.later.timings_eq
  have hgone := fun h : ∃ t ∈ past, t.event = .abandon r.id => exists_mem_snoc h t
  cases t.repairs_of_hears hserved h hears with
  | goesOn hr hmends =>
    refine .goesOn hr rfl ?_ (hc.imp_right hgone)
    rw [transcript_snoc]
    exact hmends
  | ends hafter hscript ho hsettled =>
    have hends : t.EndsRepair _ r.id t.now _ :=
      ⟨rfl, ⟨r, Controller.mem_of_find? hears.find?, rfl⟩, hafter, Turn.attempts_of_hears hears,
        Turn.records_of_settled hears hsettled hlimits⟩
    rw [← transcript_snoc] at hscript
    refine .ended hafter hscript (List.mem_append_right _ (List.mem_singleton.mpr rfl)) hends
      (hc.imp (fun hwaits => ?_) hgone)
    rw [ho, Controller.report, hwaits]
    exact List.mem_singleton.mpr rfl

theorem deaf {r : Running} (hs : t.before.Sound timings) (hr : r ∈ t.before.running)
    (hserved : t.IsServed r.id)
    (h : r.work.Mends timings asked attempt t.now call (transcript past r.id))
    (hc : r.origin = .caller true ∨ ∃ t ∈ past, t.event = .abandon r.id)
    (hdeaf : ∀ signal, ¬ Hears t.before.later r t.event signal) :
    Mending timings asked attempt call r.id (past ++ [t]) t.after := by
  obtain ⟨origin, hr'⟩ := Turn.goes_on_of_deaf hs hr h.isDetached hserved hdeaf
  refine .goesOn hr' rfl ?_ (Turn.waits_or_gone hs hr h.isDetached hr' hc)
  rw [transcript_snoc, Turn.notes_of_deaf_work hs hr hserved hdeaf, List.append_nil]
  exact h.later fun due hdue => Turn.now_le_due hs hr hdue (h.le_due hdue)

theorem turn (hs : t.before.Sound timings) (hlimits : t.before.limits.2 = timings.attemptReset.toNat)
    (hn : n < t.before.nextId) (hserved : t.IsServed n)
    (h : Mending timings asked attempt call n past t.before) :
    Mending timings asked attempt call n (past ++ [t]) t.after := by
  cases h with
  | @goesOn r hr hid h hc =>
    subst hid
    by_cases hheard : ∃ signal, Hears t.before.later r t.event signal
    · obtain ⟨signal, hears⟩ := hheard
      exact Mending.hears hs hlimits hserved h hc hears
    · exact Mending.deaf hs hr hserved h hc (not_exists.mp hheard)
  | ended hgone h ht he hc =>
    have hnotes : t.notes n = [] :=
      Turn.notes_of_deaf hserved hn fun r signal hid hears =>
        hgone r (Controller.mem_of_find? hears.find?) hid
    refine .ended (Turn.gone_of_gone hs hn hgone) ?_ (List.mem_append_left _ ht) he
      (hc.imp_right (exists_mem_snoc · t))
    rw [transcript_snoc, hnotes, List.append_nil]
    exact h

theorem run {c : Controller} (hs : c.Sound timings) (hlimits : c.limits.2 = timings.attemptReset.toNat)
    (hn : n < c.nextId) {es : List Event} (hserved : ∀ t ∈ c.turns es, t.IsServed n)
    (h : Mending timings asked attempt call n past c) :
    Mending timings asked attempt call n (past ++ c.turns es) (c.run es).1 := by
  have hrun : (c.run es).1.Sound timings ∧ (c.run es).1.limits.2 = timings.attemptReset.toNat ∧
      n < (c.run es).1.nextId ∧
        Mending timings asked attempt call n (past ++ c.turns es) (c.run es).1 := by
    refine Controller.turns_induction_from
      (P := fun past c => c.Sound timings ∧ c.limits.2 = timings.attemptReset.toNat ∧ n < c.nextId ∧
        Mending timings asked attempt call n past c) ⟨hs, hlimits, hn, h⟩ ?_ hserved
    rintro past t hserved ⟨hs, hlimits, hn, h⟩
    exact ⟨hs.step t.event, (congrArg Prod.snd (t.before.limits_step t.event)).trans hlimits,
      Nat.lt_of_lt_of_le hn (Controller.nextId_le_of_turn t), h.turn hs hlimits hn hserved⟩
  exact hrun.2.2.2

end Mending

end CoreWarden
