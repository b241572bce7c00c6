import CoreWarden.Proofs.Controller.FailedSwitch
import CoreWarden.Proofs.Controller.Guise
import CoreWarden.Proofs.Controller.SwitchScript

/-!
The course of a switch in a run. Whatever happens beside it, a switch whose calls are answered follows its
script, and it returns.
-/
namespace CoreWarden

open Controller (Hears)
open SwitchScript (Whole)
open Time (pauseEnd)

/-! ### Time and the moments that are waited for -/

theorem Switch.Reached.later {timings : Timings} {id : String} {now now' : Nat} {phase : Switch}
    {notes : List Note} (h : Reached timings id now phase notes)
    (hn : ∀ due, phase.due? = some due → now' ≤ due) : Reached timings id now' phase notes := by
  cases h with
  | checking => exact .checking
  | restarting hc => exact .restarting hc
  | resolving hc => exact .resolving hc (hn _ rfl)
  | rechecking hc => exact .rechecking hc
  | switching h => exact .switching h
  | pausing h => exact .pausing h (hn _ rfl)
  | probing h hw => exact .probing h (hw.later (hn _ rfl))
  | confirming h => exact .confirming h
  | storing h => exact .storing h
  | refreshing h hr => exact .refreshing h hr
  | reporting h => exact .reporting h

theorem Switch.Reached.le_due {timings : Timings} {id : String} {now due : Nat} {phase : Switch}
    {notes : List Note} (h : Reached timings id now phase notes) (hd : phase.due? = some due) :
    now ≤ due := by
  cases h with
  | resolving _ hn | pausing _ hn =>
    cases hd
    exact hn
  | probing _ hw =>
    cases hd
    exact hw.le_due
  | _ => cases hd

/-! ### Callers who have gone -/

/-- A caller has gone in an event in which he goes away, and in no other one. -/
theorem Controller.abandoned_of_act {c : Controller} {e : Event} {out : Controller × List Output}
    (h : Act c e out) {r : Running} (hr : r ∈ out.1.running) (ho : r.origin = .caller false) :
    e = .abandon r.id ∨ ∃ r₀ ∈ c.running, r₀.id = r.id ∧ r₀.origin = .caller false := by
  have hkept : r ∈ c.running →
      e = .abandon r.id ∨ ∃ r₀ ∈ c.running, r₀.id = r.id ∧ r₀.origin = .caller false :=
    fun hmem => .inr ⟨r, hmem, rfl, ho⟩
  cases h with
  | nothing | refused | exhausted | skippedCall | droppedRefresh | expired | passed => exact hkept hr
  | skippedTick onset =>
    obtain ⟨-, hrun, -, -⟩ := onset.frame
    exact hkept (hrun ▸ hr)
  | begins onset | joins onset =>
    obtain ⟨-, hrun, -, -⟩ := onset.frame
    simp only [launch, hrun, List.mem_append, List.mem_singleton] at hr
    rcases hr with hr | rfl
    · exact hkept hr
    · cases onset <;> cases ho
  | resumed hs hresumed =>
    cases hresumed with
    | nothing => exact hkept hr
    | advance =>
      obtain ⟨r₀, hr₀, rfl⟩ := List.mem_map.mp hr
      refine .inr ⟨r₀, hr₀, ?_, ?_⟩
      · split <;> rfl
      · revert ho
        split <;> exact id
    | ending => exact hkept (mem_of_mem_drop (c := { c with shared := _ }) hr)
    | conclusion => exact hkept (mem_of_mem_conclude (mem_of_mem_drop hr))
  | @collapsed r₀ =>
    have hmem : r ∈ (c.stopTicker r₀.origin).running := mem_of_mem_drop hr
    exact hkept (c.running_stopTicker _ ▸ hmem)
  | detached id =>
    obtain ⟨r₀, hr₀, rfl⟩ := List.mem_map.mp hr
    by_cases hid : r₀.id = id
    · exact .inl (by simp [hid])
    · exact .inr ⟨r₀, hr₀, by simp [hid], by simpa [hid] using ho⟩
  | abandoned => exact hkept (mem_of_mem_drop hr)
  | started => exact hkept (c.running_startBackground ▸ hr)
  | shutDown => exact hkept (mem_of_mem_shutdown hr)
  | visibility => exact hkept (mem_of_mem_changeVisibility hr)

namespace Turn

variable {timings : Timings} {t : Turn} {r : Running} {id : String} {phase : Switch}

theorem now_le_due (hs : t.before.Sound timings) (hr : r ∈ t.before.running) {due : Nat}
    (hd : r.work.due? = some due) (hn : t.now ≤ due) : t.after.now ≤ due := by
  have hdue : t.before.later.due? (.work r.id) = some due := by
    simp [Controller.due?, hs.later.find?_eq_some hr, hd]
  have htimer : .work r.id ∈ t.before.later.timers :=
    List.mem_append_right _ (List.mem_map_of_mem hr)
  exact Controller.now_le_of_dues (List.mem_filterMap.mpr ⟨_, htimer, hdue⟩) hn

end Turn

/-- How a switch stands after some turns: it has obeyed its script so far, or to the end, and its caller
has been told the result unless he has gone. -/
inductive Obeys (timings : Timings) (id : String) (n : Nat) (past : List Turn) (c : Controller) : Prop
  | goesOn {r phase} (hr : r ∈ c.running) (hid : r.id = n) (hw : r.work = .switch id phase)
      (h : phase.Reached timings id c.now (transcript past n))
      (hc : r.origin = .caller true ∨ ∃ t ∈ past, t.event = .abandon n)
  | ended {result} (hgone : ∀ r ∈ c.running, r.id ≠ n)
      (h : Whole pauseEnd timings id (transcript past n) result)
      (hc : (∃ t ∈ past, .ended n (.switch result) ∈ t.outputs) ∨ ∃ t ∈ past, t.event = .abandon n)

namespace Turn

variable {timings : Timings} {t : Turn} {r : Running} {n : Nat} {id : String} {phase : Switch}

theorem goes_on_of_deaf (hs : t.before.Sound timings) (hr : r ∈ t.before.running)
    (hd : r.work.isDetached = true) (hserved : t.IsServed r.id)
    (hdeaf : ∀ signal, ¬ Hears t.before.later r t.event signal) :
    ∃ origin, { r with origin } ∈ t.after.running := by
  cases Controller.fate_of_turn hs hr with
  | goesOn h => exact ⟨_, h⟩
  | advances hears | ends hears | concludes hears => exact absurd hears (hdeaf _)
  | collapses he ha =>
    exact absurd he (not_collapsed_of_isServed hserved (hs.find?_eq_some hr) ha)
  | aborted h =>
    obtain ⟨awaits, ho⟩ := hs.attended r hr hd
    rw [h awaits ho] at hd
    cases hd

theorem notes_of_deaf_work (hs : t.before.Sound timings) (hr : r ∈ t.before.running)
    (hserved : t.IsServed r.id) (hdeaf : ∀ signal, ¬ Hears t.before.later r t.event signal) :
    t.notes r.id = [] := by
  refine notes_of_deaf hserved (hs.ids_lt r hr) fun r' signal hid hears => ?_
  obtain rfl := hs.eq_of_id (Controller.mem_of_find? hears.find?) hr hid
  exact hdeaf signal hears

/-- As long as a workflow goes on its caller waits for it, unless he has gone. -/
theorem waits_or_gone (hs : t.before.Sound timings) (hr : r ∈ t.before.running)
    (hd : r.work.isDetached = true) {origin : Origin} (hr' : { r with origin } ∈ t.after.running)
    {past : List Turn} (hc : r.origin = .caller true ∨ ∃ u ∈ past, u.event = .abandon r.id) :
    origin = .caller true ∨ ∃ u ∈ past ++ [t], u.event = .abandon r.id := by
  rcases hc with hwaits | hgone
  · obtain ⟨awaits, ho⟩ := (hs.step t.event).attended _ hr' hd
    cases awaits with
    | true => exact .inl ho
    | false =>
      rcases Controller.abandoned_of_act (Controller.act_step t.before t.event) hr' ho with
        he | ⟨r₀, hr₀, hid₀, ho₀⟩
      · exact .inr (exists_mem_last he)
      · obtain rfl := hs.eq_of_id hr₀ hr hid₀
        cases hwaits.symm.trans ho₀
  · exact .inr (exists_mem_snoc hgone t)

/-- What becomes of work that hears something: it stands at another point, or it has a result. -/
inductive Proceeds (t : Turn) (r : Running) {φ ρ : Type} (point : φ → Work) (result : ρ → Result) :
    Progress φ ρ → Prop
  | waiting {phase asks} (hr : { r with work := point phase } ∈ t.after.running)
      (ha : t.asks r.id = asks.map Prod.snd) : Proceeds t r point result (.waiting phase asks)
  | done {value} (hgone : ∀ r' ∈ t.after.running, r'.id ≠ r.id)
      (ho : t.outputs = Controller.report r (result value)) : Proceeds t r point result (.done value)

theorem proceeds_of_hears {φ ρ : Type} {point : φ → Work} {result : ρ → Result}
    {step : Shared × Progress φ ρ} {signal : Signal} (h : Hears t.before.later r t.event signal)
    (hresume : t.before.later.resume r signal = t.before.later.proceed r point result step) :
    t.Proceeds r point result step.2 := by
  have hstep := (Controller.step_of_hears h).trans hresume
  have hafter : t.after = _ := congrArg Prod.fst hstep
  obtain ⟨s', progress⟩ := step
  cases progress with
  | waiting phase asks =>
    refine .waiting ?_ (asks_of_outputs (congrArg Prod.snd hstep))
    rw [hafter]
    exact Controller.mem_replaceWork (c := { t.before.later with shared := s' })
      (Controller.mem_of_find? h.find?) _
  | done value =>
    refine .done (fun r' hr' hid => ?_) (congrArg Prod.snd hstep)
    rw [hafter] at hr'
    simpa [hid] using (List.mem_filter.mp hr').2

inductive MovesSwitch (t : Turn) (r : Running) (id : String) (phase : Switch) (notes : List Note) : Prop
  | goesOn {phase' asks} (hm : phase.Moves t.before.later.shared id notes (.waiting phase' asks))
      (hnow : t.after.now = t.now) (hr : { r with work := .switch id phase' } ∈ t.after.running)
      (ha : t.asks r.id = asks.map Prod.snd)
  | ends {result} (hm : phase.Moves t.before.later.shared id notes (.done result))
      (hgone : ∀ r' ∈ t.after.running, r'.id ≠ r.id)
      (ho : t.outputs = Controller.report r (.switch result))

theorem moves_of_hears (hw : r.work = .switch id phase) (hserved : t.IsServed r.id) {signal : Signal}
    (h : Hears t.before.later r t.event signal) : t.MovesSwitch r id phase
      ((t.taken? r.id).toList.map fun a => .answered t.now a.1 a.2) := by
  have hawaited := awaited_of_hears hserved h
  rw [hw] at hawaited
  have hmoves := Switch.moves_of_awaited (s := t.before.later.shared) hawaited
  have hproceeds : t.Proceeds r (.switch id) .switch (phase.resume t.before.later.shared id signal).2 :=
    proceeds_of_hears h (by simp only [Controller.resume, hw])
  generalize (phase.resume t.before.later.shared id signal).2 = step at hmoves hproceeds
  cases hproceeds with
  | waiting hr ha => exact .goesOn hmoves (now_of_hears h) hr ha
  | done hgone ho => exact .ends hmoves hgone ho

theorem gone_of_gone (hs : t.before.Sound timings) (hn : n < t.before.nextId)
    (h : ∀ r ∈ t.before.running, r.id ≠ n) : ∀ r ∈ t.after.running, r.id ≠ n := by
  rintro r hr rfl
  obtain ⟨r₀, hr₀, hid, -⟩ : t.before.Stands r.id fun _ => True :=
    Controller.Stands.before hs hn (fun _ _ => trivial) ⟨r, hr, rfl, trivial⟩
  exact h r₀ hr₀ hid

end Turn

namespace Obeys

variable {timings : Timings} {id : String} {n : Nat} {past : List Turn} {t : Turn}

theorem hears {r : Running} {phase : Switch} {signal : Signal} (hs : t.before.Sound timings)
    (hserved : t.IsServed r.id) (hw : r.work = .switch id phase)
    (h : phase.Reached timings id t.now (transcript past r.id))
    (hc : r.origin = .caller true ∨ ∃ t ∈ past, t.event = .abandon r.id)
    (hears : Hears t.before.later r t.event signal) :
    Obeys timings id r.id (past ++ [t]) t.after := by
  obtain rfl := hs.later.timings_eq
  have hgone := fun h : ∃ t ∈ past, t.event = .abandon r.id => exists_mem_snoc h t
  cases t.moves_of_hears hw hserved hears with
  | @goesOn phase' asks hm hnow hr ha =>
    have hleads := Switch.Reached.moves (s := t.before.later.shared) h hm
    refine .goesOn hr rfl rfl ?_ (hc.imp_right hgone)
    rw [transcript_snoc, Turn.notes, ha, hnow, ← List.append_assoc, List.map_map]
    exact hleads
  | @ends result hm hafter ho =>
    have hleads := Switch.Reached.moves (s := t.before.later.shared) h hm
    have htold : r.origin = .caller true →
        ∃ u ∈ past ++ [t], .ended r.id (.switch result) ∈ u.outputs := by
      intro hwaits
      refine exists_mem_last (t := t) ?_
      rw [ho, Controller.report, hwaits]
      exact List.mem_singleton.mpr rfl
    refine .ended hafter ?_ (hc.imp htold hgone)
    rw [transcript_snoc, Turn.notes, Turn.asks_of_report ho, List.map_nil, List.append_nil]
    exact hleads

theorem deaf {r : Running} {phase : Switch} (hs : t.before.Sound timings) (hr : r ∈ t.before.running)
    (hserved : t.IsServed r.id) (hw : r.work = .switch id phase)
    (h : phase.Reached timings id t.now (transcript past r.id))
    (hc : r.origin = .caller true ∨ ∃ t ∈ past, t.event = .abandon r.id)
    (hdeaf : ∀ signal, ¬ Hears t.before.later r t.event signal) :
    Obeys timings id r.id (past ++ [t]) t.after := by
  have hd : r.work.isDetached = true := by simp [hw, Work.isDetached]
  obtain ⟨origin, hr'⟩ := Turn.goes_on_of_deaf hs hr hd hserved hdeaf
  refine .goesOn hr' rfl hw ?_ ?_
  · rw [transcript_snoc, Turn.notes_of_deaf_work hs hr hserved hdeaf, List.append_nil]
    refine h.later fun due hdue => ?_
    have hwait : r.work.due? = some due := hw ▸ hdue
    exact Turn.now_le_due hs hr hwait (h.le_due hdue)
  · exact Turn.waits_or_gone hs hr hd hr' hc

theorem turn (hs : t.before.Sound timings) (hn : n < t.before.nextId) (hserved : t.IsServed n)
    (h : Obeys timings id n past t.before) : Obeys timings id n (past ++ [t]) t.after := by
  cases h with
  | @goesOn r phase hr hid hw h hc =>
    subst hid
    by_cases hheard : ∃ signal, Hears t.before.later r t.event signal
    · obtain ⟨signal, hears⟩ := hheard
      exact Obeys.hears hs hserved hw h hc hears
    · exact Obeys.deaf hs hr hserved hw h hc (not_exists.mp hheard)
  | ended hgone h hc =>
    have hnotes : t.notes n = [] :=
      Turn.notes_of_deaf hserved hn fun r signal hid hears =>
        hgone r (Controller.mem_of_find? hears.find?) hid
    refine .ended (Turn.gone_of_gone hs hn hgone) ?_
      (hc.imp (exists_mem_snoc · t) (exists_mem_snoc · t))
    rw [transcript_snoc, hnotes, List.append_nil]
    exact h

theorem run {c : Controller} (hs : c.Sound timings) (hn : n < c.nextId) {es : List Event}
    (hserved : ∀ t ∈ c.turns es, t.IsServed n) (h : Obeys timings id n past c) :
    Obeys timings id n (past ++ c.turns es) (c.run es).1 := by
  have hrun : (c.run es).1.Sound timings ∧ n < (c.run es).1.nextId ∧
      Obeys timings id n (past ++ c.turns es) (c.run es).1 := by
    refine Controller.turns_induction_from
      (P := fun past c => c.Sound timings ∧ n < c.nextId ∧ Obeys timings id n past c) ⟨hs, hn, h⟩ ?_ hserved
    rintro past t hserved ⟨hs, hn, h⟩
    exact ⟨hs.step t.event, Nat.lt_of_lt_of_le hn (Controller.nextId_le_of_turn t), h.turn hs hn hserved⟩
  exact hrun.2.2

end Obeys

end CoreWarden
