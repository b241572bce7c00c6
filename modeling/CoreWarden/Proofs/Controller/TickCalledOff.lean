import CoreWarden.Proofs.Controller.TickDecision
import CoreWarden.Proofs.Controller.TickMasked

/-!
A reconciliation is all or nothing. If it is called off before both its fetches are answered, the activity
is given back at once, and nothing of it is left: neither what it had fetched already nor that it was
there at all.
-/
namespace CoreWarden

open Controller (Hears)

namespace Controller

/-- What an event leaves of what is remembered, apart from the work that it calls off: a reconciliation
asked for at once meets the one whose place it takes, and is skipped; the end of all periodic work disarms
the refresh and the clearing of the attempts. -/
def lastingAfter (c : Controller) : Event → Lasting
  | .visibility true =>
    if c.shared.timings.visibilityDelay.toNat = 0 then (c.onState .recordSkippedTick).lasting
    else c.lasting
  | .shutdown => { c.lasting with reset := .empty, debounce := .empty }
  | _ => c.lasting

theorem lasting_changeVisibility_of_isRunning {c : Controller} (h : c.isRunning .visibility = true)
    (visible : Bool) : (c.changeVisibility visible).lasting = c.lastingAfter (.visibility visible) := by
  unfold changeVisibility
  cases visible with
  | false => exact c.lasting_abort .visibility
  | true =>
    simp only [if_true, h, Bool.and_true, decide_eq_true_eq, lastingAfter]
    split
    · exact (c.onState .recordSkippedTick).lasting_abort .visibility
    · exact c.lasting_abort .visibility

end Controller

namespace Turn

variable {timings : Timings} {t : Turn} {r : Running} {tick : Tick}

theorem after_of_abandon (hs : t.before.Sound timings) (hr : r ∈ t.before.running)
    (hd : r.work.isDetached = false) {awaits : Bool} (he : t.event = .abandon r.id)
    (ho : r.origin = .caller awaits) : t.after = t.before.later.drop (·.id == r.id) := by
  have hfind : t.before.later.find? r.id = some r := hs.later.find?_eq_some hr
  rw [after, he]
  change t.before.later.abandon r.id = _
  obtain ⟨n, origin, work⟩ := r
  obtain rfl : origin = _ := ho
  have hnot : ¬ work.isDetached = true := by simpa using hd
  simp only [Controller.abandon, hfind, if_neg hnot]

namespace CallsOff

/-- Nothing but what the event itself does is left behind. -/
theorem lasting (h : t.CallsOff r) (hs : t.before.Sound timings) (hr : r ∈ t.before.running)
    (hd : r.work.isDetached = false) : t.after.lasting = t.before.lastingAfter t.event := by
  cases h with
  | abandoned he ho =>
    rw [after_of_abandon hs hr hd he ho, he]
    exact Controller.lasting_drop _ _
  | @visibility visible he ho =>
    have hrunning : t.before.later.isRunning .visibility = true :=
      List.any_eq_true.mpr ⟨r, hr, by simp [ho]⟩
    rw [after, he]
    exact Controller.lasting_changeVisibility_of_isRunning hrunning visible
  | shutDown he =>
    rw [after, he]
    exact t.before.later.lasting_shutdown

theorem gone (h : t.CallsOff r) (hs : t.before.Sound timings) (hr : r ∈ t.before.running)
    (hd : r.work.isDetached = false) : ∀ r' ∈ t.after.running, r'.id ≠ r.id := by
  intro r' hr' hid
  cases h with
  | abandoned he ho =>
    rw [after_of_abandon hs hr hd he ho] at hr'
    simpa [hid] using (List.mem_filter.mp hr').2
  | @visibility visible he ho =>
    obtain ⟨c₁, slot, hc₁, hc⟩ := t.before.later.changeVisibility_eq visible
    have hrunning : c₁.running = t.before.running := by rcases hc₁ with rfl | rfl <;> rfl
    rw [after, he] at hr'
    change r' ∈ (t.before.later.changeVisibility visible).running at hr'
    rw [hc] at hr'
    obtain ⟨hmem, hkept⟩ := List.mem_filter.mp hr'
    obtain rfl := hs.eq_of_id (hrunning ▸ hmem) hr hid
    simp [ho] at hkept
  | shutDown he ho =>
    rw [after, he] at hr'
    have hmem : r' ∈ t.before.later.shutdown.running := hr'
    have hrunning : r' ∈ t.before.later.running := Controller.mem_of_mem_shutdown hmem
    obtain rfl := hs.later.eq_of_id hrunning hr hid
    exact Controller.not_mem_shutdown ho hmem

theorem event_ne (h : t.CallsOff r) (slot : Nat) (answer : Answer) :
    t.event ≠ .answer r.id slot answer := by
  cases h with
  | abandoned he | visibility he | shutDown he => simp [he]

end CallsOff

end Turn

namespace Controller

theorem gone_turns {timings : Timings} {c : Controller} {n : Nat} (hs : c.Sound timings)
    (hn : n < c.nextId) (hgone : ∀ r ∈ c.running, r.id ≠ n) (es : List Event) :
    ∀ u ∈ c.turns es, ∀ r ∈ u.before.running, r.id ≠ n := by
  intro u hu
  obtain ⟨past, rest, hsplit⟩ := List.append_of_mem hu
  obtain ⟨es₁, es₂, -, hbefore, -, -⟩ := before_of_turns hsplit
  rw [hbefore]
  exact (gone_run hs hn hgone es₁).2

/-- In every run, if a reconciliation is called off, a fetch of it is not answered yet; its activity is
given back and it is gone. From its beginning on it has changed nothing, and what is left is what the event
leaves by itself: the controller is the one that it would be if no fetch of it had been answered. And so
it stays: whatever happens later, this reconciliation never concludes, and each one that concludes is
decided by what it has fetched itself, by the groups that were seen last by those which have concluded,
and by the profile that is current. -/
theorem tick_is_all_or_nothing (timings : Timings) (currentConfig : Option String) (es : List Event)
    (e : Event) {r : Running} {tick : Tick} :
    let c := initial timings currentConfig
    let t : Turn := ⟨(c.run es).1, e⟩
    r ∈ t.before.running → r.work = .reconcile tick → t.CallsOff r →
    tick.results? = none ∧
    t.before.snapshot.activity = .reconciling ∧ t.after.snapshot.activity = .idle ∧
    (∀ r' ∈ t.after.running, r'.id ≠ r.id) ∧
    Since (fun _ u => u.BeginsTick r.id) (fun u => u.Ponders r.id ∨ u.IsDeaf r.id) (c.turns es) ∧
    t.after.lasting = t.before.lastingAfter e ∧
    (c.run (es.map (·.mute r.id) ++ [e])).1 = t.after ∧
    ∀ es' e', let past := c.turns (es ++ e :: es')
      let u : Turn := ⟨(t.after.run es').1, e'⟩
      (∀ v ∈ past ++ [u], ∀ r' profiles proxies, v.Concludes r' profiles proxies → r'.id ≠ r.id) ∧
      ∀ r' profiles proxies, u.Concludes r' profiles proxies →
        ∃ seen outcome, LastSeen past seen ∧
          outcome.Decides seen u.before.snapshot.currentConfig profiles proxies ∧
          u.EndsTick r' profiles proxies outcome := by
  intro c t hr hw hoff
  obtain ⟨hs, hreconciling⟩ := reconciling_run timings currentConfig es
  obtain ⟨hopen, hsince⟩ := hreconciling.pondering r hr tick hw
  have hd : r.work.isDetached = false := by rw [hw]; rfl
  have hgone := hoff.gone hs hr hd
  have hholds : r.work.activity? = some .reconciling := by rw [hw]; rfl
  have hmuted : (c.run (es.map (·.mute r.id) ++ [e])).1 = t.after := by
    have hother : ∀ slot reply, e ≠ .answer r.id slot reply := hoff.event_ne
    have hmasks := ((masks_run timings currentConfig es).2 r hr tick hw).step hother
    rw [run_snoc, hmasks.masks.same]
    exact mask_eq fun r' hr' hid => absurd hid (hgone r' hr')
  refine ⟨hopen, hs.activity_of_mem hr hholds, idle_of_gone hs hr (by rw [hholds]; rfl) hgone, hgone,
    hsince, hoff.lasting hs hr hd, hmuted, ?_⟩
  intro es' e' past u
  have hn : r.id < t.after.nextId := Nat.lt_of_lt_of_le (hs.ids_lt r hr) (nextId_le_of_turn t)
  have hgone' := (gone_run (hs.step e) hn hgone es').2
  have hrun : (c.run (es ++ e :: es')).1 = (t.after.run es').1 := c.run_append es (e :: es')
  obtain ⟨hs', hreconciling'⟩ := reconciling_run timings currentConfig (es ++ e :: es')
  rw [hrun] at hs' hreconciling'
  refine ⟨?_, fun r' profiles proxies hconcludes => ?_⟩
  · have hturns : past = c.turns es ++ t :: t.after.turns es' := c.turns_append es (e :: es')
    intro v hv r' profiles proxies hconcludes
    rw [hturns, List.mem_append, List.mem_append, List.mem_cons, List.mem_singleton] at hv
    rcases hv with (hv | rfl | hv) | rfl
    · exact ((hreconciling.spent v hv r' profiles proxies hconcludes).2 r hr).symm
    · intro hid
      obtain ⟨slot, answer, he⟩ := hconcludes.event
      exact hoff.event_ne slot answer (hid ▸ he)
    · exact gone_turns (hs.step e) hn hgone es' v hv r' hconcludes.mem
    · exact hgone' r' hconcludes.mem
  · exact ⟨_, _, hreconciling'.lastSeen, Tick.decides_finding _ _ _ _,
      Turn.endsTick_of_concludes hs' hreconciling'.asides hconcludes⟩

def shownWindow : List Event :=
  [.visibility true, .pass 1000, .wake .visibility, .answer 0 1 (.proxies (.ok oneGroup))]

def shownTick : Running := ⟨0, .visibility, .reconcile ⟨none, some (.ok oneGroup)⟩⟩

/-- The window is hidden before the profiles are fetched. -/
theorem hidden_window_leaves_nothing :
    let c := initial Timings.standard (some "a")
    let t : Turn := ⟨(c.run shownWindow).1, .visibility false⟩
    shownTick ∈ t.before.running ∧ t.CallsOff shownTick ∧ t.after.snapshot.activity = .idle ∧
      t.after.lasting = t.before.lasting ∧
      (c.run ([.visibility true, .pass 1000, .wake .visibility, .pass 0] ++ [.visibility false])).1 =
        t.after := by
  have hr : ((initial Timings.standard (some "a")).run shownWindow).1.find? 0 = some shownTick := rfl
  have hmem := mem_of_find? hr
  have hoff : (⟨((initial Timings.standard (some "a")).run shownWindow).1, .visibility false⟩ :
      Turn).CallsOff shownTick := .visibility rfl rfl
  obtain ⟨-, -, hidle, -, -, hlasting, hmuted, -⟩ := tick_is_all_or_nothing Timings.standard (some "a")
    shownWindow (.visibility false) hmem rfl hoff
  exact ⟨hmem, hoff, hidle, hlasting, hmuted⟩

end Controller
end CoreWarden
