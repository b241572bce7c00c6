import CoreWarden.Proofs.Controller.Periodic
import CoreWarden.Proofs.Controller.TickCalledOff
import CoreWarden.Proofs.Controller.Transcript

/-!
The schedule of the reconciliation that a window asks for. It is tried when the pause since the window
became visible is over, if visibility has not changed since; and once it has begun it comes to its end,
if nothing calls it off.
-/
namespace CoreWarden

open Controller (Hears Act Onset Resumed)
open Time (pauseEnd)

namespace Turn

/-- A reconciliation that a window asks for is due at once, while one that it takes the place of is still
under way. -/
def Overtakes (t : Turn) : Prop :=
  t.event = .visibility true ∧ t.before.shared.timings.visibilityDelay.toNat = 0 ∧
    t.before.isRunning .visibility = true

def IsSteady (t : Turn) : Prop := (∀ visible, t.event ≠ .visibility visible) ∧ t.event ≠ .shutdown

def Untried (t : Turn) : Prop := ∀ due, ¬ t.Wakes .visibility due

/-- What becomes of the reconciliation that a window has asked for in a turn. -/
inductive SlotAfter (timings : Timings) (t : Turn) : TimerSlot Unit → Prop
  | armed (he : t.event = .visibility true) (hat : ¬ t.Overtakes) :
      SlotAfter timings t (t.before.visibility.replace t.now timings.visibilityDelay.toNat ())
  | emptied (h : t.Overtakes ∨ t.event = .visibility false ∨ t.event = .shutdown ∨
      ∃ due, t.Wakes .visibility due) : SlotAfter timings t .empty
  | kept (hsteady : t.IsSteady) (huntried : t.Untried) : SlotAfter timings t t.before.visibility

end Turn

namespace Controller

variable {c c' : Controller} {e : Event} {origin : Origin}

theorem Onset.visibility_eq (h : Onset c e origin c') (he : e ≠ .wake .visibility) :
    c'.visibility = c.visibility := by
  cases h with
  | visibility => exact absurd rfl he
  | _ => rfl

theorem visibility_stopTicker (c : Controller) (origin : Origin) :
    (c.stopTicker origin).visibility = c.visibility := by
  unfold stopTicker
  split <;> rfl

theorem visibility_startBackground (c : Controller) : c.startBackground.visibility = c.visibility := by
  unfold startBackground
  split <;> rfl

end Controller

namespace Turn

variable {timings : Timings} {t : Turn} {r : Running} {tick : Tick} {due : Nat}

theorem visibility_of_appears (hs : t.before.Sound timings) (he : t.event = .visibility true) :
    t.SlotAfter timings t.after.visibility := by
  have hafter : t.after = t.before.later.changeVisibility true := by
    rw [after, he]
    rfl
  have htimings : t.before.later.shared.timings = timings := hs.timings_eq
  have hrunning : t.before.later.isRunning .visibility = t.before.isRunning .visibility := rfl
  rw [hafter, Controller.changeVisibility, if_pos rfl]
  dsimp only
  by_cases hat : t.Overtakes
  · obtain ⟨-, hdelay, hrun⟩ := hat
    rw [hs.timings_eq] at hdelay
    rw [if_pos (by rw [htimings, hdelay, hrunning, hrun]; rfl)]
    exact .emptied (.inl ⟨he, by rw [hs.timings_eq, hdelay], hrun⟩)
  · have hnot : ¬ (decide (t.before.later.shared.timings.visibilityDelay.toNat = 0) &&
        t.before.later.isRunning .visibility) = true := by
      rw [Bool.and_eq_true, decide_eq_true_eq]
      exact fun h => hat ⟨he, h⟩
    rw [if_neg hnot, htimings]
    exact .armed he hat

theorem slotAfter (hs : t.before.Sound timings) : t.SlotAfter timings t.after.visibility := by
  by_cases hwakes : ∃ due, t.Wakes .visibility due
  · obtain ⟨due, hwakes⟩ := hwakes
    have hafter : t.after.visibility = .empty := by
      rw [after, step_of_wakes hwakes]
      exact (Controller.frame_startTick { t.before.later with visibility := .empty } _).2
    rw [hafter]
    exact .emptied (.inr (.inr (.inr ⟨due, hwakes⟩)))
  have huntried : t.Untried := not_exists.mp hwakes
  by_cases happears : t.event = .visibility true
  · exact visibility_of_appears hs happears
  by_cases hhides : t.event = .visibility false
  · have hafter : t.after.visibility = .empty := by
      rw [after, hhides]
      rfl
    exact hafter ▸ .emptied (.inr (.inl hhides))
  by_cases hshut : t.event = .shutdown
  · have hafter : t.after.visibility = .empty := by
      rw [after, hshut]
      rfl
    exact hafter ▸ .emptied (.inr (.inr (.inl hshut)))
  have hsteady : t.IsSteady := by
    refine ⟨fun visible => ?_, hshut⟩
    cases visible
    · exact hhides
    · exact happears
  suffices hkept : t.after.visibility = t.before.visibility from hkept ▸ .kept hsteady huntried
  by_cases hw : t.event = .wake .visibility
  · rw [after, step_of_not_wakes hw huntried]
    rfl
  have hact := Controller.act_step t.before t.event
  generalize hout : t.before.step t.event = out at hact
  have hafter : t.after = out.1 := congrArg Prod.fst hout
  rw [hafter]
  generalize he : t.event = e at hact hw
  cases hact with
  | nothing | refused | exhausted | skippedCall | droppedRefresh | detached | abandoned | expired
    | passed => rfl
  | skippedTick ho | begins ho | joins ho => exact ho.visibility_eq hw
  | resumed hears ho => exact (Controller.frame_of_resumed (c := t.before.later) ho).2
  | collapsed => exact Controller.visibility_stopTicker _ _
  | started => exact Controller.visibility_startBackground _
  | shutDown => exact absurd he hsteady.2
  | visibility visible => exact absurd he (hsteady.1 visible)

theorem due?_of_appears (hs : t.before.Sound timings) (he : t.event = .visibility true)
    (hat : ¬ t.Overtakes) :
    t.after.visibility.due? = some (pauseEnd t.now timings.visibilityDelay.toNat) := by
  have hslot := visibility_of_appears hs he
  generalize t.after.visibility = slot at hslot
  cases hslot with
  | armed => rfl
  | emptied h =>
    rcases h with h | h | h | ⟨due, h, -⟩
    · exact absurd h hat
    all_goals cases he.symm.trans h
  | kept hsteady => exact absurd he (hsteady.1 true)

theorem due?_of_wakes (hs : t.before.Sound timings) (h : t.Wakes .visibility due) :
    t.after.visibility.due? = none := by
  have hslot := slotAfter hs
  generalize t.after.visibility = slot at hslot
  cases hslot with
  | armed he => cases he.symm.trans h.1
  | emptied => rfl
  | kept _ huntried => exact absurd h (huntried due)

theorem due?_of_overtakes (hs : t.before.Sound timings) (h : t.Overtakes) :
    t.after.visibility.due? = none := by
  have hslot := slotAfter hs
  generalize t.after.visibility = slot at hslot
  cases hslot with
  | armed _ hat => exact absurd h hat
  | emptied => rfl
  | kept hsteady => exact absurd h.1 (hsteady.1 true)

theorem due?_of_steady (hs : t.before.Sound timings) (hsteady : t.IsSteady) (huntried : t.Untried) :
    t.after.visibility.due? = t.before.visibility.due? := by
  have hslot := slotAfter hs
  generalize t.after.visibility = slot at hslot
  cases hslot with
  | armed he => exact absurd he (hsteady.1 true)
  | emptied h =>
    rcases h with h | h | h | ⟨due, h⟩
    · exact absurd h.1 (hsteady.1 true)
    · exact absurd h (hsteady.1 false)
    · exact absurd h hsteady.2
    · exact absurd h (huntried due)
  | kept => rfl

theorem now_le_visibility (hd : t.before.visibility.due? = some due) (hn : t.now ≤ due) :
    t.after.now ≤ due := by
  refine Controller.now_le_of_dues (List.mem_filterMap.mpr ⟨.visibility, ?_, hd⟩) hn
  simp [Controller.timers]

theorem now_of_visibility {visible : Bool} (he : t.event = .visibility visible) :
    t.after.now = t.now :=
  now_of_ne_pass (by simp [he])

theorem attempts_of_wakes (hs : t.before.Sound timings) (h : t.Wakes .visibility due) :
    t.Attempts .visibility :=
  attempts_of_startTick hs (by simp) (step_of_wakes h) rfl rfl rfl

/-- What is tried while the one that it takes the place of is under way is skipped. -/
theorem lasting_of_overtakes (h : t.Overtakes) :
    t.after.lasting = (t.before.onState .recordSkippedTick).lasting ∧ t.outputs = [] ∧
      ∀ r ∈ t.after.running, r ∈ t.before.running := by
  obtain ⟨he, hdelay, hrunning⟩ := h
  have hrunning' : t.before.later.isRunning .visibility = true := hrunning
  have hdelay' : t.before.later.shared.timings.visibilityDelay.toNat = 0 := hdelay
  refine ⟨?_, ?_, fun r hr => ?_⟩
  · rw [after, he]
    refine (Controller.lasting_changeVisibility_of_isRunning hrunning' true).trans ?_
    rw [Controller.lastingAfter, if_pos hdelay']
    rfl
  · rw [outputs, he]
    rfl
  · rw [after, he] at hr
    exact Controller.mem_of_mem_changeVisibility (c := t.before.later) hr

end Turn

/-- What has become by now of a reconciliation that a window has asked for, if visibility has not changed
since. -/
inductive WindowCourse (due : Nat) (later : List Turn) (c : Controller) : Prop
  | waits (huntried : ∀ v ∈ later, v.Untried) (hd : c.visibility.due? = some due) (hn : c.now ≤ due)
  | tried (h : ∃ l₁ v l₂, later = l₁ ++ v :: l₂ ∧ v.Wakes .visibility due ∧ v.now = due ∧
      ∀ w ∈ l₁ ++ l₂, w.Untried) (hd : c.visibility.due? = none)

/-- What has become by now of a reconciliation under this number, if nothing has called it off: as long as
one of its fetches is not answered it is under way, and then it has come to its end, once. -/
inductive TickCarried (n : Nat) (later : List Turn) (c : Controller) : Prop
  | underWay {r tick} (hr : r ∈ c.running) (hid : r.id = n) (ho : r.origin = .visibility)
      (hw : r.work = .reconcile tick) (hopen : tick.awaits ≠ [])
      (hasked : ∀ slot request, (slot, request) ∈ tick.awaits →
        ∀ v ∈ later, ∀ answer : Answer, answer.suits request = true → ¬ v.Answers n request answer)
  | ended (h : ∃ l₁ v l₂ r profiles proxies outcome, later = l₁ ++ v :: l₂ ∧ r.id = n ∧
      v.Concludes r profiles proxies ∧ v.EndsTick r profiles proxies outcome ∧
      ∀ w ∈ l₁ ++ l₂, ∀ r' profiles proxies, w.Concludes r' profiles proxies → r'.id ≠ n)

namespace Tick

variable {tick : Tick}

theorem awaits_ne_nil (h : tick.results? = none) : tick.awaits ≠ [] := by
  obtain ⟨profiles, proxies⟩ := tick
  cases profiles with
  | none => simp [awaits]
  | some =>
    cases proxies with
    | none => simp [awaits]
    | some => cases h

theorem awaits_resume_subset (tick : Tick) (signal : Signal) :
    (tick.resume signal).awaits ⊆ tick.awaits := by
  obtain ⟨profiles, proxies⟩ := tick
  unfold resume
  split <;> cases profiles <;> cases proxies <;> simp [awaits]

theorem not_mem_awaits_resume {slot slot' : Nat} {request : Request} {answer : Answer}
    (ha : (slot, request) ∈ tick.awaits) (hsuits : answer.suits request = true) :
    (slot', request) ∉ (tick.resume (.answer slot answer)).awaits := by
  obtain ⟨profiles, proxies⟩ := tick
  rcases List.mem_append.mp ha with h | h
  all_goals
    split at h
    · obtain ⟨rfl, rfl⟩ := Prod.mk.inj (List.mem_singleton.mp h)
      cases answer <;> simp [Answer.suits] at hsuits
      cases profiles <;> cases proxies <;> simp [awaits, resume]
    · cases h

end Tick

namespace Controller

variable {timings : Timings} {past later : List Turn} {t u : Turn} {due : Nat}

/-- The reconciliation that waits was asked for by the last change of visibility, and waits for the end of
the pause after it. -/
def Announced (delay : Nat) (past : List Turn) (c : Controller) : Prop :=
  ∀ due, c.visibility.due? = some due → c.now ≤ due ∧
    Since (fun _ u => u.event = .visibility true ∧ pauseEnd u.now delay = due)
      (fun v => v.IsSteady ∧ v.Untried) past

theorem announced_turn (hs : t.before.Sound timings)
    (h : t.before.Announced timings.visibilityDelay.toNat past) :
    t.after.Announced timings.visibilityDelay.toNat (past ++ [t]) := by
  intro due hd
  have hslot := Turn.slotAfter hs
  generalize hfound : t.after.visibility = slot at hslot hd
  cases hslot with
  | armed he hat =>
    obtain rfl : pauseEnd t.now timings.visibilityDelay.toNat = due := Option.some.inj hd
    refine ⟨?_, Since.last ⟨he, rfl⟩⟩
    rw [Turn.now_of_visibility he]
    exact Time.le_pauseEnd _ _
  | emptied => cases hd
  | kept hsteady huntried =>
    obtain ⟨hn, hsince⟩ := h due hd
    exact ⟨Turn.now_le_visibility hd hn, hsince.snoc ⟨hsteady, huntried⟩⟩

theorem announced_run (timings : Timings) (currentConfig : Option String) (es : List Event) :
    let c := initial timings currentConfig
    (c.run es).1.Announced timings.visibilityDelay.toNat (c.turns es) := by
  intro c
  have hrun := turns_induction
    (P := fun past c' => c'.Sound timings ∧ c'.Announced timings.visibilityDelay.toNat past) (c := c)
    ⟨sound_initial timings currentConfig, fun due hd => by cases hd⟩
    (fun past t h => ⟨h.1.step t.event, announced_turn h.1 h.2⟩) es
  exact hrun.2

theorem windowCourse_turn (hs : t.before.Sound timings) (h : WindowCourse due later t.before)
    (hsteady : t.IsSteady) : WindowCourse due (later ++ [t]) t.after := by
  cases h with
  | waits hnone hd hn =>
    by_cases hwakes : ∃ moment, t.Wakes .visibility moment
    · obtain ⟨moment, hwakes⟩ := hwakes
      obtain rfl : due = moment := Option.some.inj (hd.symm.trans hwakes.2.1)
      refine .tried ⟨later, t, [], rfl, hwakes, Nat.le_antisymm hn hwakes.2.2, by simpa using hnone⟩ ?_
      exact Turn.due?_of_wakes hs hwakes
    · have huntried : t.Untried := not_exists.mp hwakes
      refine .waits ?_ ((Turn.due?_of_steady hs hsteady huntried).trans hd) (Turn.now_le_visibility hd hn)
      exact List.forall_mem_append.mpr ⟨hnone, by simpa using huntried⟩
  | tried htried hd =>
    have huntried : t.Untried := fun moment hwakes => by cases hd.symm.trans hwakes.2.1
    obtain ⟨l₁, v, l₂, rfl, hv, hnow, hothers⟩ := htried
    refine .tried ⟨l₁, v, l₂ ++ [t], by simp, hv, hnow, ?_⟩
      ((Turn.due?_of_steady hs hsteady huntried).trans hd)
    rw [← List.append_assoc]
    exact List.forall_mem_append.mpr ⟨hothers, by simpa using huntried⟩

theorem windowCourse_run {c : Controller} (hs : c.Sound timings) (hd : c.visibility.due? = some due)
    (hn : c.now ≤ due) {es : List Event} (h : ∀ v ∈ c.turns es, v.IsSteady) :
    WindowCourse due (c.turns es) (c.run es).1 := by
  have hrun := turns_induction_of
    (P := fun later c => c.Sound timings ∧ WindowCourse due later c) ⟨hs, .waits (by simp) hd hn⟩
    (fun _ v hv h => ⟨h.1.step v.event, windowCourse_turn h.1 h.2 hv⟩) h
  exact hrun.2

theorem untried_run {c : Controller} (hs : c.Sound timings) (hd : c.visibility.due? = none)
    {es : List Event} (h : ∀ v ∈ c.turns es, v.IsSteady) : ∀ v ∈ c.turns es, v.Untried := by
  have hrun := turns_induction_of
    (P := fun later c => c.Sound timings ∧ c.visibility.due? = none ∧ ∀ v ∈ later, v.Untried)
    ⟨hs, hd, by simp⟩ ?_ h
  · exact hrun.2.2
  · rintro later v hv ⟨hs, hd, hlater⟩
    have huntried : v.Untried := fun moment hwakes => by cases hd.symm.trans hwakes.2.1
    exact ⟨hs.step v.event, (Turn.due?_of_steady hs hv huntried).trans hd,
      List.forall_mem_append.mpr ⟨hlater, by simpa using huntried⟩⟩

/-! ### The reconciliation under way -/

theorem hears_of_answers {n : Nat} {request : Request} {answer : Answer}
    (h : t.Answers n request answer) (hsuits : answer.suits request = true) : ∃ slot r, r.id = n ∧
      (slot, request) ∈ r.work.awaits ∧ Hears t.before.later r t.event (.answer slot answer) := by
  obtain ⟨slot, r, he, hr, ha⟩ := h
  obtain rfl := id_of_find? hr
  have hc : answer ≠ .collapsed := by
    rintro rfl
    cases request <;> cases hsuits
  exact ⟨slot, r, rfl, ha, he ▸ .answer hr ha hc⟩

theorem not_answers_of_tickFate {n : Nat} {r : Running} {tick tick' : Tick} {slot : Nat}
    {request : Request} {answer : Answer} (hw : r.work = .reconcile tick)
    (hfate : t.IsDeaf n ∨
      ∃ signal, Hears t.before.later r t.event signal ∧ tick' = tick.resume signal)
    (ha : (slot, request) ∈ tick'.awaits) (hsuits : answer.suits request = true) :
    ¬ t.Answers n request answer := by
  intro hanswers
  obtain ⟨slot', r', hid', ha', hears'⟩ := hears_of_answers hanswers hsuits
  rcases hfate with hdeaf | ⟨signal, hears, rfl⟩
  · exact hdeaf r' _ hid' hears'
  · obtain ⟨rfl, rfl⟩ := Prod.mk.inj (Option.some.inj (hears.heard?.symm.trans hears'.heard?))
    rw [hw] at ha'
    exact Tick.not_mem_awaits_resume ha' hsuits ha

theorem tickCarried_turn (hs : t.before.Sound timings) (hasides : t.before.AttendsAsides)
    (hspent : t.before.Spent later) {n : Nat} (h : TickCarried n later t.before) (hsteady : t.IsSteady)
    (hdown : ¬ t.BreaksDown n) : TickCarried n (later ++ [t]) t.after := by
  cases h with
  | @underWay r tick hr hid ho hw hopen hasked =>
    subst hid
    cases Turn.tickFate hs hr hw with
    | stays hdeaf hstays =>
      refine .underWay hstays rfl ho hw hopen fun slot request ha => ?_
      refine List.forall_mem_append.mpr ⟨hasked slot request ha, ?_⟩
      simp only [List.mem_singleton, forall_eq]
      exact fun answer hsuits => not_answers_of_tickFate hw (.inl hdeaf) ha hsuits
    | @advances signal hears hresults hstep =>
      have hr' : { r with work := .reconcile (tick.resume signal) } ∈ t.after.running := by
        rw [Turn.after, hstep]
        exact mem_replaceWork (c := t.before.later) hr _
      refine .underWay hr' rfl ho rfl (Tick.awaits_ne_nil hresults) fun slot request ha => ?_
      have ha₀ : (slot, request) ∈ tick.awaits := tick.awaits_resume_subset signal ha
      refine List.forall_mem_append.mpr ⟨hasked slot request ha₀, ?_⟩
      simp only [List.mem_singleton, forall_eq]
      exact fun answer hsuits => not_answers_of_tickFate hw (.inr ⟨signal, hears, rfl⟩) ha hsuits
    | @concludes profiles proxies hconcludes =>
      refine .ended ⟨later, t, [], r, profiles, proxies, _, rfl, rfl, hconcludes,
        Turn.endsTick_of_concludes hs hasides hconcludes, ?_⟩
      intro w hw' r' profiles' proxies' hconcludes' hid
      exact (hspent w (by simpa using hw') r' profiles' proxies' hconcludes').2 r hr hid.symm
    | calledOff hoff =>
      cases hoff with
      | abandoned _ hcaller => cases ho.symm.trans hcaller
      | visibility he => exact absurd he (hsteady.1 _)
      | shutDown he => exact absurd he hsteady.2
    | brokeDown hbroken => exact absurd hbroken hdown
  | ended hended =>
    obtain ⟨l₁, v, l₂, r, profiles, proxies, outcome, rfl, rfl, hconcludes, hends, hothers⟩ := hended
    refine .ended ⟨l₁, v, l₂ ++ [t], r, profiles, proxies, outcome, by simp, rfl, hconcludes, hends, ?_⟩
    rw [← List.append_assoc]
    refine List.forall_mem_append.mpr ⟨hothers, ?_⟩
    simp only [List.mem_singleton, forall_eq]
    intro r' profiles' proxies' hconcludes'
    exact (hspent v (List.mem_append_right _ (.head _)) r profiles proxies hconcludes).2 r' hconcludes'.mem

theorem tickCarried_run {c : Controller} {n : Nat} (hs : c.Sound timings) (hasides : c.AttendsAsides)
    (hstart : TickCarried n [] c) {es : List Event}
    (h : ∀ v ∈ c.turns es, v.IsSteady ∧ ¬ v.BreaksDown n) : TickCarried n (c.turns es) (c.run es).1 := by
  have hrun := turns_induction_of
    (P := fun later c => c.Sound timings ∧ c.AttendsAsides ∧ c.Spent later ∧ TickCarried n later c)
    ⟨hs, hasides, by simp [Spent], hstart⟩
    (fun _ v hv ⟨hs, hasides, hspent, h⟩ => ⟨hs.step v.event, attendsAsides_turn hs hasides,
      spent_turn hs hspent, tickCarried_turn hs hasides hspent h hv.1 hv.2⟩) h
  exact hrun.2.2.2

/-- In every run: a reconciliation that a window asks for is tried when the pause since the window became
visible is over, if visibility has not changed since and periodic work has not ended, and only then; if
nothing is going on it begins, and otherwise it is skipped. After each time that a window becomes visible
it is tried at that moment, once. Once it has begun it is under way until both its fetches are answered,
and then comes to its end, once, unless something calls it off or a fetch breaks down. -/
theorem visibility_keeps_schedule (timings : Timings) (currentConfig : Option String) (es : List Event)
    (e : Event) :
    let c := initial timings currentConfig
    let past := c.turns es
    let t : Turn := ⟨(c.run es).1, e⟩
    let due (u : Turn) := pauseEnd u.now timings.visibilityDelay.toNat
    (∀ moment, t.Wakes .visibility moment →
      Since (fun _ u => u.event = .visibility true ∧ due u = t.now) (fun v => v.IsSteady ∧ v.Untried) past ∧
      t.Attempts .visibility) ∧
    (t.Overtakes → due t = t.now ∧ t.after.lasting = (t.before.onState .recordSkippedTick).lasting ∧
      t.outputs = [] ∧ ∀ r ∈ t.after.running, r ∈ t.before.running) ∧
    (∀ r ∈ t.after.running, r.origin = .visibility →
      (∃ r₀ ∈ t.before.running, r₀.id = r.id ∧ r₀.origin = r.origin) ∨
        ∃ moment, t.Wakes .visibility moment) ∧
    (∀ earlier u later, past = earlier ++ u :: later → u.event = .visibility true →
      (∀ v ∈ later, v.IsSteady) →
      (u.Overtakes → ∀ v ∈ later, v.Untried) ∧ (¬ u.Overtakes → WindowCourse (due u) later t.before)) ∧
    ∀ earlier u later moment, past = earlier ++ u :: later → u.Wakes .visibility moment →
      u.before.snapshot.activity = .idle →
      (∀ v ∈ later, v.IsSteady ∧ ¬ v.BreaksDown u.before.nextId) →
      TickCarried u.before.nextId later t.before := by
  intro c past t due
  have hs : t.before.Sound timings := (sound_initial timings currentConfig).run es
  refine ⟨fun moment hwakes => ⟨?_, Turn.attempts_of_wakes hs hwakes⟩, fun hat => ⟨?_, ?_⟩,
    fun r hr ho => ?_, ?_, ?_⟩
  · obtain ⟨hn, hsince⟩ := announced_run timings currentConfig es moment hwakes.2.1
    obtain rfl : moment = t.now := Nat.le_antisymm hwakes.2.2 hn
    exact hsince
  · have hdelay : timings.visibilityDelay.toNat = 0 := by rw [← hs.timings_eq, hat.2.1]
    simp [due, pauseEnd, hdelay]
  · exact Turn.lasting_of_overtakes hat
  · exact (Turn.run_before_or_wakes hs hr (by rw [ho]; rfl)).imp_right And.left
  · intro earlier u later hpast he hsteady
    obtain ⟨es₁, es₂, -, hbefore, rfl, hrun⟩ := before_of_turns hpast
    have hs' : u.before.Sound timings := hbefore ▸ (sound_initial timings currentConfig).run es₁
    refine ⟨fun hat => untried_run (hs'.step u.event) (Turn.due?_of_overtakes hs' hat) hsteady,
      fun hat => ?_⟩
    have hcourse := windowCourse_run (hs'.step u.event) (Turn.due?_of_appears hs' he hat)
      (Turn.now_of_visibility he ▸ Time.le_pauseEnd _ _) hsteady
    change WindowCourse _ _ (u.after.run es₂).1 at hcourse
    rwa [← hrun] at hcourse
  · intro earlier u later moment hpast hwakes hidle hquiet
    obtain ⟨es₁, es₂, -, hbefore, rfl, hrun⟩ := before_of_turns hpast
    obtain ⟨hs', hreconciling⟩ := reconciling_run timings currentConfig es₁
    rw [← hbefore] at hs' hreconciling
    have hstart : TickCarried u.before.nextId [] u.after := by
      cases Turn.attempts_of_wakes hs' hwakes with
      | begins _ hrunning =>
        have hr : ⟨u.before.nextId, .visibility, .reconcile .start⟩ ∈ u.after.running :=
          hrunning ▸ List.mem_append_right _ (List.mem_singleton.mpr rfl)
        exact .underWay hr rfl rfl rfl (by simp [Tick.awaits, Tick.start]) (by simp)
      | skipped hbusy => exact absurd hidle hbusy
    have hcarried := tickCarried_run (hs'.step u.event) (attendsAsides_turn hs' hreconciling.asides)
      hstart hquiet
    change TickCarried _ _ (u.after.run es₂).1 at hcarried
    rwa [← hrun] at hcarried

/-- A window is shown: its reconciliation is tried a second later, begins, and waits for the profiles when
the proxies are fetched. -/
theorem shown_window_is_reconciled :
    let c := initial Timings.standard (some "a")
    let shown : Turn := ⟨c, .visibility true⟩
    let pause : Turn := ⟨shown.after, .pass 1000⟩
    let u : Turn := ⟨pause.after, .wake .visibility⟩
    let fetched : Turn := ⟨u.after, .answer 0 1 (.proxies (.ok oneGroup))⟩
    let t : Turn := ⟨(c.run shownWindow).1, .start⟩
    ¬ shown.Overtakes ∧ WindowCourse 1000 [pause] u.before ∧ u.Wakes .visibility 1000 ∧
      u.Attempts .visibility ∧ TickCarried 0 [fetched] t.before := by
  intro c shown pause u fetched t
  have hat : ¬ shown.Overtakes := by
    rintro ⟨-, hdelay, -⟩
    revert hdelay
    decide +kernel
  have hwakes : u.Wakes .visibility 1000 := ⟨rfl, by decide +kernel, by decide +kernel⟩
  have hidle : u.before.snapshot.activity = .idle := by decide +kernel
  have hpause : ∀ v ∈ [pause], v.IsSteady := by
    simpa [pause] using ⟨by simp, by simp⟩
  have hfetched : ∀ v ∈ [fetched], v.IsSteady ∧ ¬ v.BreaksDown u.before.nextId := by
    simp only [List.mem_singleton, forall_eq]
    refine ⟨⟨by simp [fetched], by simp [fetched]⟩, ?_⟩
    rintro ⟨request, slot, r, he, -⟩
    cases he
  obtain ⟨htried, -, -, hcourse, -⟩ := visibility_keeps_schedule Timings.standard (some "a")
    [.visibility true, .pass 1000] (.wake .visibility)
  obtain ⟨-, -, -, -, hcarried⟩ := visibility_keeps_schedule Timings.standard (some "a") shownWindow .start
  have hdue : pauseEnd shown.now Timings.standard.visibilityDelay.toNat = 1000 := by decide +kernel
  have hwaits := (hcourse [] shown [pause] rfl rfl hpause).2 hat
  have hnumber : u.before.nextId = 0 := by decide +kernel
  have hturns : c.turns shownWindow = [shown, pause] ++ u :: [fetched] := rfl
  have hunderWay := hcarried [shown, pause] u [fetched] 1000 hturns hwakes hidle hfetched
  rw [hnumber] at hunderWay
  exact ⟨hat, hdue ▸ hwaits, hwakes, (htried 1000 hwakes).2, hunderWay⟩

def lateVisibility : Timings := { visibilityDelay := 1000000000000 }

/-- The reconciliation is tried after thirty years, although no window has become visible as long ago as
the pause is to last. And one that has begun, and asked for the profiles and the proxies, is gone when the
window is hidden: the answers come, but its end is never noted. -/
theorem visibility_cuts_short :
    (let c := initial lateVisibility (some "a")
    let es : List Event := [.visibility true, .pass 1000000000000]
    let t : Turn := ⟨(c.run es).1, .wake .visibility⟩
    t.Attempts .visibility ∧ ∀ u ∈ c.turns es, u.now + lateVisibility.visibilityDelay.toNat ≠ t.now) ∧
    let c := initial Timings.standard (some "a")
    let u : Turn := ⟨(c.run [.visibility true, .pass 1000]).1, .wake .visibility⟩
    let t : Turn := ⟨u.after, .visibility false⟩
    u.BeginsTick 0 ∧ t.before.snapshot.activity = .reconciling ∧ t.after.running = [] ∧
      (t.after.run [.answer 0 0 (.list (.ok ⟨some "a", []⟩)),
        .answer 0 1 (.proxies (.ok oneGroup))]).1.snapshot.lastReconcile = none := by
  constructor
  · intro c es t
    have hwakes : t.Wakes .visibility Time.longestPause := ⟨rfl, by decide +kernel, by decide +kernel⟩
    have hs : t.before.Sound lateVisibility := (sound_initial lateVisibility (some "a")).run es
    have hnow : t.now = Time.longestPause := by decide +kernel
    have hlt : Time.longestPause < lateVisibility.visibilityDelay.toNat := by decide +kernel
    exact ⟨Turn.attempts_of_wakes hs hwakes, fun u _ => by omega⟩
  · intro c u t
    have hwakes : u.Wakes .visibility 1000 := ⟨rfl, by decide +kernel, by decide +kernel⟩
    have hs : u.before.Sound Timings.standard := (sound_initial Timings.standard (some "a")).run _
    have hnumber : u.before.nextId = 0 := by decide +kernel
    have hidle : u.before.state.activity = .idle := by decide +kernel
    have hbegins : u.BeginsTick u.before.nextId := by
      cases Turn.attempts_of_wakes hs hwakes with
      | begins h => exact h
      | skipped hbusy => exact absurd hidle hbusy
    rw [hnumber] at hbegins
    exact ⟨hbegins, by decide +kernel, by decide +kernel, by decide +kernel⟩

end Controller

end CoreWarden
