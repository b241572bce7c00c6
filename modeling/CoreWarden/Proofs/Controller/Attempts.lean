import CoreWarden.Proofs.Controller.CurrentConfig

/-!
The count of recoveries. A recovery that is begun counts, up to the limit; only the reset timer takes
the count back to zero. The timer is armed by a success and called off by a failure that is recorded,
but not by the beginning of a recovery, so it can still clear the count while a recovery goes on.
-/
namespace CoreWarden

open Controller (Hears)

/-- Whether this is a good end. -/
def Progress.isOk : Progress φ (Except ε α) → Bool
  | .done (.ok _) => true
  | _ => false

/-- The attempts are the same; the reset timer is the same, or called off. -/
def SyncState.KeepsCount (s t : SyncState) : Prop :=
  t.snapshot.recoveryAttempts = s.snapshot.recoveryAttempts ∧ (t.reset = s.reset ∨ t.reset = .empty)

@[simp] theorem SyncState.keepsCount_refl (s : SyncState) : s.KeepsCount s := ⟨rfl, .inl rfl⟩

theorem SyncState.keepsCount_setError (s : SyncState) (e : Option String) :
    s.KeepsCount (s.setError e) :=
  ⟨by simp, .inl (by simp)⟩

theorem SyncState.KeepsCount.trans {s t u : SyncState} (h : s.KeepsCount t) (k : t.KeepsCount u) :
    s.KeepsCount u := by
  refine ⟨k.1.trans h.1, ?_⟩
  rcases k.2 with hu | hu
  · rw [hu]
    exact h.2
  · exact .inr hu

/-- Whether a signal completes the reload within a recovery. -/
def Recovery.reloads (s : Shared) (signal : Signal) : Recovery → Bool
  | reloading reload => (reload.resume s signal).2.isOk
  | _ => false

/-- Whether a signal makes a piece of work record a success: a switch commits, a reload or a recovery
is complete, or the reload within a recovery. -/
def Work.succeeds (s : Shared) (signal : Signal) : Work → Bool
  | switch id phase => (phase.resume s id signal).2.isOk
  | reload phase => (phase.resume s signal).2.isOk
  | recover attempt phase =>
    (phase.resume s attempt signal).2.isOk || phase.reloads s signal
  | _ => false

theorem Switch.Effect.count {s : Shared} {id : String} {state : SyncState} {step : Switch.Step}
    (h : Switch.Effect s id state step) :
    s.state.KeepsCount state ∨ step.isOk = true ∧
      state.snapshot.recoveryAttempts = s.state.snapshot.recoveryAttempts := by
  cases h with
  | none | check => exact .inl ⟨rfl, .inl rfl⟩
  | failure => exact .inl ⟨rfl, .inr rfl⟩
  | success => exact .inr ⟨rfl, rfl⟩

theorem Reload.Effect.count {s : Shared} {state : SyncState} {step : Reload.Step}
    (h : Reload.Effect s state step) :
    s.state.KeepsCount state ∨ step.isOk = true ∧
      state.snapshot.recoveryAttempts = s.state.snapshot.recoveryAttempts := by
  cases h with
  | none => exact .inl ⟨rfl, .inl rfl⟩
  | success => exact .inr ⟨rfl, rfl⟩

theorem Recovery.Effect.count {s : Shared} {attempt : UInt32} {state : SyncState}
    {step : Recovery.Step} (h : Recovery.Effect s attempt state step) :
    s.state.KeepsCount state ∨ (step.isOk = true ∨ step = .waiting .rechecking [(0, .status)]) ∧
      state.snapshot.recoveryAttempts = s.state.snapshot.recoveryAttempts := by
  cases h with
  | none | check => exact .inl ⟨rfl, .inl rfl⟩
  | failure => exact .inl ⟨by simp, .inr (by simp)⟩
  | reloaded => exact .inr ⟨.inr rfl, rfl⟩
  | refreshed | rechecked => exact .inr ⟨.inl rfl, by simp⟩

theorem Recovery.reloaded_of_rechecking {s s' : Shared} {attempt : UInt32} {phase : Recovery}
    {signal : Signal} (h : resume s attempt phase signal = (s', .waiting .rechecking [(0, .status)])) :
    phase.reloads s signal = true := by
  revert h
  fun_cases resume s attempt phase signal <;> intro h
  case case3 reload =>
    generalize hr : reload.resume s signal = step at h
    fun_cases reloaded step <;> cases h
    simp [reloads, hr, Progress.isOk]
  case case5 refresh _ _ _ =>
    unfold refreshed succeed at h
    split at h <;> cases h
  all_goals cases h

theorem isOk_reloadEnded (step : Shared × Reload.Step) :
    (Controller.reloadEnded step).2.isOk = step.2.isOk := by
  unfold Controller.reloadEnded
  split <;> rfl

namespace Work

theorem Advance.count {s s' : Shared} {w w' : Work} {signal : Signal} {asks : List (Nat × Request)}
    (h : w.Advance s signal s' w' asks) :
    s.state.KeepsCount s'.state ∨ w.succeeds s signal = true ∧
      s'.state.snapshot.recoveryAttempts = s.state.snapshot.recoveryAttempts := by
  cases h with
  | switch h =>
    rcases (Switch.effect h).1.count with hc | ⟨hd, -⟩
    · exact .inl hc
    · cases hd
  | reload h =>
    rcases (Reload.effect h).1.count with hc | ⟨hd, -⟩
    · exact .inl hc
    · cases hd
  | recover h =>
    rcases (Recovery.effect h).1.count with hc | ⟨hd | hd, ha⟩
    · exact .inl hc
    · cases hd
    · rw [hd] at h
      exact .inr ⟨by simp [succeeds, Recovery.reloaded_of_rechecking h], ha⟩
  | reconcile h => exact .inl s.state.keepsCount_refl
  | refresh h hd =>
    obtain ⟨cache, rfl⟩ := Shared.resumeRefresh_eq h
    exact .inl s.state.keepsCount_refl

theorem Ending.count {s s' : Shared} {w : Work} {signal : Signal} {result : Option Result}
    (h : w.Ending s signal s' result) :
    s.state.KeepsCount s'.state ∨ w.succeeds s signal = true ∧
      s'.state.snapshot.recoveryAttempts = s.state.snapshot.recoveryAttempts := by
  cases h with
  | switch h =>
    rcases (Switch.effect h).1.count with hc | ⟨hd, ha⟩
    · exact .inl hc
    · exact .inr ⟨by simpa [succeeds, h] using hd, ha⟩
  | @reload phase _ _ result h =>
    rcases (Reload.effect_reloadEnded h).1 with ⟨rfl, hs⟩ | ⟨e, -, hs⟩
    · have hok : (phase.resume s signal).2.isOk = true := by
        rw [← isOk_reloadEnded, h]
        rfl
      exact .inr ⟨hok, by simp [hs]⟩
    · exact .inl ⟨by simp [hs], .inr (by simp [hs])⟩
  | recover h =>
    rcases (Recovery.effect h).1.count with hc | ⟨hd | hd, ha⟩
    · exact .inl hc
    · exact .inr ⟨by simp [succeeds, h, hd], ha⟩
    · cases hd
  | check | notRefetched | refetched => exact .inl ⟨rfl, .inl rfl⟩
  | refresh h hd =>
    obtain ⟨cache, rfl⟩ := Shared.resumeRefresh_eq h
    exact .inl s.state.keepsCount_refl

end Work

namespace Controller

theorem keepsCount_drop (c : Controller) (p : Running → Bool) :
    c.state.KeepsCount (c.drop p).state :=
  ⟨state_drop (·.snapshot.recoveryAttempts) SyncState.recoveryAttempts_leave c p,
    .inl (state_drop (·.reset) SyncState.reset_leave c p)⟩

theorem keepsCount_conclude (c : Controller) (f : Tick.Finding) :
    c.state.KeepsCount (c.conclude f).state := by
  refine conclude_induction (P := fun c' => c.state.KeepsCount c'.state) c.state.keepsCount_refl
    ?_ ?_ ?_
  · intro c₁ id h₁
    have hs : (c₁.onState (·.adopt id)).state = c₁.state.adopt id := rfl
    exact h₁.trans ⟨by simp [hs], .inl (by simp [hs])⟩
  · intro c₁ h₁
    exact h₁.trans (c₁.keepsCount_drop _)
  · intro c₁ wall h₁
    exact h₁.trans ⟨rfl, .inl rfl⟩

theorem keepsCount_changeVisibility (c : Controller) (visible : Bool) :
    c.state.KeepsCount (c.changeVisibility visible).state := by
  obtain ⟨c₁, slot, rfl | rfl, hc⟩ := c.changeVisibility_eq visible <;> rw [hc]
  · exact c₁.keepsCount_drop _
  · exact (c.onState .recordSkippedTick).keepsCount_drop _

theorem keepsCount_shutdown (c : Controller) : c.state.KeepsCount c.shutdown.state := by
  have ha : c.state.KeepsCount
      ((((c.abort .reconciler).abort .poller).abort .debounce).abort .visibility).state :=
    (((c.keepsCount_drop _).trans (keepsCount_drop _ _)).trans (keepsCount_drop _ _)).trans
      (keepsCount_drop _ _)
  exact ⟨ha.1, .inr rfl⟩

theorem Opening.keepsCount {s s' : Shared} {e : Event} {work : Work} (h : Opening s e work s')
    (hw : work.activity? ≠ some .recovering) : s.state.KeepsCount s'.state := by
  cases h with
  | switch | reload => exact ⟨by simp, .inl (by simp)⟩
  | recover => exact absurd rfl hw
  | tick | refresh => exact ⟨rfl, .inl rfl⟩

def heard? (c : Controller) : Event → Option (Running × Signal)
  | .answer _ _ .collapsed => none
  | .answer id slot answer =>
    ((c.find? id).filter fun r => r.work.awaits.any (·.1 == slot)).map fun r => (r, .answer slot answer)
  | .wake (.work id) =>
    ((c.find? id).filter fun r => r.work.due?.any (· ≤ c.now)).map fun r => (r, .timeUp)
  | _ => none

theorem Hears.heard? {c : Controller} {r : Running} {e : Event} {signal : Signal}
    (h : Hears c r e signal) : c.heard? e = some (r, signal) := by
  cases h with
  | @answer slot request answer hr ha hc =>
    have hany : r.work.awaits.any (·.1 == slot) = true := List.any_eq_true.mpr ⟨_, ha, by simp⟩
    cases answer <;> simp_all [Controller.heard?]
  | timeUp hr hd hn => simp [Controller.heard?, hr, hd, hn]

end Controller

namespace Turn

open Controller

def succeeds (t : Turn) : Bool :=
  (t.before.later.heard? t.event).any fun (r, signal) => r.work.succeeds t.before.later.shared signal

/-- A recovery enters: from now on the activity is that of a recovery. -/
def enters (t : Turn) : Bool :=
  t.before.snapshot.activity ≠ .recovering ∧ t.after.snapshot.activity = .recovering

def clears (t : Turn) : Bool :=
  match t.event with
  | .wake .reset => t.before.state.reset.due?.any (· ≤ t.now)
  | _ => false

/-- A collaborator breaks down and takes a recovery along. -/
def breaksRecovery (t : Turn) : Bool :=
  match t.event with
  | .answer id slot .collapsed =>
    (t.before.find? id).any fun r =>
      r.work.activity? = some .recovering ∧ r.work.awaits.any (·.1 == slot)
  | _ => false

/-- A call of `recover` that is neither refused nor too much. -/
def Entry (t : Turn) : Prop :=
  t.event = .call .recover ∧ t.before.state.activity = .idle ∧
    t.before.snapshot.recoveryAttempts < t.before.shared.timings.maxRecoveryAttempts

theorem state_after_of_entry {t : Turn} (h : t.Entry) :
    t.after.state = (t.before.state.modify (·.withActivity .recovering)).incrementAttempts := by
  obtain ⟨he, hi, hlt⟩ := h
  have hnot : ¬ t.before.later.state.activity = .recovering := by
    change ¬ t.before.state.activity = .recovering
    simp [hi]
  have hmax : ¬ t.before.later.shared.timings.maxRecoveryAttempts ≤
      t.before.later.snapshot.recoveryAttempts := UInt32.not_le.mpr hlt
  rw [after, he]
  change t.before.later.startRecovery.1.state = _
  have henter : t.before.later.state.enter .recovering = _ := SyncState.enter_of_idle _ _ hi
  rw [startRecovery, if_neg hnot, if_neg hmax, henter]
  rfl

theorem state_after_of_clears {t : Turn} (h : t.clears = true) :
    t.after.state.snapshot.recoveryAttempts = 0 ∧ t.after.state.reset = .empty := by
  unfold clears at h
  split at h
  · next he =>
    obtain ⟨due, hd, hn⟩ : ∃ due, t.before.state.reset.due? = some due ∧ due ≤ t.now := by
      simpa using (Option.any_eq_true _ _).mp h
    have hreset : t.before.due? .reset = some due := hd
    have hafter : t.after.state = t.before.state.expire t.now := by
      rw [after, he, step_wake hreset hn]
      rfl
    obtain ⟨hs, hr⟩ := SyncState.expire_of_due _ hd hn
    rw [hafter, hs]
    exact ⟨rfl, hr⟩
  · cases h

theorem entry_of_enters {timings : Timings} {t : Turn} (hs : t.before.Sound timings)
    (h : t.enters = true) : t.Entry := by
  obtain ⟨hbefore, hafter⟩ : t.before.snapshot.activity ≠ .recovering ∧
      t.after.snapshot.activity = .recovering := by simpa [enters] using h
  have hm : Activity.recovering ∈ t.after.guards := by
    have hguards : t.after.guards = t.after.snapshot.activity.held := (hs.step t.event).guards_eq
    rw [hguards, hafter]
    exact List.mem_singleton.mpr rfl
  obtain ⟨r, hr, hw⟩ := List.mem_filterMap.mp hm
  have hsource := source_of_turn hs hr
  generalize t.outputs = outputs at hsource
  cases hsource with
  | @kept r₀ _ _ hr₀ => exact absurd (hs.activity_of_mem hr₀ hw) hbefore
  | opened onset hi hopening =>
    generalize he : t.event = e at hopening
    cases hopening with
    | recover hlt => exact ⟨he, hi, hlt⟩
    | switch | reload | tick | refresh => cases hw
  | joined onset haside =>
    generalize t.event = e at haside
    cases haside <;> cases hw
  | advanced hears ha =>
    have hr₀ := mem_of_find? hears.find?
    exact absurd (hs.activity_of_mem hr₀ (ha.activity? ▸ hw)) hbefore

inductive Tally (t : Turn) : Prop
  | kept (hentry : ¬ t.Entry) (hclear : t.clears = false)
      (h : t.before.state.KeepsCount t.after.state)
  | entered (hentry : t.Entry) (hclear : t.clears = false)
      (ha : t.after.snapshot.recoveryAttempts = t.before.snapshot.recoveryAttempts + 1)
      (hr : t.after.state.reset = t.before.state.reset)
  | succeeded (hentry : ¬ t.Entry) (hclear : t.clears = false) (h : t.succeeds = true)
      (ha : t.after.snapshot.recoveryAttempts = t.before.snapshot.recoveryAttempts)
  | cleared (hentry : ¬ t.Entry) (hclear : t.clears = true)
      (ha : t.after.snapshot.recoveryAttempts = 0) (hr : t.after.state.reset = .empty)

theorem succeeds_of_hears {t : Turn} {r : Running} {signal : Signal}
    (h : Hears t.before.later r t.event signal)
    (hs : r.work.succeeds t.before.later.shared signal = true) : t.succeeds = true := by
  simp [succeeds, h.heard?, hs]

theorem count_of_resumed {t : Turn} {r : Running} {signal : Signal}
    (hs : Hears t.before.later r t.event signal) {out : Controller × List Output}
    (h : Resumed t.before.later r signal out) :
    t.before.state.KeepsCount out.1.state ∨ t.succeeds = true ∧
      out.1.snapshot.recoveryAttempts = t.before.snapshot.recoveryAttempts := by
  cases h with
  | nothing => exact .inl t.before.state.keepsCount_refl
  | advance ha =>
    rcases ha.count with hc | ⟨hok, hc⟩
    · exact .inl hc
    · exact .inr ⟨succeeds_of_hears hs hok, hc⟩
  | @ending s' result he =>
    have hdrop := { t.before.later with shared := s' }.keepsCount_drop (·.id == r.id)
    rcases he.count with hc | ⟨hok, hc⟩
    · exact .inl (SyncState.KeepsCount.trans hc hdrop)
    · exact .inr ⟨succeeds_of_hears hs hok, hdrop.1.trans hc⟩
  | conclusion =>
    exact .inl ((t.before.later.keepsCount_conclude _).trans (keepsCount_drop _ _))

theorem count_of_act {t : Turn} (hentry : ¬ t.Entry) (hclear : t.clears = false) {e : Event}
    (he : t.event = e) {out : Controller × List Output} (h : Act t.before.later e out) :
    t.before.state.KeepsCount out.1.state ∨ t.succeeds = true ∧
      out.1.snapshot.recoveryAttempts = t.before.snapshot.recoveryAttempts := by
  cases h with
  | resumed hs ho => exact count_of_resumed (he ▸ hs) ho
  | nothing | refused | skippedCall | droppedRefresh | detached | passed => exact .inl ⟨rfl, .inl rfl⟩
  | exhausted => exact .inl (SyncState.keepsCount_setError _ _)
  | skippedTick ho | joins ho =>
    obtain ⟨hs, -, -, -⟩ := ho.frame
    exact .inl ⟨congrArg (·.state.snapshot.recoveryAttempts) hs, .inl (congrArg (·.state.reset) hs)⟩
  | begins ho hi hw =>
    refine .inl (hw.keepsCount ?_)
    intro hrecover
    cases hw with
    | recover hlt => exact hentry ⟨he, hi, hlt⟩
    | switch | reload | tick | refresh => cases hrecover
  | @collapsed r =>
    have hstate : (t.before.later.stopTicker r.origin).state = t.before.later.state :=
      congrArg Shared.state (t.before.later.shared_stopTicker r.origin)
    exact .inl (hstate ▸ (t.before.later.stopTicker r.origin).keepsCount_drop _)
  | abandoned => exact .inl (t.before.later.keepsCount_drop _)
  | started =>
    have hstate : t.before.later.startBackground.state = t.before.later.state :=
      congrArg Shared.state t.before.later.shared_startBackground
    exact .inl (hstate ▸ SyncState.keepsCount_refl _)
  | shutDown => exact .inl t.before.later.keepsCount_shutdown
  | visibility => exact .inl (t.before.later.keepsCount_changeVisibility _)
  | @expired due hd hn =>
    have hd' : t.before.state.reset.due? = some due := hd
    have hn' : due ≤ t.now := hn
    simp [clears, he, hd', hn'] at hclear

theorem tally (t : Turn) : t.Tally := by
  by_cases hentry : t.Entry
  · have hs := state_after_of_entry hentry
    exact .entered hentry (by simp [clears, hentry.1]) (congrArg (·.snapshot.recoveryAttempts) hs)
      (by rw [hs]; rfl)
  cases hclear : t.clears with
  | true =>
    obtain ⟨ha, hr⟩ := state_after_of_clears hclear
    exact .cleared hentry hclear ha hr
  | false =>
    rcases count_of_act hentry hclear rfl (act_step t.before t.event) with h | ⟨h, ha⟩
    · exact .kept hentry hclear h
    · exact .succeeded hentry hclear h ha

theorem enters_of_entry {t : Turn} (h : t.Entry) : t.enters = true := by
  have hbefore : t.before.snapshot.activity = .idle := h.2.1
  have hafter : t.after.snapshot.activity = .recovering :=
    congrArg (·.snapshot.activity) (state_after_of_entry h)
  simp [enters, hbefore, hafter]

theorem entry_iff_enters {timings : Timings} {t : Turn} (hs : t.before.Sound timings) :
    t.Entry ↔ t.enters = true :=
  ⟨enters_of_entry, entry_of_enters hs⟩

/-- A recovery ends with a success, with a failure that calls off the reset timer, or because a
collaborator breaks down. -/
theorem leaves_recovering {timings : Timings} {t : Turn} (hs : t.before.Sound timings)
    (hbefore : t.before.snapshot.activity = .recovering)
    (hafter : t.after.snapshot.activity ≠ .recovering) :
    t.succeeds = true ∨ t.breaksRecovery = true ∨ t.after.state.reset = .empty := by
  have hm : Activity.recovering ∈ t.before.guards := by
    rw [hs.guards_eq, hbefore]
    exact List.mem_singleton.mpr rfl
  obtain ⟨r, hr, ha⟩ := List.mem_filterMap.mp hm
  obtain ⟨attempt, phase, hw⟩ : ∃ attempt phase, r.work = .recover attempt phase := by
    cases hw : r.work <;> simp_all [Work.activity?]
  have hgone : ∀ r' ∈ t.after.running, r'.work.activity? ≠ some .recovering := by
    intro r' hr' ha'
    exact hafter ((hs.step t.event).activity_of_mem hr' ha')
  cases fate_of_turn hs hr with
  | goesOn h => exact (hgone _ h ha).elim
  | advances hears hadvance h => exact absurd (hadvance.activity?.trans ha) (hgone _ h)
  | concludes hears hw' => simp [hw] at hw'
  | @collapses slot request he hawait =>
    have hany : r.work.awaits.any (·.1 == slot) = true := List.any_eq_true.mpr ⟨_, hawait, by simp⟩
    simp [breaksRecovery, he, hs.find?_eq_some hr, ha, hany]
  | aborted h =>
    obtain ⟨awaits, ho⟩ := hs.attended r hr (by simp [hw, Work.isDetached])
    have hd := h awaits ho
    simp [hw, Work.isDetached] at hd
  | @ends signal s' result hears hending h =>
    rw [hw] at hending
    cases hending with
    | recover hresume =>
      have heffect := (Recovery.effect hresume).1
      generalize hstate : s'.state = state at heffect
      cases heffect with
      | failure e =>
        have hreset := ({ t.before.later with shared := s' }.keepsCount_drop (·.id == r.id)).2
        rw [← h] at hreset
        have hempty : s'.state.reset = .empty := by simp [hstate]
        exact .inr (.inr (hreset.elim (·.trans hempty) id))
      | refreshed | rechecked =>
        exact .inl (succeeds_of_hears hears (by simp [hw, Work.succeeds, hresume, Progress.isOk]))

end Turn
end CoreWarden
