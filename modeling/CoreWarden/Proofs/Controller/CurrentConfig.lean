import CoreWarden.Proofs.Controller.Turn

/-!
The profile that is current changes in two ways only: a switch commits, or a reconciliation with both
its results takes over what the store says.
-/
namespace CoreWarden

theorem Switch.Effect.currentConfig {s : Shared} {id : String} {state : SyncState} {step : Switch.Step}
    (h : Switch.Effect s id state step) :
    state.snapshot.currentConfig = s.state.snapshot.currentConfig ∨
      ∃ remaining, step = .done (.ok (.switched id remaining)) ∧
        state.snapshot.currentConfig = some id := by
  cases h with
  | none | check | failure => exact .inl rfl
  | success remaining => exact .inr ⟨remaining, rfl, rfl⟩

theorem Switch.currentConfig_of_done {s s' : Shared} {id : String} {phase : Switch} {signal : Signal}
    {outcome : SwitchOutcome} (h : resume s id phase signal = (s', .done (.ok outcome))) :
    s'.state.snapshot.currentConfig = some id := by
  have heffect := (Switch.effect h).1
  generalize s'.state = state at heffect
  cases heffect with
  | none hne | check report hne => exact absurd rfl (hne outcome)
  | success => rfl

theorem Reload.Effect.currentConfig {s : Shared} {state : SyncState} {step : Reload.Step}
    (h : Reload.Effect s state step) :
    state.snapshot.currentConfig = s.state.snapshot.currentConfig := by
  cases h <;> rfl

theorem Recovery.Effect.currentConfig {s : Shared} {attempt : UInt32} {state : SyncState}
    {step : Recovery.Step} (h : Recovery.Effect s attempt state step) :
    state.snapshot.currentConfig = s.state.snapshot.currentConfig := by
  cases h <;> simp

namespace Work

theorem Advance.currentConfig {s s' : Shared} {w w' : Work} {signal : Signal}
    {asks : List (Nat × Request)} (h : w.Advance s signal s' w' asks) :
    s'.state.snapshot.currentConfig = s.state.snapshot.currentConfig := by
  cases h with
  | switch h =>
    rcases (Switch.effect h).1.currentConfig with hc | ⟨remaining, hd, -⟩
    · exact hc
    · cases hd
  | reload h => exact (Reload.effect h).1.currentConfig
  | recover h => exact (Recovery.effect h).1.currentConfig
  | reconcile h => rfl
  | refresh h hd =>
    obtain ⟨cache, rfl⟩ := Shared.resumeRefresh_eq h
    rfl

theorem Ending.currentConfig {s s' : Shared} {w : Work} {signal : Signal} {result : Option Result}
    (h : w.Ending s signal s' result) :
    s'.state.snapshot.currentConfig = s.state.snapshot.currentConfig ∨
      ∃ id phase remaining, w = .switch id phase ∧
        phase.resume s id signal = (s', .done (.ok (.switched id remaining))) ∧
        s'.state.snapshot.currentConfig = some id := by
  cases h with
  | @switch id phase _ _ result h =>
    rcases (Switch.effect h).1.currentConfig with hc | ⟨remaining, hd, hc⟩
    · exact .inl hc
    · cases hd
      exact .inr ⟨id, phase, remaining, rfl, h, hc⟩
  | reload h =>
    rcases (Reload.effect_reloadEnded h).1 with ⟨-, hs⟩ | ⟨e, -, hs⟩ <;> exact .inl (by simp [hs])
  | recover h => exact .inl (Recovery.effect h).1.currentConfig
  | check | refetched | notRefetched => exact .inl rfl
  | refresh h hd =>
    obtain ⟨cache, rfl⟩ := Shared.resumeRefresh_eq h
    exact .inl rfl

end Work

namespace Controller

@[simp] theorem snapshot_onState (c : Controller) (f : SyncState → SyncState) :
    (c.onState f).snapshot = (f c.state).snapshot := rfl

@[simp] theorem snapshot_answerAtOnce (c : Controller) (result : Result) :
    (c.answerAtOnce result).1.snapshot = c.snapshot := rfl

/-- Ending work changes nothing that does not depend on the activity. -/
theorem state_drop {α : Type} (f : SyncState → α) (hf : ∀ s a, f (SyncState.leave s a) = f s)
    (c : Controller) (p : Running → Bool) : f (c.drop p).state = f c.state :=
  SyncState.foldl_leave f hf c.state _

@[simp] theorem currentConfig_drop (c : Controller) (p : Running → Bool) :
    (c.drop p).snapshot.currentConfig = c.snapshot.currentConfig :=
  state_drop (·.snapshot.currentConfig) SyncState.currentConfig_leave c p

@[simp] theorem currentConfig_conclude (c : Controller) (f : Tick.Finding) :
    (c.conclude f).snapshot.currentConfig = f.reported.or c.snapshot.currentConfig := by
  have hscheduled : ∀ c : Controller, c.scheduleRefresh.snapshot.currentConfig =
      c.snapshot.currentConfig := fun c => c.currentConfig_drop _
  have hadopted : ∀ (c : Controller) (id : String),
      (c.onState (·.adopt id)).snapshot.currentConfig = some id := by
    intro c id
    exact congrArg Snapshot.currentConfig (c.state.snapshot_adopt id)
  obtain ⟨shape, reported, outcome⟩ := f
  cases reported <;> cases outcome
  case none.skipped | none.unchanged => rfl
  case none.changed | none.fetchFailed => exact hscheduled _
  case some.skipped | some.unchanged => exact hadopted _ _
  case some.changed | some.fetchFailed => exact (hscheduled _).trans (hadopted _ _)

theorem currentConfig_changeVisibility (c : Controller) (visible : Bool) :
    (c.changeVisibility visible).snapshot.currentConfig = c.snapshot.currentConfig := by
  obtain ⟨c₁, slot, rfl | rfl, hc⟩ := c.changeVisibility_eq visible <;> rw [hc]
  · exact c₁.currentConfig_drop _
  · exact (c.onState .recordSkippedTick).currentConfig_drop _

theorem currentConfig_shutdown (c : Controller) :
    c.shutdown.snapshot.currentConfig = c.snapshot.currentConfig := by
  have ha : c.shutdown.snapshot.currentConfig =
      ((((c.abort .reconciler).abort .poller).abort .debounce).abort
        .visibility).snapshot.currentConfig := rfl
  rw [ha]
  simp [abort]

theorem Opening.currentConfig {s s' : Shared} {e : Event} {work : Work} (h : Opening s e work s') :
    s'.state.snapshot.currentConfig = s.state.snapshot.currentConfig := by
  cases h with
  | switch | reload => simp
  | recover | tick | refresh => rfl

/-- How an event can change which profile is current. -/
inductive Moved (c : Controller) (e : Event) (after : Option String) : Prop
  | kept (h : after = c.snapshot.currentConfig)
  | committed {r id phase signal s' remaining} (hw : r.work = .switch id phase)
      (hs : Hears c r e signal)
      (h : phase.resume c.shared id signal = (s', .done (.ok (.switched id remaining))))
      (ha : after = some id)
  | adopted {r tick signal list proxies id} (hw : r.work = .reconcile tick) (hs : Hears c r e signal)
      (h : (tick.resume signal).results? = some (.ok list, .ok proxies)) (hl : list.current = some id)
      (ha : after = some id)

theorem moved_of_resumed {c : Controller} {e : Event} {r : Running} {signal : Signal}
    {out : Controller × List Output} (hs : Hears c r e signal) (h : Resumed c r signal out) :
    Moved c e out.1.snapshot.currentConfig := by
  cases h with
  | nothing => exact .kept rfl
  | advance ha => exact .kept ha.currentConfig
  | @ending s' result he =>
    have hd := { c with shared := s' }.currentConfig_drop (·.id == r.id)
    rcases he.currentConfig with hc | ⟨id, phase, remaining, hw, h, hc⟩
    · exact .kept (hd.trans hc)
    · exact .committed hw hs h (hd.trans hc)
  | @conclusion tick profiles proxies hw ht =>
    have hc := (c.conclude (Tick.finding c.observedShape c.state profiles proxies)).currentConfig_drop
      (·.id == r.id)
    rw [currentConfig_conclude] at hc
    match profiles, proxies with
    | .ok list, .ok snapshot =>
      match hl : list.current with
      | some id => exact .adopted hw hs ht hl (by simp [Tick.finding, hl])
      | none => exact .kept (by simp [Tick.finding, hl])
    | .error _, .ok _ | .error _, .error _ | .ok _, .error _ => exact .kept hc

theorem moved_of_act {c : Controller} {e : Event} {out : Controller × List Output} (h : Act c e out) :
    Moved c e out.1.snapshot.currentConfig := by
  cases h with
  | nothing | refused | skippedCall | droppedRefresh | detached | passed => exact .kept rfl
  | exhausted => exact .kept (by simp; rfl)
  | skippedTick ho | joins ho =>
    obtain ⟨hs, -, -, -⟩ := ho.frame
    exact .kept (congrArg (·.state.snapshot.currentConfig) hs)
  | begins ho hi hw => exact .kept hw.currentConfig
  | resumed hs ho => exact moved_of_resumed hs ho
  | @collapsed r =>
    have hc := (c.stopTicker r.origin).currentConfig_drop (·.id == r.id)
    exact .kept (hc.trans (congrArg (·.state.snapshot.currentConfig) (c.shared_stopTicker r.origin)))
  | abandoned => exact .kept (c.currentConfig_drop _)
  | started => exact .kept (congrArg (·.state.snapshot.currentConfig) c.shared_startBackground)
  | shutDown => exact .kept c.currentConfig_shutdown
  | visibility => exact .kept (c.currentConfig_changeVisibility _)
  | expired hd hn => exact .kept (by rw [snapshot_onState, (SyncState.expire_of_due _ hd hn).1]; rfl)

theorem moved_of_turn (t : Turn) : Moved t.before.later t.event t.after.snapshot.currentConfig :=
  moved_of_act (act_step t.before t.event)

end Controller
end CoreWarden
