import CoreWarden.Proofs.Controller.CurrentConfig

/-!
The limits of the observable state: how long the history is, and how long a success has to last before
the attempts are cleared. They are set at the beginning, and nothing changes them.
-/
namespace CoreWarden

open Time (Timestamp)

namespace SyncState

/-- What is set once and for all. -/
def limits (s : SyncState) : Nat × Nat := (s.historyLimit, s.attemptReset)

variable (s : SyncState)

@[simp] theorem limits_modify (f : Snapshot → Snapshot) : (s.modify f).limits = s.limits := rfl

@[simp] theorem limits_leave (a : Activity) : (s.leave a).limits = s.limits := by
  unfold leave
  split <;> rfl

@[simp] theorem limits_setError (e : Option String) : (s.setError e).limits = s.limits := by
  unfold setError
  split <;> rfl

@[simp] theorem limits_cancelReset : s.cancelReset.limits = s.limits := rfl

@[simp] theorem limits_recordFailure (e : String) : (s.recordFailure e).limits = s.limits := by
  simp [recordFailure]

@[simp] theorem limits_recordSuccess (now : Nat) (wall : Timestamp) :
    (s.recordSuccess now wall).limits = s.limits := rfl

@[simp] theorem limits_adopt (id : String) : (s.adopt id).limits = s.limits := by
  unfold adopt
  split <;> rfl

@[simp] theorem limits_expire (now : Nat) : (s.expire now).limits = s.limits := by
  unfold expire
  split
  · unfold resetAttempts
    split <;> rfl
  · rfl

end SyncState

theorem Switch.Effect.limits {s : Shared} {id : String} {state : SyncState} {step : Switch.Step}
    (h : Switch.Effect s id state step) : state.limits = s.state.limits := by
  cases h <;> rfl

theorem Reload.Effect.limits {s : Shared} {state : SyncState} {step : Reload.Step}
    (h : Reload.Effect s state step) : state.limits = s.state.limits := by
  cases h <;> rfl

theorem Recovery.Effect.limits {s : Shared} {attempt : UInt32} {state : SyncState}
    {step : Recovery.Step} (h : Recovery.Effect s attempt state step) :
    state.limits = s.state.limits := by
  cases h with
  | none | check | reloaded => rfl
  | failure | refreshed | rechecked => simp [SyncState.applyConflict]

namespace Work

theorem Advance.limits {s s' : Shared} {w w' : Work} {signal : Signal} {asks : List (Nat × Request)}
    (h : w.Advance s signal s' w' asks) : s'.state.limits = s.state.limits := by
  cases h with
  | switch h => exact (Switch.effect h).1.limits
  | reload h => exact (Reload.effect h).1.limits
  | recover h => exact (Recovery.effect h).1.limits
  | reconcile h => rfl
  | refresh h hd =>
    obtain ⟨cache, rfl⟩ := Shared.resumeRefresh_eq h
    rfl

theorem Ending.limits {s s' : Shared} {w : Work} {signal : Signal} {result : Option Result}
    (h : w.Ending s signal s' result) : s'.state.limits = s.state.limits := by
  cases h with
  | switch h => exact (Switch.effect h).1.limits
  | reload h =>
    rcases (Reload.effect_reloadEnded h).1 with ⟨-, hs⟩ | ⟨e, -, hs⟩ <;> simp [hs]
  | recover h => exact (Recovery.effect h).1.limits
  | check | refetched | notRefetched => rfl
  | refresh h hd =>
    obtain ⟨cache, rfl⟩ := Shared.resumeRefresh_eq h
    rfl

end Work

namespace Controller

def limits (c : Controller) : Nat × Nat := c.state.limits

@[simp] theorem limits_drop (c : Controller) (p : Running → Bool) : (c.drop p).limits = c.limits :=
  state_drop (·.limits) SyncState.limits_leave c p

theorem limits_conclude (c : Controller) (f : Tick.Finding) : (c.conclude f).limits = c.limits := by
  refine conclude_induction (P := fun c' => c'.limits = c.limits) rfl ?_ ?_ ?_
  · intro c₁ id h₁
    exact (c₁.state.limits_adopt id).trans h₁
  · intro c₁ h₁
    exact (c₁.limits_drop _).trans h₁
  · intro c₁ wall h₁
    exact h₁

theorem limits_of_resumed {c : Controller} {r : Running} {signal : Signal}
    {out : Controller × List Output} (h : Resumed c r signal out) : out.1.limits = c.limits := by
  cases h with
  | nothing => rfl
  | advance ha => exact ha.limits
  | @ending s' result he => exact ({ c with shared := s' }.limits_drop _).trans he.limits
  | conclusion => exact (limits_drop _ _).trans (c.limits_conclude _)

theorem limits_of_act {c : Controller} {e : Event} {out : Controller × List Output} (h : Act c e out) :
    out.1.limits = c.limits := by
  cases h with
  | nothing | refused | skippedCall | droppedRefresh | detached | passed => rfl
  | exhausted => exact c.state.limits_setError _
  | skippedTick ho | joins ho =>
    obtain ⟨hs, -, -, -⟩ := ho.frame
    exact congrArg (·.state.limits) hs
  | begins ho hi hw =>
    cases hw with
    | switch | reload => exact SyncState.limits_setError _ _
    | recover | tick | refresh => rfl
  | resumed hs ho => exact limits_of_resumed ho
  | @collapsed r =>
    exact (limits_drop _ _).trans (congrArg (·.state.limits) (c.shared_stopTicker r.origin))
  | abandoned => exact c.limits_drop _
  | started => exact congrArg (·.state.limits) c.shared_startBackground
  | shutDown =>
    change ((((c.abort .reconciler).abort .poller).abort .debounce).abort .visibility).limits = _
    simp only [abort, limits_drop]
  | visibility visible =>
    obtain ⟨c₁, slot, rfl | rfl, hc⟩ := c.changeVisibility_eq visible <;> rw [hc]
    · exact c₁.limits_drop _
    · exact (c.onState .recordSkippedTick).limits_drop _
  | expired => exact c.state.limits_expire _

theorem limits_step (c : Controller) (e : Event) : (c.step e).1.limits = c.limits := by
  have h := limits_of_act (act_step c e)
  exact h

theorem limits_run (c : Controller) (es : List Event) : (c.run es).1.limits = c.limits :=
  run_induction (P := fun c' => c'.limits = c.limits) rfl (fun c' e h => (c'.limits_step e).trans h) es

end Controller
end CoreWarden
