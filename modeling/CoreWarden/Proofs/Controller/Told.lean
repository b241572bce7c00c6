import CoreWarden.Proofs.Controller.Turn

/-!
What callers are told, and why: a call is turned away at once, or a piece of work ends, concludes or
breaks down whose caller still waits.
-/
namespace CoreWarden.Controller

/-- Where a result comes from that a caller is told in an event. -/
inductive Told (c : Controller) : Event → Nat → Result → Prop
  | refused {call result} (h : Refusal c call result) : Told c (.call call) c.nextId result
  | exhausted (h : c.shared.timings.maxRecoveryAttempts ≤ c.snapshot.recoveryAttempts) :
      Told c (.call .recover) c.nextId
        (.recover (.error (.recoveryExhausted c.snapshot.recoveryAttempts)))
  | skipped (h : c.state.activity ≠ .idle) : Told c (.call .reconcile) c.nextId (.reconcile .skipped)
  | ended {e r signal s' result} (ho : r.origin = .caller true) (hs : Hears c r e signal)
      (he : r.work.Ending c.shared signal s' (some result)) : Told c e r.id result
  | concluded {e r signal tick profiles proxies} (ho : r.origin = .caller true)
      (hs : Hears c r e signal) (hw : r.work = .reconcile tick)
      (ht : (tick.resume signal).results? = some (profiles, proxies)) :
      Told c e r.id (.reconcile (Tick.finding c.observedShape c.state profiles proxies).outcome)
  | collapsed {r slot request} (ho : r.origin = .caller true) (hr : c.find? r.id = some r)
      (ha : (slot, request) ∈ r.work.awaits) :
      Told c (.answer r.id slot .collapsed) r.id (collapsed r.work)

variable {c : Controller} {e : Event} {out : Controller × List Output} {id : Nat} {result : Result}

theorem of_mem_report {r : Running} {told : Result} (h : .ended id told ∈ report r result) :
    r.origin = .caller true ∧ id = r.id ∧ told = result := by
  unfold report at h
  split at h
  · next ho => simpa [ho] using h
  · cases h

theorem not_ended_mem_asks {n : Nat} {asks : List (Nat × Request)} :
    Output.ended id result ∉ asks.map fun a => Output.ask n a.1 a.2 := by
  simp

theorem told_of_act (h : Act c e out) (hm : .ended id result ∈ out.2) : Told c e id result := by
  cases h with
  | refused h =>
    cases List.mem_singleton.mp hm
    exact .refused h
  | exhausted h =>
    cases List.mem_singleton.mp hm
    exact .exhausted h
  | skippedCall h =>
    cases List.mem_singleton.mp hm
    exact .skipped h
  | begins | joins => exact absurd hm not_ended_mem_asks
  | resumed hs ho =>
    cases ho with
    | nothing => cases hm
    | advance => exact absurd hm not_ended_mem_asks
    | ending he =>
      obtain ⟨told, htold, hm⟩ := List.mem_flatMap.mp hm
      obtain ⟨ho, rfl, rfl⟩ := of_mem_report hm
      rw [Option.mem_toList] at htold
      exact .ended ho hs (htold ▸ he)
    | conclusion hw ht =>
      obtain ⟨ho, rfl, rfl⟩ := of_mem_report hm
      exact .concluded ho hs hw ht
  | collapsed hr ha =>
    obtain ⟨ho, rfl, rfl⟩ := of_mem_report hm
    exact .collapsed ho hr ha
  | nothing | skippedTick | droppedRefresh | detached | abandoned | started | shutDown | visibility
    | expired | passed => cases hm

theorem told_of_turn {t : Turn} (h : .ended id result ∈ t.outputs) :
    Told t.before.later t.event id result :=
  told_of_act (act_step t.before t.event) h

end CoreWarden.Controller
