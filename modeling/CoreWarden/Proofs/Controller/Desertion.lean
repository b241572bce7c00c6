import CoreWarden.Proofs.Controller.Guise
import CoreWarden.Proofs.Controller.WorkflowEnds

/-!
Callers who go away while their workflows go on. Whoever has gone is told nothing; all else is done as it
would have been: `unmoved_run` says it of two runs, in one of which callers go away.
-/
namespace CoreWarden

def Likeness.same : Likeness where
  Alike s s' := s' = s
  polls := true
  activity h := congrArg SyncState.activity h
  currentConfig h := congrArg (·.snapshot.currentConfig) h
  recoveryAttempts h := congrArg (·.snapshot.recoveryAttempts) h
  reset h := congrArg SyncState.reset h
  operate h now wall op := by rw [h]
  expire h now := by rw [h]

/-- Whether something that is done reaches anybody when these callers have gone. -/
def Output.isHeard (gone : List Nat) : Output → Bool
  | ask .. => true
  | ended id _ => decide (id ∉ gone)

namespace Guise

def deserted (gone : List Nat) : Guise where
  number n := n
  hides _ := false
  deafens n := decide (n ∈ gone)

variable {gone : List Nat}

theorem plain_deserted (n : Nat) : (deserted gone).hides n = false := rfl

theorem timer_deserted (timer : Timer) : (deserted gone).timer timer = timer := by
  cases timer <;> rfl

theorem event_deserted (e : Event) : (deserted gone).event e = e := by
  cases e with
  | wake timer => exact congrArg Event.wake (timer_deserted timer)
  | call | abandon | start | shutdown | visibility | answer | pass => rfl

theorem filterMap_output?_deserted (outputs : List Output) :
    outputs.filterMap (deserted gone).output? = outputs.filter (Output.isHeard gone) := by
  rw [← List.filterMap_eq_filter]
  refine List.filterMap_congr fun output _ => ?_
  cases output with
  | ask => rfl
  | ended id result => by_cases h : id ∈ gone <;> simp [deserted, output?, Output.isHeard, Option.guard, h]

theorem faithful_deserted {start : Nat} (h : ∀ n ∈ gone, n < start) : (deserted gone).Faithful start where
  injective _ _ heq := heq
  shows _ _ := rfl
  tells n hn := decide_eq_false fun hmem => Nat.not_lt.mpr hn (h n hmem)
  succ _ _ := rfl

namespace Faithful

theorem lt_of_mem {start : Nat} (h : (deserted gone).Faithful start) {n : Nat} (hn : n ∈ gone) :
    n < start :=
  Nat.not_le.mp fun hle => of_decide_eq_false (h.tells n hle) hn

end Faithful

theorem running_deserted_cons {n : Nat} {r : Running} (h : r.id = n → ∃ awaits, r.origin = .caller awaits) :
    (deserted (n :: gone)).running r =
      if r.id == n then { (deserted gone).running r with origin := .caller false }
      else (deserted gone).running r := by
  by_cases hid : r.id = n
  · obtain ⟨awaits, ho⟩ := h hid
    simp [running, deserted, hid, ho, Origin.deafen]
  · simp [running, deserted, hid]

namespace Fits

variable {c d : Controller}

theorem shared_eq (h : (deserted gone).Fits .same c d) : d.shared = c.shared := by
  obtain ⟨state, hstate, hshared⟩ := h.shared
  obtain rfl : state = c.shared.state := hstate
  exact hshared

theorem background_eq (h : (deserted gone).Fits .same c d) : d.background = c.background := by
  rw [h.background]
  cases c.background <;> rfl

theorem works_eq (h : (deserted gone).Fits .same c d) :
    d.running.map (fun r => (r.id, r.work)) = c.running.map fun r => (r.id, r.work) := by
  obtain ⟨-, -, state, -, rfl⟩ := h
  simp only [controller, filterMap_running? plain_deserted, List.map_map]
  rfl

theorem due?_eq (h : (deserted gone).Fits .same c d) (timer : Timer) : d.due? timer = c.due? timer := by
  have hdue := h.due? (shows_of_plain rfl plain_deserted (.wake timer))
  rwa [timer_deserted] at hdue

theorem heard? (h : (deserted gone).Fits .same c d) (e : Event) : d.heard? e =
    (c.heard? e).map fun (r, signal) => ((deserted gone).running r, signal) := by
  have hfind (id : Nat) : d.find? id = (c.find? id).map (deserted gone).running := h.find? rfl
  unfold Controller.heard?
  split
  · rfl
  · rw [hfind, Option.filter_map, Option.map_map, Option.map_map]
    rfl
  · rw [hfind, h.now, Option.filter_map, Option.map_map, Option.map_map]
    rfl
  · rfl

theorem stepSame (h : (deserted gone).Fits .same c d) (e : Event) :
    (deserted gone).Tallies .same (c.step e) (d.step e) := by
  have hstep := h.step (shows_of_plain rfl plain_deserted e)
  rwa [event_deserted] at hstep

theorem abandonSame {timings : Timings} (h : (deserted gone).Fits .same c d) (hs : c.Sound timings)
    {n : Nat} (hw : ∀ r ∈ c.running, r.id = n → r.work.isDetached = true) :
    ∃ gone', (∀ m ∈ gone', m ∈ gone ∨ m = n) ∧ (deserted gone').Fits .same c (d.abandon n) := by
  have hfind : d.find? n = (c.find? n).map (deserted gone).running := h.find? rfl
  unfold Controller.abandon
  rw [hfind]
  cases hr : c.find? n with
  | none => exact ⟨gone, fun m => .inl, h⟩
  | some r =>
    obtain rfl := Controller.id_of_find? hr
    have hmem := Controller.mem_of_find? hr
    have hdetached := hw r hmem rfl
    obtain ⟨awaits, ho⟩ := hs.attended r hmem hdetached
    refine ⟨r.id :: gone, fun m hm => (List.mem_cons.mp hm).symm, ?_⟩
    obtain ⟨hfaithful, hhides, state, hstate, rfl⟩ := h
    have hlt : ∀ m ∈ r.id :: gone, m < c.nextId :=
      List.forall_mem_cons.mpr ⟨hs.ids_lt r hmem, fun m => hfaithful.lt_of_mem⟩
    have hrunning : (c.running.map (deserted gone).running).map (fun r' =>
        if r'.id == r.id then { r' with origin := .caller false } else r') =
          c.running.map (deserted (r.id :: gone)).running := by
      rw [List.map_map]
      refine List.map_congr_left fun r' hr' => ?_
      rw [running_deserted_cons fun hid => hs.eq_of_id hr' hmem hid ▸ ⟨awaits, ho⟩]
      rfl
    refine ⟨faithful_deserted hlt, fun _ _ hhidden => Bool.noConfusion hhidden, state, hstate, ?_⟩
    obtain ⟨id, origin, work⟩ := r
    cases ho
    dsimp only [Option.map, running, Origin.deafen]
    rw [if_pos hdetached]
    simp only [controller, filterMap_running? plain_deserted, hrunning]
    rfl

end Fits

end Guise

namespace Controller

/-! ### Two runs, in one of which callers go away -/

/-- The second list of events is the first one, except that some of these callers of workflows go away in
it, each at a moment at which nothing happens in the first one. -/
inductive Deserts (deserters : List Nat) : Controller → List Event → List Event → Prop
  | nil (c : Controller) : Deserts deserters c [] []
  | same {c es es'} (e : Event) (h : Deserts deserters (c.step e).1 es es') :
      Deserts deserters c (e :: es) (e :: es')
  | goes {c n es es'} (hn : n ∈ deserters)
      (hw : ∀ r ∈ c.running, r.id = n → r.work.isDetached = true)
      (h : Deserts deserters (c.step (.pass 0)).1 es es') :
      Deserts deserters c (.pass 0 :: es) (.abandon n :: es')

end Controller

namespace Turn

/-- The second turn is as the first one, but that deserters are not told what they would have been told. -/
structure Unmoved (deserters : List Nat) (t t' : Turn) : Prop where
  now : t'.now = t.now
  shared : t'.after.shared = t.after.shared
  observedShape : t'.after.observedShape = t.after.observedShape
  background : t'.after.background = t.after.background
  timers : ∀ timer, t'.after.due? timer = t.after.due? timer
  work : t'.after.running.map (fun r => (r.id, r.work)) = t.after.running.map fun r => (r.id, r.work)
  outputs : t'.outputs.filter (Output.isHeard deserters) = t.outputs.filter (Output.isHeard deserters)
  ends : t'.workflowEnd? = t.workflowEnd?

variable {deserters gone : List Nat} {t t' : Turn}

theorem workflowEnd?_deserted (h : (Guise.deserted gone).Fits .same t.before t'.before)
    (he : t'.event = t.event) : t'.workflowEnd? = t.workflowEnd? := by
  have hheard := h.later.heard? t.event
  have hshared := h.later.shared_eq
  simp only [workflowEnd?, he, hheard, hshared]
  cases t.before.later.heard? t.event <;> rfl

theorem unmoved (hnow : t'.now = t.now) (hafter : (Guise.deserted gone).Fits .same t.after t'.after)
    (houtputs : t'.outputs.filter (Output.isHeard deserters) =
      t.outputs.filter (Output.isHeard deserters)) (hends : t'.workflowEnd? = t.workflowEnd?) :
    t.Unmoved deserters t' where
  now := hnow
  shared := hafter.shared_eq
  observedShape := hafter.observedShape
  background := hafter.background_eq
  timers := hafter.due?_eq
  work := hafter.works_eq
  outputs := houtputs
  ends := hends

theorem filter_isHeard (h : ∀ n ∈ gone, n ∈ deserters) (outputs : List Output) :
    (outputs.filter (Output.isHeard gone)).filter (Output.isHeard deserters) =
      outputs.filter (Output.isHeard deserters) := by
  rw [List.filter_filter]
  congr 1
  funext output
  cases output with
  | ask => rfl
  | ended n result =>
    by_cases hn : n ∈ gone
    · simp [Output.isHeard, h n hn]
    · simp [Output.isHeard, hn]

end Turn

namespace Controller

variable {timings : Timings} {deserters : List Nat}

theorem unmoved_run {c d : Controller} {es es' : List Event} (h : Deserts deserters c es es')
    (hs : c.Sound timings) {gone : List Nat} (hgone : ∀ n ∈ gone, n ∈ deserters)
    (hd : (Guise.deserted gone).Fits .same c d) :
    List.Forall₂ (Turn.Unmoved deserters) (c.turns es) (d.turns es') := by
  induction h generalizing gone d with
  | nil c => exact .nil
  | @same c es es' e h ih =>
    have hstep := hd.stepSame e
    refine .cons (Turn.unmoved hd.now hstep.fits ?_ (Turn.workflowEnd?_deserted hd rfl)) ?_
    · rw [Turn.outputs, Turn.outputs, hstep.outputs, Guise.filterMap_output?_deserted]
      exact Turn.filter_isHeard hgone (c.step e).2
    · exact ih (hs.step e) hgone hstep.fits
  | @goes c n es es' hn hw h ih =>
    obtain ⟨gone', hgone', hleft⟩ := hd.later.abandonSame hs.later hw
    have hpass := c.step_pass_zero
    have hafter : (Guise.deserted gone').Fits .same (c.step (.pass 0)).1 (d.step (.abandon n)).1 := by
      rw [hpass]
      exact hleft
    refine .cons (Turn.unmoved hd.now hafter ?_ rfl) ?_
    · change [].filter _ = (c.step (.pass 0)).2.filter _
      rw [hpass]
    · refine ih (hs.step _) (fun m hm => ?_) hafter
      rcases hgone' m hm with hm | rfl
      · exact hgone m hm
      · exact hn

theorem pending_of_begun {t : Turn} (hs : t.before.Sound timings) {r : Running}
    (hr : r ∈ t.after.running) (hid : r.id = t.before.nextId) (hd : r.work.isDetached = true) :
    r.work.isPending = true := by
  have hsource := source_of_turn hs hr
  generalize t.outputs = outputs at hsource
  cases hsource with
  | @kept r₀ _ _ hr₀ => exact absurd hid (Nat.ne_of_lt (hs.ids_lt r₀ hr₀))
  | opened onset hi hopening =>
    generalize t.event = event at hopening
    cases hopening with
    | switch | reload | recover => rfl
    | tick | refresh => cases hd
  | joined onset haside =>
    generalize t.event = event at haside
    cases haside <;> cases hd
  | @advanced r₀ _ _ _ _ hears =>
    exact absurd hid (Nat.ne_of_lt (hs.ids_lt r₀ (mem_of_find? hears.find?)))

/-- Whenever callers of workflows go away: at every moment all that is shared, the timers and the work under
way are what they would have been, the same calls are made, the other callers are told the same, and
the same workflows are settled. Each of the workflows is settled once at most, with a success or with
an error that is shown, and it is, unless it still goes on or a collaborator broke down in it; when it
is gone, the controller is idle. -/
theorem abandonment_changes_nothing (timings : Timings) (currentConfig : Option String)
    (deserters : List Nat) (es es' : List Event)
    (h : Deserts deserters (initial timings currentConfig) es es') :
    let past := (initial timings currentConfig).turns es
    let past' := (initial timings currentConfig).turns es'
    List.Forall₂ (Turn.Unmoved deserters) past past' ∧
      ((workflowEnds past').map WorkflowEnd.number).Nodup ∧
      (∀ t ∈ past', ∀ e, t.workflowEnd? = some e → match e.error with
        | none => t.after.snapshot.lastSuccess = some t.before.later.shared.wall
        | some error => t.after.snapshot.switchError = some error.message) ∧
      (∀ t ∈ past', ∀ r ∈ t.after.running, r.id = t.before.nextId → r.work.isDetached = true →
        WorkflowFate past' ((initial timings currentConfig).run es').1 r.id) ∧
      ∀ t ∈ past', ∀ r ∈ t.before.running, r.work.isDetached = true →
        (∀ r' ∈ t.after.running, r'.id ≠ r.id) → t.after.state.activity = .idle := by
  intro past past'
  have hs := sound_initial timings currentConfig
  have hnobody : (Guise.deserted []).Fits .same (initial timings currentConfig)
      (initial timings currentConfig) :=
    ⟨Guise.faithful_deserted (by simp), by simp [Guise.HidesChecks, initial], _, rfl, rfl⟩
  have hunmoved := unmoved_run h hs (by simp) hnobody
  obtain ⟨-, hregistered⟩ := Registered.run timings currentConfig es'
  have hsound : ∀ t ∈ past', t.before.Sound timings := by
    intro t ht
    obtain ⟨es₁, es₂, hsplit⟩ := List.append_of_mem ht
    obtain ⟨es₁, -, -, hbefore, -⟩ := before_of_turns hsplit
    exact hbefore ▸ hs.run es₁
  refine ⟨hunmoved, hregistered.once, fun t _ e => Turn.snapshot_of_workflowEnd?, ?_, ?_⟩
  · intro t ht r hr hid hd
    exact hregistered.fates t ht r hr (pending_of_begun (hsound t ht) hr hid hd)
  · intro t ht r hr hd hgone
    have hholds : r.work.activity?.isSome = true := by
      cases hw : r.work <;> simp_all [Work.isDetached, Work.activity?]
    exact idle_of_gone (hsound t ht) hr hholds hgone

def failingReload (meanwhile : Event) : List Event :=
  [.call .reload, meanwhile, .call .check, .answer 0 0 (.restart (.error .notConfigured))]

/-- The failure of a reload is recorded whether or not its caller is there to hear of it. -/
theorem abandoned_reload_still_fails :
    let c := initial Timings.standard none
    let stays := failingReload (.pass 0)
    let goes := failingReload (.abandon 0)
    Deserts [0] c stays goes ∧ List.Forall₂ (Turn.Unmoved [0]) (c.turns stays) (c.turns goes) ∧
      (c.run stays).2 = (c.run goes).2 ++ [.ended 0 (.reload (.error .notConfigured))] ∧
      (c.run goes).1.snapshot.switchError = some Error.notConfigured.message ∧
      (c.run goes).1.state.activity = .idle := by
  intro c stays goes
  have hdeserts : Deserts [0] c stays goes := by
    refine .same _ (.goes (List.mem_singleton.mpr rfl) ?_ (.same _ (.same _ (.nil _))))
    intro r hr _
    obtain rfl : r = ⟨0, .caller true, .reload .restarting⟩ := List.mem_singleton.mp hr
    rfl
  obtain ⟨hunmoved, -⟩ := abandonment_changes_nothing Timings.standard none [0] stays goes hdeserts
  exact ⟨hdeserts, hunmoved, rfl, rfl, rfl⟩

end Controller

end CoreWarden
