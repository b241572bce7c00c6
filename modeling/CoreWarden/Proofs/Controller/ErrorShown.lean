import CoreWarden.Proofs.Controller.Coherence
import CoreWarden.Proofs.Controller.FailedSwitch

/-!
The error that is shown when a workflow ends well. A switch and a reload clear the error when they
begin, a recovery when it ends. In between a call of `recover` that is too much is turned away before
anybody looks whether something is going on, and shows its error; a switch or a reload does not clear
that one.
-/
namespace CoreWarden

open Controller (Hears Touched)

namespace Work

def isTrying : Work → Bool
  | switch _ phase => !phase.isReporting
  | reload _ => true
  | _ => false

theorem isDetached_of_isTrying {w : Work} (h : w.isTrying = true) : w.isDetached = true := by
  cases w with
  | switch | reload => rfl
  | recover | check | reconcile | refetch | refresh => cases h

variable {s s' : Shared} {w w' : Work} {signal : Signal}

theorem Advance.isTrying {asks : List (Nat × Request)} (h : w.Advance s signal s' w' asks)
    (hw : w'.isTrying = true) : w.isTrying = true := by
  cases h with
  | switch h =>
    have hreporting := Switch.isReporting_of_resume h
    simp only [Work.isTrying, Bool.not_eq_true'] at hw ⊢
    rw [hw] at hreporting
    exact (Bool.or_eq_false_iff.mp hreporting.symm).1
  | reload h => rfl
  | recover | reconcile | refresh => cases hw

theorem Advance.switchError {asks : List (Nat × Request)} (h : w.Advance s signal s' w' asks)
    (hw : w'.isTrying = true) : s'.state.snapshot.switchError = s.state.snapshot.switchError := by
  cases h with
  | switch h =>
    have heffect := (Switch.effect h).1
    generalize s'.state = state at heffect
    cases heffect with
    | none | check => rfl
    | failure e => cases hw
  | reload h =>
    have heffect := (Reload.effect h).1
    generalize s'.state = state at heffect
    cases heffect
    rfl
  | recover | reconcile | refresh => cases hw

/-- A switch or a reload that ends well leaves the error that is shown; a recovery clears it. -/
theorem Ending.switchError {result : Result} {waited : Bool} (h : w.Ending s signal s' (some result))
    (hr : result.waited? = some waited) :
    w.isTrying = true ∧ s'.state.snapshot.switchError = s.state.snapshot.switchError ∨
      w.activity? = some .recovering ∧ s'.state.snapshot.switchError = none := by
  cases h with
  | @switch id phase _ _ result h =>
    cases result with
    | error e => cases hr
    | ok outcome =>
      obtain ⟨remaining, refresh, rfl⟩ := Switch.refreshing_of_done h
      have heffect := (Switch.effect h).1
      generalize s'.state = state at heffect
      cases heffect with
      | none hne | check report hne => exact absurd rfl (hne outcome)
      | success => exact .inl ⟨rfl, rfl⟩
  | @reload phase _ _ result h =>
    rcases (Reload.effect_reloadEnded h).1 with ⟨rfl, hstate⟩ | ⟨e, rfl, -⟩
    · exact .inl ⟨rfl, by rw [hstate]; rfl⟩
    · cases hr
  | @recover attempt phase _ _ result h =>
    have heffect := (Recovery.effect h).1
    generalize s'.state = state at heffect
    cases heffect with
    | failure e => cases hr
    | refreshed | rechecked => exact .inr ⟨rfl, by simp⟩
  | check | refetched | notRefetched => cases hr

end Work

/-! ### Which errors are shown beside a workflow -/

theorem SyncState.switchError_expire (s : SyncState) (now : Nat) :
    (s.expire now).snapshot.switchError = s.snapshot.switchError := by
  unfold expire
  split
  · rw [snapshot_resetAttempts]
  · rfl

namespace Turn

def exhausted? (t : Turn) : Option Error := if t.exhausts then some t.exhaustion else none

/-- The error that is shown after a turn that at most turns away a call of `recover`. -/
def shownAfter (t : Turn) : Option String :=
  (t.exhausted?.map Error.message).or t.before.snapshot.switchError

variable {timings : Timings} {t : Turn} {r r' : Running}

theorem shownAfter_of_hears {signal : Signal} (h : Hears t.before.later r t.event signal) :
    t.shownAfter = t.before.snapshot.switchError := by
  have hx : t.exhausts = false := by
    cases hx : t.exhausts with
    | false => rfl
    | true =>
      have hcall := (exhausts_iff.mp hx).1
      rw [hcall] at h
      cases h
  simp [shownAfter, exhausted?, hx]

theorem failure?_of_deaf (hs : t.before.Sound timings) (hr : r ∈ t.before.running)
    (hd : r.work.isDetached = true) (hdeaf : ∀ signal, ¬ Hears t.before.later r t.event signal) :
    t.failure? = none := by
  cases hheard : t.before.later.heard? t.event with
  | none => simp [failure?, hheard]
  | some heard =>
    obtain ⟨r₁, signal⟩ := heard
    have hears := Controller.hears_of_heard? hheard
    rw [failure?_of_hears hears]
    cases hw : r₁.work with
    | check | reconcile | refetch | refresh => rfl
    | switch | reload | recover =>
      obtain rfl := hs.eq_of_activity? (Controller.mem_of_find? hears.find?) hr
        (by simp [hw, Work.activity?]) (Work.activity?_of_isDetached hd)
      exact absurd hears (hdeaf signal)

/-- Beside a workflow that goes on, only a call of `recover` that is too much writes an error. -/
theorem switchError_of_touched
    (ht : Touched t.before.later t.event t.after.state t.after.cache) (hf : t.failure? = none) :
    t.after.snapshot.switchError = t.shownAfter := by
  cases hx : t.exhausts with
  | true =>
    have hafter : t.after.snapshot.switchError = some t.exhaustion.message := by
      rw [after, step_of_exhausts hx]
      exact congrArg Snapshot.switchError (SyncState.snapshot_setError _ _)
    simpa [shownAfter, exhausted?, hx] using hafter
  | false =>
    have hshows := shows hx
    rw [hf] at hshows
    have hkept : t.after.snapshot.switchError = t.before.snapshot.switchError := by
      change t.after.state.snapshot.switchError = _
      generalize t.after.state = state at ht hshows
      generalize t.after.cache = cache at ht
      cases ht with
      | nothing | checked | fetched | skipped | shutDown => rfl
      | expired => exact SyncState.switchError_expire _ _
      | exhausted error =>
        refine hshows.resolve_right ?_
        rw [SyncState.snapshot_setError]
        exact Option.some_ne_none error
    simpa [shownAfter, exhausted?, hx] using hkept

theorem switchError_of_goesOn (hs : t.before.Sound timings) (hr : r ∈ t.before.running)
    (hw : r'.work.isTrying = true) (hd : r.work.isDetached = true) (h : t.GoesOn r r') :
    r.work.isTrying = true ∧ t.after.snapshot.switchError = t.shownAfter := by
  cases h with
  | advances hears ha =>
    refine ⟨ha.isTrying hw, ?_⟩
    rw [shownAfter_of_hears hears]
    exact ha.switchError hw
  | stays hkept ht hdeaf =>
    exact ⟨hkept ▸ hw, switchError_of_touched ht (failure?_of_deaf hs hr hd hdeaf)⟩

theorem switchError_of_opening {s s' : Shared} {e : Event} {work : Work}
    (h : Controller.Opening s e work s') (hw : work.isTrying = true) :
    s'.state.snapshot.switchError = none := by
  cases h with
  | switch | reload => exact congrArg Snapshot.switchError (SyncState.snapshot_setError _ _)
  | recover | tick | refresh => cases hw

end Turn

/-! ### Over a run -/

def lastExhaustion? (past : List Turn) : Option Error := past.reverse.findSome? Turn.exhausted?

theorem lastExhaustion?_snoc (past : List Turn) (t : Turn) :
    lastExhaustion? (past ++ [t]) = t.exhausted?.or (lastExhaustion? past) := by
  rw [lastExhaustion?, List.reverse_append, List.findSome?_append]
  simp [lastExhaustion?]

theorem lastExhaustion?_eq_none {past : List Turn} :
    lastExhaustion? past = none ↔ ∀ t ∈ past, t.exhausts = false := by
  simp [lastExhaustion?, Turn.exhausted?]

/-- Since a piece of work has begun, the only errors shown are those of calls of `recover` that were
too much. -/
def ShowsExhaustion (past : List Turn) (n : Nat) (shown : Option String) : Prop :=
  ∃ earlier entry later, past = earlier ++ entry :: later ∧ entry.BeginsWork n ∧
    shown = (lastExhaustion? later).map Error.message

theorem ShowsExhaustion.snoc {past : List Turn} {n : Nat} {t : Turn}
    (h : ShowsExhaustion past n t.before.snapshot.switchError) :
    ShowsExhaustion (past ++ [t]) n t.shownAfter := by
  obtain ⟨earlier, entry, later, rfl, hbegins, hshown⟩ := h
  refine ⟨earlier, entry, later ++ [t], by simp, hbegins, ?_⟩
  rw [lastExhaustion?_snoc, Turn.shownAfter, hshown]
  cases t.exhausted? <;> rfl

namespace Controller

variable {timings : Timings} {past : List Turn} {t : Turn}

/-- What is shown while a switch or a reload goes on without a failure. -/
def ShowsNoFailure (past : List Turn) (c : Controller) : Prop :=
  ∀ r ∈ c.running, r.work.isTrying = true → ShowsExhaustion past r.id c.snapshot.switchError

theorem showsNoFailure_turn (hs : t.before.Sound timings) (h : t.before.ShowsNoFailure past) :
    t.after.ShowsNoFailure (past ++ [t]) := by
  intro r hr hw
  rcases Turn.workflow_of_turn hs hr (Work.isDetached_of_isTrying hw) with
    ⟨r₀, hr₀, hid, hd, hgoes⟩ | ⟨hbegins, hopening⟩
  · obtain ⟨hw₀, hshown⟩ := Turn.switchError_of_goesOn hs hr₀ hw hd hgoes
    rw [hshown, hid]
    exact (h r₀ hr₀ hw₀).snoc
  · exact ⟨past, t, [], rfl, hbegins, Turn.switchError_of_opening hopening hw⟩

theorem showsNoFailure_run (timings : Timings) (currentConfig : Option String) (es : List Event) :
    let c := initial timings currentConfig
    (c.run es).1.Sound timings ∧ (c.run es).1.ShowsNoFailure (c.turns es) := by
  intro c
  refine turns_induction (P := fun past c' => c'.Sound timings ∧ c'.ShowsNoFailure past)
    ⟨sound_initial timings currentConfig, fun r hr => by cases hr⟩ ?_ es
  rintro past t ⟨hs, h⟩
  exact ⟨hs.step t.event, showsNoFailure_turn hs h⟩

theorem step_of_ending {c : Controller} {r : Running} {e : Event} {signal : Signal} {s' : Shared}
    {result : Option Result} (hs : Hears c.later r e signal)
    (he : r.work.Ending c.later.shared signal s' result) :
    (c.step e).1 = { c.later with shared := s' }.drop (·.id == r.id) := by
  rw [step_of_hears hs]
  generalize hw : r.work = w at he
  unfold resume
  rw [hw]
  cases he with
  | switch h | recover h | reload h =>
    dsimp only
    rw [h]
    rfl
  | check => rfl
  | refetched h | notRefetched h =>
    simp only [h]
    rfl
  | refresh h hd =>
    dsimp only
    rw [h]
    simp [hd]

theorem switchError_of_ends {r : Running} {result : Result} {waited : Bool} (h : t.Ends r result)
    (hr : result.waited? = some waited) :
    r.work.isTrying = true ∧ t.after.snapshot.switchError = t.before.snapshot.switchError ∨
      r.work.activity? = some .recovering ∧ t.after.snapshot.switchError = none := by
  obtain ⟨signal, s', hears, hending⟩ := h
  have hafter : t.after.snapshot.switchError = s'.state.snapshot.switchError := by
    rw [Turn.after, step_of_ending hears hending]
    exact switchError_drop _ _
  rw [hafter]
  exact hending.switchError hr

/-- In every run: a recovery that ends well leaves no error showing. When a switch or a reload ends well,
the error that is shown is the one of the last call of `recover` since it began that was turned away
because the limit is reached; none is shown if and only if there was no such call. What callers are told
of a good end is told then. -/
theorem success_shows_only_exhaustion (timings : Timings) (currentConfig : Option String)
    (es : List Event) (e : Event) :
    let c := initial timings currentConfig
    let t : Turn := ⟨(c.run es).1, e⟩
    (∀ r attempt reloaded, t.Ends r (.recover (.ok (.recovered attempt reloaded))) →
      t.after.snapshot.switchError = none) ∧
    (∀ r result, t.Ends r result →
      (result = .reload (.ok ()) ∨ ∃ id remaining, result = .switch (.ok (.switched id remaining))) →
      ∃ earlier entry later, c.turns es = earlier ++ entry :: later ∧ entry.BeginsWork r.id ∧
        t.after.snapshot.switchError = (lastExhaustion? later).map Error.message ∧
        (t.after.snapshot.switchError = none ↔ ∀ u ∈ later, u.exhausts = false)) ∧
    (∀ n result waited, .ended n result ∈ t.outputs → result.waited? = some waited →
      ∃ r, r.id = n ∧ t.Ends r result) := by
  intro c t
  obtain ⟨hs, hshows⟩ := showsNoFailure_run timings currentConfig es
  refine ⟨?_, ?_, fun n result waited hm hr => ends_of_told hm hr⟩
  · intro r attempt reloaded hends
    rcases switchError_of_ends hends rfl with ⟨hw, -⟩ | ⟨-, hnone⟩
    · obtain ⟨signal, s', -, hending⟩ := hends
      generalize r.work = work at hw hending
      cases hending
      cases hw
    · exact hnone
  · intro r result hends hresult
    have hr : r ∈ t.before.running := by
      obtain ⟨signal, s', hears, -⟩ := hends
      exact mem_of_find? hears.find?
    have hwaited : result.waited? = some true := by
      rcases hresult with rfl | ⟨id, remaining, rfl⟩ <;> rfl
    rcases switchError_of_ends hends hwaited with ⟨hw, hkept⟩ | ⟨ha, -⟩
    · obtain ⟨earlier, entry, later, hpast, hbegins, hshown⟩ := hshows r hr hw
      refine ⟨earlier, entry, later, hpast, hbegins, hkept.trans hshown, ?_⟩
      rw [hkept, ← lastExhaustion?_eq_none]
      exact (congrArg (· = none) hshown).to_iff.trans Option.map_eq_none_iff
    · obtain ⟨signal, s', -, hending⟩ := hends
      generalize r.work = work at ha hending
      rcases hresult with rfl | ⟨id, remaining, rfl⟩ <;> cases hending <;> cases ha

def oneCore : Answer := .status (.ok ⟨[⟨1000, "core", none, true⟩], .null, .sidecar⟩)

/-- A recovery that goes well, and then a switch up to the last answer to its refresh, beside which one
more recovery is asked for. -/
def switchBesideRecover : List Event :=
  [.call .recover, .answer 0 0 oneCore, .answer 0 0 (.list (.error .notConfigured)),
    .answer 0 1 (.proxies (.error .notConfigured)), .answer 0 2 (.config (.error .notConfigured)),
    .call (.switch "b"), .answer 1 0 oneCore, .answer 1 0 (.switch (.ok ())), .call .recover,
    .pass 3000, .wake (.work 1), .answer 1 1 (.version (.ok ⟨"1", false⟩)), .answer 1 0 oneCore,
    .answer 1 0 (.store (.ok ())), .answer 1 0 (.list (.error .notConfigured)),
    .answer 1 1 (.proxies (.error .notConfigured))]

/-- The switch ends with the news that the profile was switched, and the error of the call of `recover`
is shown. -/
theorem switched_with_error_showing :
    let t : Turn := ⟨((initial strict (some "a")).run switchBesideRecover).1,
      .answer 1 2 (.config (.error .notConfigured))⟩
    .ended 1 (.switch (.ok (.switched "b" false))) ∈ t.outputs ∧
      t.after.snapshot.switchError = some (Error.recoveryExhausted 1).message := by
  intro t
  have houtputs : t.outputs = [.ended 1 (.switch (.ok (.switched "b" false)))] := by rfl
  exact ⟨houtputs ▸ List.mem_singleton.mpr rfl, by decide +kernel⟩

end Controller

end CoreWarden
