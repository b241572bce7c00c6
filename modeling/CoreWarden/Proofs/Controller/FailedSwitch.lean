import CoreWarden.Proofs.Controller.Bystander
import CoreWarden.Proofs.Controller.PendingReset

/-!
A switch that fails. As long as the core has not proved healthy a switch leaves alone what a commit
would change; when it fails it enters the failure in the history, shows the error, calls off the reset
timer and checks for conflicts once more. Nothing that happens beside it undoes any of this.
-/
namespace CoreWarden

open Controller (Hears Touched)

/-! ### Before the proof -/

namespace Switch

/-- The health wait is not passed; after a failure it never is. -/
def isUnproven : Switch → Bool
  | confirming | storing _ | refreshing .. => false
  | _ => true

variable {s s' : Shared} {id : String} {phase phase' : Switch} {signal : Signal}
  {asks : List (Nat × Request)}

theorem isUnproven_of_resume (h : resume s id phase signal = (s', .waiting phase' asks))
    (hp : phase'.isUnproven = true) : phase.isUnproven = true := by
  revert h
  fun_cases resume s id phase signal <;> intro h
  case case10 | case11 =>
    cases h
    cases hp
  case case12 =>
    unfold refreshed at h
    split at h <;> cases h
    cases hp
  case case14 =>
    cases h
    exact hp
  all_goals rfl

/-- What a switch asks for that has not proved healthy. -/
theorem request_of_isUnproven {a : Nat × Request} (hp : phase.isUnproven = true)
    (ha : a ∈ phase.awaits id) : a.2 ∈ [.status, .restart, .switch id, .version] := by
  cases phase with
  | confirming | storing | refreshing => cases hp
  | probing probe =>
    cases probe with
    | asking started attempt limit =>
      obtain rfl := List.mem_singleton.mp ha
      simp
    | resting started attempt wake => cases ha
  | resolving wake | pausing wake => cases ha
  | checking | rechecking | restarting | switching | reporting e =>
    obtain rfl := List.mem_singleton.mp ha
    simp

theorem cache_of_isUnproven (h : resume s id phase signal = (s', .waiting phase' asks))
    (hp : phase'.isUnproven = true) : s'.cache = s.cache := by
  have hstage : ∀ refresh, phase'.stage ≠ .renewing refresh := by
    intro refresh
    cases phase' with
    | refreshing => cases hp
    | _ => simp [stage]
  have hwrites := writes h
  generalize s'.cache = cache at hwrites
  cases hwrites with
  | nothing => rfl
  | begins _ hs' => exact absurd hs' (hstage _)
  | settles hs hs' =>
    rcases hs' with hs' | hs'
    · exact absurd hs' (hstage _)
    · cases phase' <;> cases hs'

theorem reporting_of_waiting {e : Error}
    (h : resume s id (.reporting e) signal = (s', .waiting phase' asks)) :
    phase' = .reporting e ∧ asks = [] := by
  generalize hphase : reporting e = phase at h
  revert h
  fun_cases resume s id phase signal <;> intro h
  case case13 => cases h
  case case14 =>
    cases h
    exact ⟨rfl, rfl⟩
  all_goals cases hphase

end Switch

/-! ### What is left alone -/

namespace SyncState

/-- What a commit would change is as it was. -/
structure Spared (s t : SyncState) : Prop where
  currentConfig : t.snapshot.currentConfig = s.snapshot.currentConfig
  lastSuccess : t.snapshot.lastSuccess = s.snapshot.lastSuccess
  attempts : t.snapshot.recoveryAttempts ≤ s.snapshot.recoveryAttempts
  reset : t.reset = s.reset ∨ t.reset = .empty

theorem spared_of_eq {s t : SyncState} (hc : t.snapshot.currentConfig = s.snapshot.currentConfig)
    (hl : t.snapshot.lastSuccess = s.snapshot.lastSuccess)
    (ha : t.snapshot.recoveryAttempts = s.snapshot.recoveryAttempts)
    (hr : t.reset = s.reset ∨ t.reset = .empty) : s.Spared t :=
  ⟨hc, hl, UInt32.le_of_eq ha, hr⟩

theorem spared_refl (s : SyncState) : s.Spared s := spared_of_eq rfl rfl rfl (.inl rfl)

theorem Spared.trans {s t u : SyncState} (h : s.Spared t) (k : t.Spared u) : s.Spared u where
  currentConfig := k.currentConfig.trans h.currentConfig
  lastSuccess := k.lastSuccess.trans h.lastSuccess
  attempts := UInt32.le_trans k.attempts h.attempts
  reset := by
    rcases k.reset with hr | hr
    · rw [hr]
      exact h.reset
    · exact .inr hr

theorem Spared.empty {s t : SyncState} (h : s.Spared t) (hs : s.reset = .empty) : t.reset = .empty :=
  h.reset.elim (·.trans hs) id

theorem spared_setError (s : SyncState) (e : Option String) : s.Spared (s.setError e) :=
  spared_of_eq (by simp) (by simp) (by simp) (.inl (by simp))

theorem spared_leave (s : SyncState) (a : Activity) : s.Spared (s.leave a) := by
  unfold leave
  split
  · exact spared_of_eq rfl rfl rfl (.inl rfl)
  · exact s.spared_refl

theorem spared_expire (s : SyncState) (now : Nat) : s.Spared (s.expire now) := by
  cases hw : s.reset.waiting with
  | none =>
    have hexpire : s.expire now = s := by simp [expire, TimerSlot.expire, hw]
    rw [hexpire]
    exact s.spared_refl
  | some alarm =>
    by_cases hn : alarm.due ≤ now
    · obtain ⟨hs, hr⟩ := s.expire_of_due (by simp [TimerSlot.due?, hw]) hn
      refine ⟨?_, ?_, ?_, .inr hr⟩ <;> simp [hs]
    · have hexpire : s.expire now = s := by simp [expire, TimerSlot.expire, hw, hn]
      rw [hexpire]
      exact s.spared_refl

end SyncState

theorem Switch.spared_of_resume {s s' : Shared} {id : String} {phase : Switch} {signal : Signal}
    {step : Step} (h : resume s id phase signal = (s', step))
    (hbad : ∀ outcome, step ≠ .done (.ok outcome)) : s.state.Spared s'.state := by
  have heffect := (effect h).1
  generalize s'.state = state at heffect
  cases heffect with
  | none => exact s.state.spared_refl
  | check => exact SyncState.spared_of_eq rfl rfl rfl (.inl rfl)
  | failure => exact SyncState.spared_of_eq rfl rfl rfl (.inr rfl)
  | success => exact absurd rfl (hbad _)

namespace Controller

variable {c : Controller} {e : Event} {state : SyncState} {cache : Cache}

theorem Touched.spared (h : Touched c e state cache) : c.state.Spared state := by
  cases h with
  | nothing | fetched => exact c.state.spared_refl
  | checked | skipped => exact SyncState.spared_of_eq rfl rfl rfl (.inl rfl)
  | exhausted => exact c.state.spared_setError _
  | expired => exact c.state.spared_expire _
  | shutDown => exact SyncState.spared_of_eq rfl rfl rfl (.inr rfl)

theorem Touched.find? (h : Touched c e state cache) {key : CacheKey}
    (hkey : ∀ r signal, r.work = .refetch key → ¬ Hears c r e signal) :
    cache.find? key = c.cache.find? key := by
  cases h with
  | @fetched r key' signal hs hw value =>
    rw [Cache.set, Cache.find?_put, if_neg]
    rintro rfl
    exact hkey r signal hw hs
  | nothing | checked | skipped | exhausted | expired | shutDown => rfl

theorem resume_of_waiting {c : Controller} {r : Running} {id : String} {phase phase' : Switch}
    {signal : Signal} {s' : Shared} {asks : List (Nat × Request)} (hw : r.work = .switch id phase)
    (h : phase.resume c.shared id signal = (s', .waiting phase' asks)) :
    c.resume r signal = ({ c with shared := s' }.replaceWork r.id (.switch id phase'),
      asks.map fun a => .ask r.id a.1 a.2) := by
  simp [resume, hw, h, proceed]

theorem resume_of_done {c : Controller} {r : Running} {id : String} {phase : Switch} {signal : Signal}
    {s' : Shared} {result : Except Error SwitchOutcome} (hw : r.work = .switch id phase)
    (h : phase.resume c.shared id signal = (s', .done result)) :
    c.resume r signal = { c with shared := s' }.finish r (.switch result) := by
  simp [resume, hw, h, proceed]

end Controller

/-! ### The turns of a switch that fails -/

namespace Turn

def Refetches (t : Turn) (key : CacheKey) : Prop :=
  ∃ r signal, r.work = .refetch key ∧ Hears t.before.later r t.event signal

/-- What a commit would change is as it was, and so is the cache but for what is refetched. -/
structure Spares (t : Turn) : Prop where
  state : t.before.state.Spared t.after.state
  cache : ∀ key, ¬ t.Refetches key → t.after.cache.find? key = t.before.cache.find? key

variable {timings : Timings} {t : Turn} {r r' : Running} {id : String} {phase phase' : Switch}

theorem switch_goes_on (hs : t.before.Sound timings) (hr : r ∈ t.before.running)
    (hw : r.work = .switch id phase) (hr' : r' ∈ t.after.running) (hid : r'.id = r.id) :
    (∃ signal s' phase' asks, Hears t.before.later r t.event signal ∧
      phase.resume t.before.later.shared id signal = (s', .waiting phase' asks) ∧
      r'.work = .switch id phase' ∧ t.after.shared = s' ∧
      t.outputs = asks.map fun a => .ask r.id a.1 a.2) ∨
    (r'.work = .switch id phase ∧ Touched t.before.later t.event t.after.state t.after.cache ∧
      ∀ signal, ¬ Hears t.before.later r t.event signal) := by
  have hd : r.work.isDetached = true := by simp [hw, Work.isDetached]
  cases goes_on hs hr hd hr' hid with
  | @advances signal asks hears ha houtputs =>
    rw [hw] at ha
    generalize hw' : r'.work = work at ha
    generalize hshared : t.after.shared = s' at ha
    cases ha with
    | switch hresume => exact .inl ⟨signal, s', _, asks, hears, hresume, rfl, rfl, houtputs⟩
  | stays hkept htouched hdeaf => exact .inr ⟨hkept.trans hw, htouched, hdeaf⟩

theorem spares_of_isUnproven (hs : t.before.Sound timings) (hr : r ∈ t.before.running)
    (hw : r.work = .switch id phase) (hr' : r' ∈ t.after.running) (hid : r'.id = r.id)
    (hw' : r'.work = .switch id phase') (hp : phase'.isUnproven = true) : t.Spares := by
  rcases switch_goes_on hs hr hw hr' hid with
    ⟨signal, s', phase₁, asks, hears, hresume, hw₁, hshared, -⟩ | ⟨-, htouched, -⟩
  · cases hw'.symm.trans hw₁
    have hstate : t.after.state = s'.state := congrArg Shared.state hshared
    have hkept : s'.cache = t.before.later.cache := Switch.cache_of_isUnproven hresume hp
    have hcache : t.after.cache = t.before.cache := (congrArg Shared.cache hshared).trans hkept
    refine ⟨?_, fun key _ => by rw [hcache]⟩
    change t.before.later.state.Spared t.after.state
    rw [hstate]
    exact Switch.spared_of_resume hresume (by simp)
  · exact ⟨htouched.spared, fun key hkey => htouched.find? fun r signal hw hears =>
      hkey ⟨r, signal, hw, hears⟩⟩

/-- A switch that was not settled, or was before, enters nothing in the history. -/
theorem history_of_switch (hs : t.before.Sound timings) (hr : r ∈ t.before.running)
    (hw : r.work = .switch id phase) (hr' : r' ∈ t.after.running) (hid : r'.id = r.id)
    (hw' : r'.work = .switch id phase')
    (hp : phase.isReporting = true ∨ phase'.isReporting = false) :
    t.after.snapshot.history = t.before.snapshot.history := by
  have hnone : t.switchEnd? = none := by
    cases hend : t.switchEnd? with
    | none => rfl
    | some e =>
      obtain ⟨⟨r₁, hr₁, phase₁, hid₁, hw₁, hp₁⟩, hafter⟩ := settled_of_switchEnd? hend
      obtain rfl := hs.eq_of_switch hr hw hr₁ hw₁
      obtain ⟨phase₂, hw₂, hp₂⟩ := hafter r' hr' (hid.trans hid₁)
      cases hw.symm.trans hw₁
      cases hw'.symm.trans hw₂
      rcases hp with hp | hp
      · rw [hp] at hp₁
        cases hp₁
      · rw [hp] at hp₂
        cases hp₂
  rw [t.history, hnone]
  rfl

theorem awaits_of_asks (hs : t.before.Sound timings) (hr' : r' ∈ t.after.running) {slot : Nat}
    {request : Request} (h : .ask r'.id slot request ∈ t.outputs) :
    (slot, request) ∈ r'.work.awaits := by
  obtain ⟨r₀, hr₀, hid, ha⟩ :=
    Controller.awaited_of_act (Controller.act_step t.before t.event) h
  obtain rfl := (hs.step t.event).eq_of_id hr₀ hr' hid
  exact ha

/-- The failure is entered in the history, shown, and followed by one more check. -/
theorem of_failsSwitch {e : Error} (h : t.FailsSwitch r id e) :
    (∃ phase, r.work = .switch id phase ∧ phase.isUnproven = true ∧ phase.isReporting = false) ∧
      { r with work := .switch id (.reporting e) } ∈ t.after.running ∧
      t.after.state = t.before.state.recordSwitchFailure id e.message t.before.later.shared.wall ∧
      t.outputs = [.ask r.id 0 .status] := by
  obtain ⟨phase, signal, hw, hears, hfault⟩ := h
  have hresume : phase.resume t.before.later.shared id signal = _ := Switch.resume_of_fault hfault
  have hstep := Controller.step_of_hears hears
  rw [Controller.resume_of_waiting hw hresume] at hstep
  refine ⟨⟨phase, hw, ?_⟩, ?_, ?_, ?_⟩
  · cases phase with
    | switching | probing => exact ⟨rfl, rfl⟩
    | _ => cases hfault
  · rw [after, hstep]
    exact Controller.mem_replaceWork (c := { t.before.later with shared := _ })
      (Controller.mem_of_find? hears.find?) _
  · rw [after, hstep]
    rfl
  · rw [outputs, hstep]
    rfl

theorem history_of_failsSwitch {e : Error} {limits : Nat × Nat} (hl : t.before.limits = limits)
    (h : t.FailsSwitch r id e) : t.after.snapshot.history = (t.before.snapshot.history ++
      [HistoryEntry.mk id t.before.later.shared.wall false]).rtake limits.1 := by
  obtain ⟨-, -, hstate, -⟩ := of_failsSwitch h
  have hlimit : t.before.state.historyLimit = limits.1 := congrArg Prod.fst hl
  rw [← hlimit]
  exact congrArg (·.snapshot.history) hstate

theorem reporting_goes_on (hs : t.before.Sound timings) (hr : r ∈ t.before.running) {e : Error}
    (hw : r.work = .switch id (.reporting e)) (hr' : r' ∈ t.after.running) (hid : r'.id = r.id) :
    r'.work = .switch id (.reporting e) ∧ ∀ request, ¬ t.Asks r.id request := by
  rcases switch_goes_on hs hr hw hr' hid with
    ⟨signal, s', phase', asks, hears, hresume, hw', -, houtputs⟩ | ⟨hw', -, hdeaf⟩
  · obtain ⟨rfl, rfl⟩ := Switch.reporting_of_waiting hresume
    refine ⟨hw', ?_⟩
    rintro request ⟨slot, hask⟩
    rw [houtputs] at hask
    cases hask
  · refine ⟨hw', ?_⟩
    rintro request ⟨slot, hask⟩
    rcases Controller.hears_of_asks (Controller.act_step t.before t.event) hask with
      hnew | ⟨r₀, signal, hid₀, hears⟩
    · exact Nat.ne_of_lt (hs.ids_lt r hr) hnew
    · obtain rfl := hs.eq_of_id (Controller.mem_of_find? hears.find?) hr hid₀
      exact hdeaf signal hears

theorem reporting_ends (hs : t.before.Sound timings) (hr : r ∈ t.before.running) {e : Error}
    (hw : r.work = .switch id (.reporting e)) {result : Except Error StatusReport}
    (he : t.event = .answer r.id 0 (.status result)) :
    t.after = ({ t.before.later with shared := (t.before.later.shared.check result).2 }.drop
        (·.id == r.id)) ∧
      t.outputs = Controller.report r (.switch (.error e)) := by
  have hears : Hears t.before.later r t.event (.answer 0 (.status result)) := by
    have hawaits : (0, .status) ∈ r.work.awaits := by simp [hw, Work.awaits, Switch.awaits]
    rw [he]
    exact .answer (hs.find?_eq_some hr) hawaits (by simp)
  have hstep := Controller.step_of_hears hears
  have hdone : (Switch.reporting e).resume t.before.later.shared id (.answer 0 (.status result)) =
      ((t.before.later.shared.check result).2, .done (.error e)) := rfl
  rw [Controller.resume_of_done hw hdone] at hstep
  exact ⟨congrArg Prod.fst hstep, congrArg Prod.snd hstep⟩

theorem of_opens (hs : t.before.Sound timings) {n : Nat} (h : t.Opens n id) :
    t.after.state = (t.before.state.modify (·.withActivity .switching)).setError none ∧
      t.after.cache = t.before.cache ∧ t.outputs = [.ask n 0 .status] := by
  obtain ⟨he, rfl, hr⟩ := h
  have hstep : t.before.step t.event = t.before.later.startSwitch id := by
    rw [he]
    rfl
  have hnew : (⟨t.before.nextId, .caller true, .switch id .checking⟩ : Running) ∉ t.before.running :=
    fun hmem => Nat.lt_irrefl _ (hs.ids_lt _ hmem)
  rw [after, hstep] at hr
  rw [after, outputs, hstep]
  revert hr
  unfold Controller.startSwitch
  split
  · exact fun hr => absurd hr hnew
  · split
    · exact fun hr => absurd hr hnew
    · by_cases hi : t.before.later.state.activity = .idle
      · rw [SyncState.enter_of_idle _ _ hi]
        exact fun _ => ⟨rfl, rfl, rfl⟩
      · rw [SyncState.enter_of_ne_idle _ _ hi]
        exact fun hr => absurd hr hnew

end Turn

/-! ### Over a stretch of a run -/

namespace Controller

variable {timings : Timings} {c : Controller} {n : Nat} {id : String} {p : Work → Prop}

/-- The work under a number goes on, and is of a kind. -/
def Stands (c : Controller) (n : Nat) (p : Work → Prop) : Prop :=
  ∃ r ∈ c.running, r.id = n ∧ p r.work

theorem Stands.before {t : Turn} (hs : t.before.Sound timings) (hn : n < t.before.nextId)
    (hp : ∀ {s w signal s' w' asks}, Work.Advance s w signal s' w' asks → p w' → p w)
    (h : t.after.Stands n p) : t.before.Stands n p := by
  obtain ⟨r, hr, rfl, hw⟩ := h
  have hsource := source_of_turn hs hr
  generalize t.outputs = outputs at hsource
  cases hsource with
  | @kept r₀ _ _ hr₀ => exact ⟨r₀, hr₀, rfl, hw⟩
  | opened | joined => exact absurd hn (Nat.lt_irrefl _)
  | @advanced r₀ _ _ _ _ hears ha => exact ⟨r₀, mem_of_find? hears.find?, rfl, hp ha hw⟩

theorem Stands.start (hs : c.Sound timings) (hn : n < c.nextId)
    (hp : ∀ {s w signal s' w' asks}, Work.Advance s w signal s' w' asks → p w' → p w) (es : List Event)
    (h : (c.run es).1.Stands n p) : c.Stands n p := by
  induction es generalizing c with
  | nil => exact h
  | cons e es ih =>
    have hle : c.nextId ≤ (c.step e).1.nextId := nextId_le_of_turn ⟨c, e⟩
    have hafter := ih (hs.step e) (Nat.lt_of_lt_of_le hn hle) h
    exact Stands.before (t := ⟨c, e⟩) hs hn hp hafter

/-- A switch that is on its way to the proof. -/
def IsTrying (id : String) (w : Work) : Prop :=
  ∃ phase, w = .switch id phase ∧ phase.isUnproven = true ∧ phase.isReporting = false

theorem isTrying_of_advance {s s' : Shared} {w w' : Work} {signal : Signal} {asks : List (Nat × Request)}
    (h : w.Advance s signal s' w' asks) (hw : IsTrying id w') : IsTrying id w := by
  obtain ⟨phase', rfl, hp, hq⟩ := hw
  cases h with
  | @switch _ phase _ _ _ _ hresume =>
    have hreporting := Switch.isReporting_of_resume hresume
    rw [hq] at hreporting
    exact ⟨phase, rfl, Switch.isUnproven_of_resume hresume hp,
      (Bool.or_eq_false_iff.mp hreporting.symm).1⟩

/-- As long as a switch is on its way to the proof, it leaves everything alone. -/
theorem trying_run (hs : c.Sound timings) (hn : n < c.nextId) (es : List Event)
    (h : (c.run es).1.Stands n (IsTrying id)) : ∀ t ∈ c.turns es, t.Spares ∧
      t.after.snapshot.history = t.before.snapshot.history ∧
      ∀ request, t.Asks n request → request ∈ [.status, .restart, .switch id, .version] := by
  induction es generalizing c with
  | nil => simp [turns]
  | cons e es ih =>
    let u : Turn := ⟨c, e⟩
    have hle : c.nextId ≤ u.after.nextId := nextId_le_of_turn u
    have hafter : u.after.Stands n (IsTrying id) :=
      Stands.start (hs.step e) (Nat.lt_of_lt_of_le hn hle) isTrying_of_advance es h
    obtain ⟨r, hr, hid, phase, hw, -⟩ := Stands.before (t := u) hs hn isTrying_of_advance hafter
    obtain ⟨r', hr', hid', phase', hw', hp', hq'⟩ := hafter
    intro t ht
    rcases List.mem_cons.mp ht with rfl | ht
    · have hsame := hid'.trans hid.symm
      refine ⟨Turn.spares_of_isUnproven hs hr hw hr' hsame hw' hp',
        Turn.history_of_switch hs hr hw hr' hsame hw' (.inr hq'), ?_⟩
      rintro request ⟨slot, hask⟩
      rw [← hid'] at hask
      have ha := Turn.awaits_of_asks hs hr' hask
      rw [hw'] at ha
      exact Switch.request_of_isUnproven hp' ha
    · exact ih (hs.step e) (Nat.lt_of_lt_of_le hn hle) h t ht

theorem reporting_run (hs : c.Sound timings) {err : Error}
    (h : c.Stands n (· = .switch id (.reporting err))) (es : List Event)
    (hend : (c.run es).1.Stands n fun _ => True) :
    (c.run es).1.Stands n (· = .switch id (.reporting err)) ∧ ∀ t ∈ c.turns es, t.Spares ∧
      t.after.snapshot.history = t.before.snapshot.history ∧ ∀ request, ¬ t.Asks n request := by
  induction es generalizing c with
  | nil => exact ⟨h, by simp [turns]⟩
  | cons e es ih =>
    let u : Turn := ⟨c, e⟩
    obtain ⟨r, hr, rfl, hw⟩ := h
    have hn : r.id < u.after.nextId :=
      Nat.lt_of_lt_of_le (hs.ids_lt r hr) (nextId_le_of_turn u)
    obtain ⟨r', hr', hid, -⟩ : u.after.Stands r.id fun _ => True :=
      Stands.start (hs.step e) hn (fun _ _ => trivial) es hend
    obtain ⟨hw', hasks⟩ := Turn.reporting_goes_on (t := u) hs hr hw hr' hid
    obtain ⟨hlast, hrest⟩ := ih (hs.step e) ⟨r', hr', hid, hw'⟩ hend
    refine ⟨hlast, ?_⟩
    intro t ht
    rcases List.mem_cons.mp ht with rfl | ht
    · exact ⟨Turn.spares_of_isUnproven hs hr hw hr' hid hw' rfl,
        Turn.history_of_switch hs hr hw hr' hid hw' (.inl rfl), hasks⟩
    · exact hrest t ht

theorem spared_drop (c : Controller) (p : Running → Bool) : c.state.Spared (c.drop p).state :=
  List.foldlRecOn (motive := c.state.Spared) _ _ c.state.spared_refl
    fun _ hs a _ => hs.trans (SyncState.spared_leave _ a)

def Reports (c : Controller) (report : ConflictReport) : Prop :=
  c.snapshot.multiCoreWarning = report.hasConflict ∧ c.snapshot.conflict = report.status ∧
    c.snapshot.runningCores = report.instances

theorem reports_drop {report : ConflictReport} (h : c.Reports report) (q : Running → Bool) :
    (c.drop q).Reports report := by
  have hkept := state_drop (fun s : SyncState =>
    (s.snapshot.multiCoreWarning, s.snapshot.conflict, s.snapshot.runningCores)) (fun s a => by
      rw [SyncState.snapshot_leave]
      split <;> rfl) c q
  obtain ⟨hw, hrest⟩ := Prod.mk.inj hkept
  obtain ⟨hc, hr⟩ := Prod.mk.inj hrest
  exact ⟨hw.trans h.1, hc.trans h.2.1, hr.trans h.2.2⟩

theorem Exclusive.idle_of_dropId {r : Running} (h : c.Exclusive) (hr : r ∈ c.running)
    (ha : r.work.activity?.isSome = true) : (c.drop (·.id == r.id)).state.activity = .idle := by
  by_contra hne
  obtain ⟨r', hr', ha'⟩ := (h.drop _).exists_holder hne
  obtain ⟨hmem, hid⟩ := List.mem_filter.mp hr'
  obtain rfl := h.eq_of_activity? hmem hr (by simp [ha']) ha
  simp at hid

theorem spares_of_opens {t : Turn} (hs : t.before.Sound timings) (h : t.Opens n id) : t.Spares ∧
    t.after.snapshot.history = t.before.snapshot.history ∧
      ∀ request, t.Asks n request → request = .status := by
  obtain ⟨hstate, hcache, houtputs⟩ := Turn.of_opens hs h
  have hspared : t.before.state.Spared (t.before.state.modify (·.withActivity .switching)) :=
    SyncState.spared_of_eq rfl rfl rfl (.inl rfl)
  refine ⟨⟨hstate ▸ hspared.trans (SyncState.spared_setError _ _), fun key _ => by rw [hcache]⟩, ?_, ?_⟩
  · have hsnapshot : t.after.snapshot = _ := congrArg SyncState.snapshot hstate
    rw [hsnapshot, SyncState.snapshot_setError]
    rfl
  · rintro request ⟨slot, hask⟩
    rw [houtputs, List.mem_singleton] at hask
    cases hask
    rfl

theorem of_reporting_ends {t : Turn} (hs : t.before.Sound timings) {r : Running}
    (hr : r ∈ t.before.running) {err : Error} (hw : r.work = .switch id (.reporting err))
    {result : Except Error StatusReport} (he : t.event = .answer r.id 0 (.status result)) :
    t.Spares ∧ t.after.snapshot.history = t.before.snapshot.history ∧
      (∀ m request, ¬ t.Asks m request) ∧ t.after.state.activity = .idle ∧
        t.after.Reports (.ofStatus result) ∧ t.outputs = report r (.switch (.error err)) := by
  obtain ⟨hafter, houtputs⟩ := Turn.reporting_ends hs hr hw he
  let checked : Controller := { t.before.later with shared := (t.before.later.shared.check result).2 }
  have hchecked : checked.Exclusive := hs.toExclusive.keep rfl (Nat.le_refl _) rfl
  have hspared : t.before.state.Spared checked.state := SyncState.spared_of_eq rfl rfl rfl (.inl rfl)
  have hafter' : t.after = checked.drop (·.id == r.id) := hafter
  refine ⟨⟨?_, fun key _ => ?_⟩, ?_, ?_, ?_, ?_, houtputs⟩
  · rw [hafter']
    exact hspared.trans (spared_drop _ _)
  · rw [hafter']
    rfl
  · rw [hafter']
    exact history_drop checked _
  · rintro m request ⟨slot, hask⟩
    rw [houtputs] at hask
    exact not_ask_mem_report hask
  · rw [hafter']
    exact hchecked.idle_of_dropId hr (by simp [hw, Work.activity?])
  · rw [hafter']
    exact reports_drop (c := checked) ⟨rfl, rfl, rfl⟩ _

/-! ### What the turns of a stretch leave alone, all of it leaves alone -/

theorem history_run {es : List Event} (h : ∀ t ∈ c.turns es, t.after.snapshot.history = t.before.snapshot.history) :
    (c.run es).1.snapshot.history = c.snapshot.history ∧
      ∀ t ∈ c.turns es, t.after.snapshot.history = c.snapshot.history :=
  turns_trans (R := fun c c' => c'.snapshot.history = c.snapshot.history) (fun _ => rfl)
    (fun h k => k.trans h) h

theorem spared_run {es : List Event} (h : ∀ t ∈ c.turns es, t.Spares) :
    ∀ t ∈ c.turns es, c.state.Spared t.after.state :=
  (turns_trans (R := fun c c' => c.state.Spared c'.state) (fun c => c.state.spared_refl)
    SyncState.Spared.trans fun t ht => (h t ht).state).2

theorem cache_run {es : List Event} (h : ∀ t ∈ c.turns es, t.Spares) {key : CacheKey}
    (hkey : ∀ t ∈ c.turns es, ¬ t.Refetches key) :
    ∀ t ∈ c.turns es, t.after.cache.find? key = c.cache.find? key :=
  (turns_trans (R := fun c c' => c'.cache.find? key = c.cache.find? key) (fun _ => rfl)
    (fun h k => k.trans h) fun t ht => (h t ht).cache key (hkey t ht)).2

/-- A switch that fails changes nothing but diagnostics. Whatever happens beside it, from the call to
the return: the profile, the last success and the cache stay as they are, but for keys that are fetched
directly, and the attempts do not grow; the switch asks for nothing but the status, a restart, the
switch itself and the version. The failure is entered once in the history and shown; no attempt reset is
pending from then on; and one more check, whose report is applied last, ends the switch. -/
theorem failed_switch_changes_diagnostics_only (timings : Timings) (currentConfig : Option String)
    (es₀ es₁ es₂ : List Event) (e : Event) (n : Nat) (id : String) (err : Error)
    (result : Except Error StatusReport) :
    let c := ((initial timings currentConfig).run es₀).1
    let entry : Turn := ⟨c, .call (.switch id)⟩
    let failure : Turn := ⟨(entry.after.run es₁).1, e⟩
    let last : Turn := ⟨(failure.after.run es₂).1, .answer n 0 (.status result)⟩
    let trying := entry :: entry.after.turns es₁
    let failed := failure :: (failure.after.turns es₂ ++ [last])
    entry.Opens n id → (∃ r, r.id = n ∧ failure.FailsSwitch r id err) →
    (last.before.find? n).isSome = true →
    (∀ t ∈ trying ++ failed, t.after.snapshot.currentConfig = c.snapshot.currentConfig ∧
      t.after.snapshot.lastSuccess = c.snapshot.lastSuccess ∧
      t.after.snapshot.recoveryAttempts ≤ c.snapshot.recoveryAttempts ∧
      (∀ key, (∀ u ∈ trying ++ failed, ¬ u.Refetches key) →
        t.after.cache.find? key = c.cache.find? key) ∧
      ∀ request, t.Asks n request → request ∈ [.status, .restart, .switch id, .version]) ∧
    (∀ t ∈ trying, t.after.snapshot.history = c.snapshot.history) ∧
    (∀ t ∈ failed, t.after.snapshot.history =
        (c.snapshot.history ++ [HistoryEntry.mk id failure.before.later.shared.wall false]).rtake
          timings.historyLimit.toNat ∧
      t.after.state.reset = .empty) ∧
    failure.after.snapshot.switchError = some err.message ∧
    failure.outputs = [.ask n 0 .status] ∧
    (∀ t ∈ failure.after.turns es₂ ++ [last], ∀ request, ¬ t.Asks n request) ∧
    last.after.state.activity = .idle ∧ last.after.Reports (.ofStatus result) ∧
    ∃ r, last.before.find? n = some r ∧ last.outputs = report r (.switch (.error err)) := by
  intro c entry failure last trying failed hopens hfails hfound
  have hs : c.Sound timings := (sound_initial timings currentConfig).run es₀
  have hs₁ : entry.after.Sound timings := hs.step entry.event
  have hs₂ : failure.before.Sound timings := hs₁.run es₁
  have hs₃ : failure.after.Sound timings := hs₂.step e
  have hs₄ : last.before.Sound timings := hs₃.run es₂
  -- The switch is on its way to the proof until it fails, and reports the failure from then on.
  obtain ⟨hentry, hhistory₀, hasks₀⟩ := spares_of_opens (t := entry) hs hopens
  obtain ⟨r, rfl, hfails⟩ := hfails
  obtain ⟨⟨phase, hw, hp⟩, hreporting, hstate, houtputs⟩ := Turn.of_failsSwitch hfails
  have hr : r ∈ failure.before.running := by
    obtain ⟨phase', signal, -, hears, -⟩ := hfails
    exact mem_of_find? hears.find?
  have htrying := trying_run hs₁ (hs₁.ids_lt _ hopens.2.2) es₁ ⟨r, hr, rfl, phase, hw, hp⟩
  obtain ⟨r', hr'⟩ := Option.isSome_iff_exists.mp hfound
  have hend : last.before.Stands r.id fun _ => True :=
    ⟨r', mem_of_find? hr', id_of_find? hr', trivial⟩
  obtain ⟨⟨r₁, hr₁, hid₁, hw₁⟩, hreported⟩ :=
    reporting_run hs₃ ⟨_, hreporting, rfl, rfl⟩ es₂ hend
  obtain rfl : r₁ = r' := hs₄.eq_of_id hr₁ (mem_of_find? hr') (hid₁.trans (id_of_find? hr').symm)
  have hid : r₁.id = r.id := hid₁
  have hevent : last.event = .answer r₁.id 0 (.status result) := by rw [hid]
  obtain ⟨hspares, hhistory₁, hasks₁, hidle, hreports, hended⟩ :=
    of_reporting_ends hs₄ hr₁ hw₁ hevent
  have htried : ∀ t ∈ trying, t.Spares ∧ t.after.snapshot.history = t.before.snapshot.history ∧
      ∀ request, t.Asks r.id request → request ∈ [.status, .restart, .switch id, .version] :=
    List.forall_mem_cons.mpr
      ⟨⟨hentry, hhistory₀, fun request hask => by simp [hasks₀ request hask]⟩, htrying⟩
  have hquiet : ∀ t ∈ failure.after.turns es₂ ++ [last], t.Spares ∧
      t.after.snapshot.history = t.before.snapshot.history ∧ ∀ request, ¬ t.Asks r.id request :=
    List.forall_mem_append.mpr ⟨hreported, by simpa using ⟨hspares, hhistory₁, hasks₁ r.id⟩⟩
  have hfailure : failure.Spares :=
    Turn.spares_of_isUnproven hs₂ hr hw hreporting rfl rfl rfl
  have hwhole : trying ++ failed =
      c.turns ((.call (.switch id) :: es₁) ++ (e :: (es₂ ++ [last.event]))) := by
    rw [turns_append]
    exact congrArg (trying ++ failure :: ·) (turns_snoc failure.after es₂ last.event).symm
  have hall : ∀ t ∈ trying ++ failed, t.Spares := by
    intro t ht
    rcases List.mem_append.mp ht with ht | ht
    · exact (htried t ht).1
    · rcases List.mem_cons.mp ht with rfl | ht
      · exact hfailure
      · exact (hquiet t ht).1
  have hunwritten : ∀ t ∈ c.turns (.call (.switch id) :: es₁),
      t.after.snapshot.history = t.before.snapshot.history := fun t ht => (htried t ht).2.1
  obtain ⟨hbefore, htrials⟩ := history_run hunwritten
  have hreset : failure.after.state.reset = .empty := congrArg SyncState.reset hstate
  have hafter : failure.after.snapshot.history = (c.snapshot.history ++
      [HistoryEntry.mk id failure.before.later.shared.wall false]).rtake timings.historyLimit.toNat := by
    have hlimits : failure.before.limits = (initial timings currentConfig).limits :=
      (limits_run c (.call (.switch id) :: es₁)).trans (limits_run _ es₀)
    rw [← hbefore]
    exact Turn.history_of_failsSwitch hlimits hfails
  have hrest : ∀ t ∈ failure.after.turns es₂ ++ [last],
      t.after.snapshot.history = failure.after.snapshot.history ∧
        failure.after.state.Spared t.after.state := by
    rw [← turns_snoc failure.after es₂ last.event] at hquiet ⊢
    intro t ht
    exact ⟨(history_run fun u hu => (hquiet u hu).2.1).2 t ht,
      spared_run (fun u hu => (hquiet u hu).1) t ht⟩
  refine ⟨?_, htrials, ?_, ?_, houtputs, fun t ht => (hquiet t ht).2.2, hidle, hreports, r₁, hr', hended⟩
  · -- Every turn of the stretch spares what a commit would change, so all of it does.
    rw [hwhole] at hall ⊢
    intro t ht
    have hspared := spared_run hall t ht
    refine ⟨hspared.currentConfig, hspared.lastSuccess, hspared.attempts,
      fun key hkey => cache_run hall hkey t ht, ?_⟩
    intro request hask
    rw [← hwhole] at ht
    rcases List.mem_append.mp ht with ht | ht
    · exact (htried t ht).2.2 request hask
    · rcases List.mem_cons.mp ht with rfl | ht
      · obtain ⟨slot, hask⟩ := hask
        rw [houtputs, List.mem_singleton] at hask
        cases hask
        simp
      · exact absurd hask ((hquiet t ht).2.2 request)
  · intro t ht
    rcases List.mem_cons.mp ht with rfl | ht
    · exact ⟨hafter, hreset⟩
    · obtain ⟨hhistory, hspared⟩ := hrest t ht
      exact ⟨hhistory.trans hafter, hspared.empty hreset⟩
  · have hsnapshot := congrArg (·.snapshot.switchError) hstate
    exact hsnapshot

def onTheWay : List Event :=
  [.call .check, .call (.switch "c"), .answer 1 0 (.status (.error .notConfigured))]

/-- After a recovery whose success has armed the reset timer, the core turns a switch down. -/
theorem rejected_switch_changes_diagnostics_only :
    let c := ((initial Timings.standard (some "a")).run smoothRecovery).1
    let entry : Turn := ⟨c, .call (.switch "b")⟩
    let failure : Turn := ⟨(entry.after.run onTheWay).1, .answer 1 0 (.switch (.error .notConfigured))⟩
    let last : Turn := ⟨(failure.after.run [.answer 2 0 (.status (.error .notConfigured))]).1,
      .answer 1 0 (.status (.error (.timeout 1)))⟩
    entry.Opens 1 "b" ∧ (∃ r, r.id = 1 ∧ failure.FailsSwitch r "b" .notConfigured) ∧
      (last.before.find? 1).isSome = true ∧ c.state.reset.isPending = true ∧
      last.after.state.reset = .empty ∧ last.after.state.activity = .idle ∧
      last.after.snapshot.currentConfig = c.snapshot.currentConfig ∧
      last.after.Reports (.ofStatus (.error (.timeout 1))) := by
  intro c entry failure last
  have hopens : entry.Opens 1 "b" := ⟨rfl, rfl, List.mem_singleton.mpr rfl⟩
  have hfails : ∃ r, r.id = 1 ∧ failure.FailsSwitch r "b" .notConfigured := by
    have hawaits : (0, .switch "b") ∈ (Work.switch "b" .switching).awaits := List.mem_singleton.mpr rfl
    refine ⟨⟨1, .caller true, .switch "b" .switching⟩, rfl, .switching,
      .answer 0 (.switch (.error .notConfigured)), rfl, ?_, rfl⟩
    exact .answer rfl hawaits (by simp)
  have hfound : (last.before.find? 1).isSome = true := by decide +kernel
  obtain ⟨hspares, -, hfailed, -, -, -, hidle, hreports, -⟩ :=
    failed_switch_changes_diagnostics_only Timings.standard (some "a") smoothRecovery onTheWay
      [.answer 2 0 (.status (.error .notConfigured))] (.answer 1 0 (.switch (.error .notConfigured)))
      1 "b" .notConfigured (.error (.timeout 1)) hopens hfails hfound
  have hlast := List.mem_cons_of_mem failure
    (List.mem_append_right (failure.after.turns [.answer 2 0 (.status (.error .notConfigured))])
      (List.mem_singleton.mpr (rfl : last = last)))
  exact ⟨hopens, hfails, hfound, by decide +kernel, (hfailed last hlast).2, hidle,
    (hspares last (List.mem_append_right _ hlast)).1, hreports⟩

end Controller

end CoreWarden
