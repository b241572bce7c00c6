import CoreWarden.Proofs.Controller.BoundedRecovery
import CoreWarden.Proofs.Controller.Failure
import CoreWarden.Proofs.Controller.Told

/-!
The count and the number of a recovery. A recovery that enters raises the count by one; the new count is
its number, and the number is what it reports when it succeeds. While it goes on the count is its
number, until the reset timer of an earlier success takes it away.
-/
namespace CoreWarden

open Controller (Hears)

namespace Turn

/-- A recovery enters as piece of work `n` and counts as this attempt. -/
def Admits (t : Turn) (n : Nat) (attempt : UInt32) : Prop :=
  t.Entry ∧ t.before.nextId = n ∧ t.after.snapshot.recoveryAttempts = attempt

end Turn

/-- The count since a recovery has entered: its number, or nothing once the reset timer has acted. No
other recovery has entered in the meantime. -/
def Counts (n : Nat) (attempt : UInt32) (past : List Turn) (count : UInt32) : Prop :=
  ∃ earlier t later, past = earlier ++ t :: later ∧ t.Admits n attempt ∧ (∀ u ∈ later, ¬ u.Entry) ∧
    count = if later.any Turn.clears then 0 else attempt

theorem Counts.snoc {n : Nat} {attempt : UInt32} {past : List Turn} {t : Turn}
    (h : Counts n attempt past t.before.snapshot.recoveryAttempts) (hentry : ¬ t.Entry) :
    Counts n attempt (past ++ [t]) t.after.snapshot.recoveryAttempts := by
  obtain ⟨earlier, u, later, rfl, hadmits, hlater, hcount⟩ := h
  refine ⟨earlier, u, later ++ [t], by simp, hadmits, ?_, ?_⟩
  · intro v hv
    rcases List.mem_append.mp hv with hv | hv
    · exact hlater v hv
    · exact List.mem_singleton.mp hv ▸ hentry
  · cases t.tally with
    | kept _ hclear hk =>
      have ha : t.after.snapshot.recoveryAttempts = _ := hk.1.trans hcount
      simpa [hclear] using ha
    | entered he => exact absurd he hentry
    | succeeded _ hclear _ ha => simpa [hclear] using ha.trans hcount
    | cleared _ hclear ha => simpa [hclear] using ha

theorem Recovery.attempt_of_done {s s' : Shared} {attempt attempt' : UInt32} {reloaded : Bool}
    {phase : Recovery} {signal : Signal}
    (h : resume s attempt phase signal = (s', .done (.ok (.recovered attempt' reloaded)))) :
    attempt' = attempt := by
  have heffect := (effect h).1
  generalize s'.state = state at heffect
  cases heffect <;> rfl

namespace Turn

variable {timings : Timings} {t : Turn}

theorem not_entry_of_mem (hs : t.before.Sound timings) {r : Running} (hr : r ∈ t.before.running)
    (hw : r.work.activity? = some .recovering) : ¬ t.Entry := by
  rintro ⟨-, hidle, -⟩
  have hrecovering : t.before.state.activity = .recovering := hs.activity_of_mem hr hw
  rw [hidle] at hrecovering
  cases hrecovering

inductive TellsRecovery (t : Turn) (n : Nat) (result : Except Error RecoveryOutcome) : Prop
  | atOnce (he : t.event = .call .recover) (hn : n = t.before.nextId) (h : result = t.before.refusal)
  | ended {attempt phase signal s'}
      (hs : Hears t.before.later ⟨n, .caller true, .recover attempt phase⟩ t.event signal)
      (h : Recovery.resume t.before.later.shared attempt phase signal = (s', .done result))
  | collapsed {text : String} (h : result = .error (.internal text))

theorem tellsRecovery_of_refused {n : Nat} {result : Except Error RecoveryOutcome}
    (hm : .ended n (.recover result) ∈ t.outputs) (he : t.event = .call .recover) (h : ¬ t.Entry) :
    t.TellsRecovery n result := by
  rw [(refused_of_not_entry he h).outputs_eq] at hm
  cases List.mem_singleton.mp hm
  exact .atOnce he rfl rfl

theorem tellsRecovery_of_mem {n : Nat} {result : Except Error RecoveryOutcome}
    (hm : .ended n (.recover result) ∈ t.outputs) : t.TellsRecovery n result := by
  have htold := Controller.told_of_turn hm
  generalize hresult : Result.recover result = told at htold
  generalize he : t.event = e at htold
  cases htold with
  | refused hrefusal =>
    cases hrefusal with
    | recovering hactivity =>
      refine tellsRecovery_of_refused hm he fun hentry => ?_
      exact absurd (hentry.2.1.symm.trans hactivity) (by decide)
    | recoverBusy hbusy => exact tellsRecovery_of_refused hm he fun hentry => hbusy hentry.2.1
    | idFault | current | switchBusy | reloadBusy => cases hresult
  | exhausted hmax =>
    exact tellsRecovery_of_refused hm he fun hentry => absurd hmax (UInt32.not_le.mpr hentry.2.2)
  | skipped | concluded => cases hresult
  | @collapsed r =>
    cases hw : r.work with
    | recover =>
      rw [hw] at hresult
      cases hresult
      exact .collapsed rfl
    | _ => simp [hw, Controller.collapsed] at hresult
  | @ended _ r signal s' _ ho hears hending =>
    obtain ⟨id, origin, work⟩ := r
    obtain rfl : origin = .caller true := ho
    subst hresult
    cases hending with
    | recover hresume => exact .ended (he ▸ hears) hresume

theorem recover_of_recovered {n : Nat} {attempt : UInt32} {reloaded : Bool}
    (h : .ended n (.recover (.ok (.recovered attempt reloaded))) ∈ t.outputs) :
    ∃ r ∈ t.before.running, r.id = n ∧ ∃ phase, r.work = .recover attempt phase := by
  cases tellsRecovery_of_mem h with
  | atOnce he hn hrefusal =>
    unfold Controller.refusal at hrefusal
    split at hrefusal
    · cases hrefusal
    · split at hrefusal <;> cases hrefusal
  | ended hears hresume =>
    obtain rfl := Recovery.attempt_of_done hresume
    exact ⟨_, Controller.mem_of_find? hears.find?, rfl, _, rfl⟩
  | collapsed herror => cases herror

/-- The restart in a recovery is answered with an error; the caller still waits for the recovery. -/
def RestartFails (t : Turn) (n : Nat) (e : Error) : Prop :=
  ∃ attempt, t.before.find? n = some ⟨n, .caller true, .recover attempt (.reloading .restarting)⟩ ∧
    t.event = .answer n 0 (.restart (.error e))

theorem ended_of_restartFails {n : Nat} {e : Error} (h : t.RestartFails n e) :
    .ended n (.recover (.error e)) ∈ t.outputs := by
  obtain ⟨attempt, hr, he⟩ := h
  have hawaits : (0, Request.restart) ∈ (Work.recover attempt (.reloading .restarting)).awaits :=
    List.mem_singleton.mpr rfl
  have hears : Hears t.before.later ⟨n, .caller true, .recover attempt (.reloading .restarting)⟩
      t.event (.answer 0 (.restart (.error e))) :=
    he ▸ .answer hr hawaits (by simp)
  rw [outputs, Controller.step_of_hears hears]
  exact List.mem_singleton.mpr rfl

/-- A call of `recover` is told that the limit is reached if it finds it so, and no recovery is going
on; else only a recovery is told so whose restart was answered with this very error. -/
theorem ended_exhausted_iff {n : Nat} {attempts : UInt32} :
    .ended n (.recover (.error (.recoveryExhausted attempts))) ∈ t.outputs ↔
      (t.exhausts = true ∧ n = t.before.nextId ∧ attempts = t.before.snapshot.recoveryAttempts) ∨
        t.RestartFails n (.recoveryExhausted attempts) := by
  constructor
  · intro h
    cases tellsRecovery_of_mem h with
    | atOnce he hn hrefusal =>
      unfold Controller.refusal at hrefusal
      split at hrefusal
      · cases hrefusal
      · next hactivity =>
        split at hrefusal
        · next hmax =>
          cases hrefusal
          exact .inl ⟨exhausts_iff.mpr ⟨he, hactivity, hmax⟩, hn, rfl⟩
        · cases hrefusal
    | @ended attempt phase signal s' hears hresume =>
      rcases Recovery.error_of_done hresume with ⟨rfl, rfl⟩ | hconfig | ⟨waited, htimeout⟩
      · generalize he : t.event = e at hears
        cases hears with
        | answer hr ha hc => exact .inr ⟨attempt, hr, he⟩
      · cases hconfig
      · cases htimeout
    | collapsed herror => cases herror
  · rintro (⟨hx, rfl, rfl⟩ | hfails)
    · rw [outputs, step_of_exhausts hx]
      exact List.mem_singleton.mpr rfl
    · exact ended_of_restartFails hfails

end Turn

namespace Controller

variable {timings : Timings} {past : List Turn} {t : Turn}

theorem Sound.exists_recover {c : Controller} (hs : c.Sound timings)
    (h : c.state.activity = .recovering) :
    ∃ r ∈ c.running, ∃ attempt phase, r.work = .recover attempt phase := by
  obtain ⟨r, hr, ha⟩ := hs.exists_holder (by simp [h])
  rw [h] at ha
  cases hw : r.work with
  | recover attempt phase => exact ⟨r, hr, attempt, phase, hw⟩
  | _ => simp [hw, Work.activity?] at ha

def Counted (past : List Turn) (c : Controller) : Prop :=
  ∀ r ∈ c.running, ∀ attempt phase, r.work = .recover attempt phase →
    Counts r.id attempt past c.snapshot.recoveryAttempts

theorem counted_turn (hs : t.before.Sound timings) (h : t.before.Counted past) :
    t.after.Counted (past ++ [t]) := by
  intro r hr attempt phase hw
  have hsource := source_of_turn hs hr
  generalize t.outputs = outputs at hsource
  cases hsource with
  | @kept r₀ _ _ hr₀ =>
    have hw₀ : r₀.work = .recover attempt phase := hw
    exact (h r₀ hr₀ attempt phase hw).snoc (Turn.not_entry_of_mem hs hr₀ (by simp [hw₀, Work.activity?]))
  | opened onset hi hopening =>
    generalize he : t.event = e at hopening
    cases hopening with
    | recover hlt =>
      have hentry : t.Entry := ⟨he, hi, hlt⟩
      have hafter : t.after.snapshot.recoveryAttempts = t.before.snapshot.recoveryAttempts + 1 :=
        congrArg (·.snapshot.recoveryAttempts) (Turn.state_after_of_entry hentry)
      cases hw
      exact ⟨past, t, [], rfl, ⟨hentry, rfl, hafter⟩, by simp, hafter⟩
    | switch | reload | tick | refresh => cases hw
  | joined onset haside =>
    generalize t.event = e at haside
    cases haside <;> cases hw
  | @advanced r₀ signal s' work asks hears ha =>
    have hr₀ : r₀ ∈ t.before.running := mem_of_find? hears.find?
    generalize hw₀ : r₀.work = w at ha
    cases ha with
    | recover hresume =>
      cases hw
      exact (h r₀ hr₀ _ _ hw₀).snoc (Turn.not_entry_of_mem hs hr₀ (by simp [hw₀, Work.activity?]))
    | switch | reload | reconcile | refresh => cases hw

theorem counted_run (timings : Timings) (currentConfig : Option String) (es : List Event) :
    let c := initial timings currentConfig
    (c.run es).1.Sound timings ∧ (c.run es).1.Counted (c.turns es) := by
  refine turns_induction (P := fun past c => c.Sound timings ∧ c.Counted past) ?_ ?_ es
  · exact ⟨sound_initial timings currentConfig, by simp [Counted, initial]⟩
  · rintro past t ⟨hs, hc⟩
    exact ⟨hs.step t.event, counted_turn hs hc⟩

/-- In every run: while a recovery goes on, the count is its number until the reset timer acts, and
nothing afterwards; the same is so when it has succeeded and reports its number. -/
theorem count_stands_until_cleared (timings : Timings) (currentConfig : Option String)
    (es : List Event) (e : Event) :
    let c := initial timings currentConfig
    let t : Turn := ⟨(c.run es).1, e⟩
    (t.before.snapshot.activity = .recovering →
      ∃ r ∈ t.before.running, ∃ attempt phase, r.work = .recover attempt phase ∧
        Counts r.id attempt (c.turns es) t.before.snapshot.recoveryAttempts) ∧
    (t.before.snapshot.activity = .recovering → t.after.attempts < t.before.attempts →
      t.clears = true) ∧
    ∀ n attempt reloaded, .ended n (.recover (.ok (.recovered attempt reloaded))) ∈ t.outputs →
      Counts n attempt (c.turns (es ++ [e])) t.after.snapshot.recoveryAttempts := by
  intro c t
  obtain ⟨hs, hcounted⟩ : t.before.Sound timings ∧ t.before.Counted (c.turns es) :=
    counted_run timings currentConfig es
  refine ⟨?_, fun _ => Turn.clears_of_attempts_lt hs, ?_⟩
  · intro hactivity
    obtain ⟨r, hr, attempt, phase, hw⟩ := hs.exists_recover hactivity
    exact ⟨r, hr, attempt, phase, hw, hcounted r hr attempt phase hw⟩
  · intro n attempt reloaded hended
    obtain ⟨r, hr, rfl, phase, hw⟩ := Turn.recover_of_recovered hended
    rw [turns_snoc]
    exact (hcounted r hr attempt phase hw).snoc
      (Turn.not_entry_of_mem hs hr (by simp [hw, Work.activity?]))

/-- A recovery that takes longer than the time for which the reset timer of a reload before it waits. -/
def slowRecovery : List Event :=
  [.call .recover, .pass 30000, .wake .reset, .answer 1 0 (.status (.error .notConfigured)),
    .answer 1 0 (.list (.error .notConfigured)), .answer 1 1 (.proxies (.error .notConfigured))]

/-- The first recovery succeeds and reports its number, and no attempt is counted. -/
theorem count_lost_in_recovery :
    let c := ((initial Timings.standard (some "a")).run (smoothReload ++ slowRecovery)).1
    let t : Turn := ⟨c, .answer 1 2 (.config (.error .notConfigured))⟩
    .ended 1 (.recover (.ok (.recovered 1 false))) ∈ t.outputs ∧
      t.after.snapshot.recoveryAttempts = 0 := by
  intro c t
  have houtputs : t.outputs = [.ended 1 (.recover (.ok (.recovered 1 false)))] := by rfl
  refine ⟨?_, by decide +kernel⟩
  rw [houtputs]
  exact List.mem_singleton.mpr rfl

/-- In every run: the count is at most the limit. A recovery that enters raises it by one, and reports
this count as its number when it succeeds. Nothing else raises it, and a call of `recover` that does not
enter is turned away and leaves it as it is. A call is told that the limit is reached if it finds it
so and no recovery goes on, with the count that it finds; a recovery that has entered is told so only
where the process manager has answered its restart with this very error. -/
theorem attempt_counter (timings : Timings) (currentConfig : Option String) (es : List Event)
    (e : Event) :
    let c := initial timings currentConfig
    let t : Turn := ⟨(c.run es).1, e⟩
    t.before.attempts ≤ timings.maxRecoveryAttempts.toNat ∧
    (t.enters = true → t.event = .call .recover ∧ t.after.attempts = t.before.attempts + 1) ∧
    (t.enters = false → t.after.attempts ≤ t.before.attempts) ∧
    (t.event = .call .recover → t.enters = false →
      t.Refused ∧ t.after.attempts = t.before.attempts) ∧
    (∀ n attempt reloaded, .ended n (.recover (.ok (.recovered attempt reloaded))) ∈ t.outputs →
      ∃ u ∈ c.turns es, u.Admits n attempt) ∧
    ∀ n attempts, .ended n (.recover (.error (.recoveryExhausted attempts))) ∈ t.outputs ↔
      (t.exhausts = true ∧ n = t.before.nextId ∧ attempts = t.before.snapshot.recoveryAttempts) ∨
        t.RestartFails n (.recoveryExhausted attempts) := by
  intro c t
  obtain ⟨hs, hcounted⟩ : t.before.Sound timings ∧ t.before.Counted (c.turns es) :=
    counted_run timings currentConfig es
  have hbalance := Turn.balance hs
  refine ⟨?_, ?_, ?_, ?_, ?_, fun n attempts => Turn.ended_exhausted_iff⟩
  · exact attempts_run_le (sound_initial timings currentConfig) (Nat.zero_le _) es
  · intro henters
    have hentry := Turn.entry_of_enters hs henters
    have hcount := congrArg (·.snapshot.recoveryAttempts) (Turn.state_after_of_entry hentry)
    exact ⟨hentry.1, (Turn.attempts_of_entry hentry hs.timings_eq hcount).1⟩
  · intro henters
    simp only [henters, Bool.false_eq_true, if_false] at hbalance
    omega
  · intro he henters
    have hentry : ¬ t.Entry := by simp [Turn.entry_iff_enters hs, henters]
    have hclears : t.clears = false := by simp [Turn.clears, he]
    simp only [henters, Turn.cleared, hclears, Bool.false_eq_true, if_false] at hbalance
    exact ⟨Turn.refused_of_not_entry he hentry, by omega⟩
  · intro n attempt reloaded hended
    obtain ⟨r, hr, rfl, phase, hw⟩ := Turn.recover_of_recovered hended
    obtain ⟨earlier, u, later, hpast, hadmits, -, -⟩ := hcounted r hr attempt phase hw
    exact ⟨u, by simp [hpast], hadmits⟩

/-- The first recovery has entered, and is told that the limit is reached: the process manager has
answered so. -/
theorem exhausted_below_limit :
    let c := ((initial Timings.standard none).run [.call .recover, .answer 0 0 twoCores]).1
    let t : Turn := ⟨c, .answer 0 0 (.restart (.error (.recoveryExhausted 7)))⟩
    .ended 0 (.recover (.error (.recoveryExhausted 7))) ∈ t.outputs ∧ t.exhausts = false ∧
      t.before.snapshot.recoveryAttempts < Timings.standard.maxRecoveryAttempts := by
  intro c t
  have hfails : t.RestartFails 0 (.recoveryExhausted 7) := ⟨1, by rfl, rfl⟩
  exact ⟨Turn.ended_of_restartFails hfails, by decide +kernel, by decide +kernel⟩

end Controller

end CoreWarden
