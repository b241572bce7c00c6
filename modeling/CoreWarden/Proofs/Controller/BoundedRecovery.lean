import CoreWarden.Proofs.Controller.Attempts
import Mathlib.Algebra.BigOperators.Group.List.Basic
import Mathlib.Algebra.GroupWithZero.Nat

/-!
How many recoveries can enter while no success is recorded. The count alone allows the limit; a reset
timer that an earlier success has armed can clear the count once, so that one recovery more can enter
(and one more for each that breaks down before the timer acts).
-/
namespace CoreWarden

theorem toNat_add_one_of_lt {a b : UInt32} (h : a < b) : (a + 1).toNat = a.toNat + 1 := by
  have hlt : a.toNat < b.toNat := h
  have hb := b.toNat_lt
  rw [UInt32.toNat_add]
  exact Nat.mod_eq_of_lt (by simp; omega)

namespace Controller

/-- The recoveries that count. -/
def attempts (c : Controller) : Nat := c.snapshot.recoveryAttempts.toNat

def recovering (c : Controller) : Nat := if c.snapshot.activity = .recovering then 1 else 0

theorem recovering_le (c : Controller) : c.recovering ≤ 1 := by
  unfold recovering
  split <;> omega

def refusal (c : Controller) : Except Error RecoveryOutcome :=
  if c.snapshot.activity = .recovering then .ok .alreadyRecovering
  else if c.shared.timings.maxRecoveryAttempts ≤ c.snapshot.recoveryAttempts then
    .error (.recoveryExhausted c.snapshot.recoveryAttempts)
  else .error (.busy c.snapshot.activity.label)

theorem startRecovery_of_refused (c : Controller) (h : ¬ (c.state.activity = .idle ∧
      c.snapshot.recoveryAttempts < c.shared.timings.maxRecoveryAttempts)) :
    c.startRecovery.2 = [.ended c.nextId (.recover c.refusal)] ∧
      c.startRecovery.1.running = c.running := by
  unfold startRecovery refusal
  by_cases hr : c.snapshot.activity = .recovering
  · have hr' : c.state.activity = .recovering := hr
    rw [if_pos hr, if_pos hr']
    exact ⟨rfl, rfl⟩
  have hr' : ¬ c.state.activity = .recovering := hr
  rw [if_neg hr, if_neg hr']
  by_cases hmax : c.shared.timings.maxRecoveryAttempts ≤ c.snapshot.recoveryAttempts
  · rw [if_pos hmax, if_pos hmax]
    exact ⟨rfl, rfl⟩
  · have hi : c.state.activity ≠ .idle := fun hi => h ⟨hi, UInt32.not_le.mp hmax⟩
    rw [if_neg hmax, if_neg hmax, SyncState.enter_of_ne_idle _ _ hi]
    exact ⟨rfl, rfl⟩

end Controller

namespace Turn

variable {timings : Timings} {t : Turn}

/-- The attempts that the reset timer takes away in a turn. -/
def cleared (t : Turn) : Nat := if t.clears then t.before.attempts else 0

theorem attempts_of_entry (h : t.Entry) (ht : t.before.shared.timings = timings)
    (ha : t.after.snapshot.recoveryAttempts = t.before.snapshot.recoveryAttempts + 1) :
    t.after.attempts = t.before.attempts + 1 ∧
      t.after.attempts ≤ timings.maxRecoveryAttempts.toNat := by
  have hlt : t.before.snapshot.recoveryAttempts < timings.maxRecoveryAttempts := ht ▸ h.2.2
  have hnat : t.before.snapshot.recoveryAttempts.toNat < timings.maxRecoveryAttempts.toNat := hlt
  have hafter : t.after.attempts = t.before.snapshot.recoveryAttempts.toNat + 1 := by
    rw [Controller.attempts, ha, toNat_add_one_of_lt hlt]
  exact ⟨hafter, by omega⟩

theorem attempts_after_le (hs : t.before.Sound timings)
    (h : t.before.attempts ≤ timings.maxRecoveryAttempts.toNat) :
    t.after.attempts ≤ timings.maxRecoveryAttempts.toNat := by
  cases t.tally with
  | kept _ _ hk => exact Nat.le_trans (Nat.le_of_eq (congrArg UInt32.toNat hk.1)) h
  | entered hentry _ ha => exact (attempts_of_entry hentry hs.timings_eq ha).2
  | succeeded _ _ _ ha => exact Nat.le_trans (Nat.le_of_eq (congrArg UInt32.toNat ha)) h
  | cleared _ _ ha => simp [Controller.attempts, ha]

/-- What enters is added, and what is cleared is taken away. -/
theorem balance (hs : t.before.Sound timings) :
    (if t.enters then 1 else 0) + t.before.attempts = t.after.attempts + t.cleared := by
  have henters : ¬ t.Entry → t.enters = false := by
    intro h
    simpa [entry_iff_enters hs] using h
  cases t.tally with
  | kept hentry hclear hk =>
    have ha : t.after.attempts = t.before.attempts := congrArg UInt32.toNat hk.1
    simp [henters hentry, cleared, hclear, ha]
  | entered hentry hclear ha =>
    have hafter := (attempts_of_entry hentry hs.timings_eq ha).1
    simp [enters_of_entry hentry, cleared, hclear, hafter, Nat.add_comm]
  | succeeded hentry hclear _ ha =>
    have ha : t.after.attempts = t.before.attempts := congrArg UInt32.toNat ha
    simp [henters hentry, cleared, hclear, ha]
  | cleared hentry hclear ha =>
    simp [henters hentry, cleared, hclear, Controller.attempts, ha]

/-- A reset timer that still waits after a turn without success has waited before it as well. -/
theorem isPending_before (h : t.succeeds = false) (hp : t.after.state.reset.isPending = true) :
    t.before.state.reset.isPending = true ∧ t.clears = false := by
  cases t.tally with
  | kept _ hclear hk =>
    rcases hk.2 with hr | hr
    · exact ⟨hr ▸ hp, hclear⟩
    · simp [hr, TimerSlot.empty, TimerSlot.isPending] at hp
  | entered _ hclear _ hr => exact ⟨hr ▸ hp, hclear⟩
  | succeeded _ _ hs => simp [h] at hs
  | cleared _ _ _ hr => simp [hr, TimerSlot.empty, TimerSlot.isPending] at hp

/-- While the reset timer waits, a recovery that has entered goes on or has broken down. -/
theorem enters_le_of_isPending (hs : t.before.Sound timings) (h : t.succeeds = false)
    (hp : t.after.state.reset.isPending = true) :
    (if t.enters then 1 else 0) + t.before.recovering ≤
      (if t.breaksRecovery then 1 else 0) + t.after.recovering := by
  by_cases hafter : t.after.snapshot.activity = .recovering
  · have hle := t.before.recovering_le
    by_cases hbefore : t.before.snapshot.activity = .recovering
    · simp [enters, Controller.recovering, hbefore, hafter]
    · simp [enters, Controller.recovering, hbefore, hafter]
  · by_cases hbefore : t.before.snapshot.activity = .recovering
    · rcases leaves_recovering hs hbefore hafter with hok | hbreak | hempty
      · simp [h] at hok
      · simp [enters, Controller.recovering, hbefore, hafter, hbreak]
      · simp [hempty, TimerSlot.empty, TimerSlot.isPending] at hp
    · simp [enters, Controller.recovering, hbefore, hafter]

theorem isPending_of_clears (h : t.clears = true) : t.before.state.reset.isPending = true := by
  unfold clears at h
  split at h
  · obtain ⟨due, hd, -⟩ := (Option.any_eq_true _ _).mp h
    obtain ⟨alarm, ha, -⟩ : ∃ alarm, t.before.state.reset.waiting = some alarm ∧ alarm.due = due := by
      simpa [TimerSlot.due?] using hd
    simp [TimerSlot.isPending, ha]
  · cases h

theorem enters_of_clears (hs : t.before.Sound timings) (h : t.clears = true) : t.enters = false := by
  have hentry : ¬ t.Entry := by
    intro hentry
    simp [clears, hentry.1] at h
  simpa [entry_iff_enters hs] using hentry

theorem clears_of_attempts_lt (hs : t.before.Sound timings) (h : t.after.attempts < t.before.attempts) :
    t.clears = true := by
  cases hc : t.clears with
  | true => rfl
  | false =>
    have hbalance := balance hs
    simp only [cleared, hc, Bool.false_eq_true, if_false] at hbalance
    omega

theorem attempts_pos_of_enters (hs : t.before.Sound timings) (h : t.enters = true) :
    0 < t.after.attempts := by
  have hclear : t.clears = false := by
    cases hc : t.clears with
    | true => simp [enters_of_clears hs hc] at h
    | false => rfl
  have hbalance := balance hs
  simp only [h, cleared, hclear, Bool.false_eq_true, if_true, if_false] at hbalance
  omega

/-- A call of `recover` that is turned away: the caller is told why at once, and nothing is begun. -/
structure Refused (t : Turn) : Prop where
  outputs_eq : t.outputs = [.ended t.before.nextId (.recover t.before.refusal)]
  running_eq : t.after.running = t.before.running

theorem refused_of_not_entry (he : t.event = .call .recover) (h : ¬ t.Entry) : t.Refused := by
  have hstep : t.before.step t.event = t.before.later.startRecovery := by
    rw [he]
    rfl
  have hrefused : ¬ (t.before.later.state.activity = .idle ∧
      t.before.later.snapshot.recoveryAttempts <
        t.before.later.shared.timings.maxRecoveryAttempts) := by
    rintro ⟨hi, hlt⟩
    exact h ⟨he, hi, hlt⟩
  obtain ⟨houtputs, hrunning⟩ := t.before.later.startRecovery_of_refused hrefused
  exact ⟨(congrArg Prod.snd hstep).trans houtputs,
    (congrArg (·.1.running) hstep).trans hrunning⟩

end Turn

namespace Controller

variable {timings : Timings} {c : Controller}

theorem balance_run (hs : c.Sound timings) (es : List Event) :
    (c.turns es).countP Turn.enters + c.attempts =
      (c.run es).1.attempts + ((c.turns es).map Turn.cleared).sum := by
  induction es generalizing c with
  | nil => simp [turns, run]
  | cons e es ih =>
    have hrest := ih (hs.step e)
    have hturn := Turn.balance (t := ⟨c, e⟩) hs
    change ((⟨c, e⟩ : Turn) :: (c.step e).1.turns es).countP Turn.enters + c.attempts =
      ((c.step e).1.run es).1.attempts +
        (((⟨c, e⟩ : Turn) :: (c.step e).1.turns es).map Turn.cleared).sum
    rw [List.countP_cons, List.map_cons, List.sum_cons]
    change _ + c.attempts = (c.step e).1.attempts + _ at hturn
    omega

theorem attempts_run_le (hs : c.Sound timings)
    (h : c.attempts ≤ timings.maxRecoveryAttempts.toNat) (es : List Event) :
    (c.run es).1.attempts ≤ timings.maxRecoveryAttempts.toNat := by
  refine (run_induction (P := fun c => c.Sound timings ∧ c.attempts ≤ _) ⟨hs, h⟩ ?_ es).2
  rintro c e ⟨hs, h⟩
  exact ⟨hs.step e, Turn.attempts_after_le (t := ⟨c, e⟩) hs h⟩

theorem countP_clears_le (es : List Event) (h : ∀ t ∈ c.turns es, t.succeeds = false) :
    (c.turns es).countP Turn.clears ≤ if c.state.reset.isPending then 1 else 0 := by
  induction es generalizing c with
  | nil => simp [turns]
  | cons e es ih =>
    obtain ⟨hturn, hrest⟩ := List.forall_mem_cons.mp h
    have hle := ih hrest
    rw [turns, List.countP_cons]
    cases hp : (c.step e).1.state.reset.isPending with
    | true =>
      obtain ⟨hbefore, hclear⟩ := Turn.isPending_before hturn hp
      simpa [hp, hbefore, hclear] using hle
    | false =>
      have hzero : ((c.step e).1.turns es).countP Turn.clears = 0 := by simpa [hp] using hle
      cases hclear : (⟨c, e⟩ : Turn).clears with
      | true =>
        have hbefore : c.state.reset.isPending = true := Turn.isPending_of_clears hclear
        simp [hzero, hbefore]
      | false => simp [hzero]

theorem sum_cleared_eq_zero {ts : List Turn} (h : ts.countP Turn.clears = 0) :
    (ts.map Turn.cleared).sum = 0 := by
  rw [List.countP_eq_zero] at h
  refine List.sum_eq_zero ?_
  intro n hn
  obtain ⟨t, ht, rfl⟩ := List.mem_map.mp hn
  simp [Turn.cleared, h t ht]

/-- Where the timer does not act the count is the limit. -/
theorem countP_enters_add_le (hs : c.Sound timings)
    (ha : c.attempts ≤ timings.maxRecoveryAttempts.toNat) (es : List Event)
    (h : (c.turns es).countP Turn.clears = 0) :
    (c.turns es).countP Turn.enters + c.attempts ≤ timings.maxRecoveryAttempts.toNat := by
  rw [balance_run hs es, sum_cleared_eq_zero h]
  exact attempts_run_le hs ha es

/-- More recoveries than the limit enter only if the timer acts after one of them. -/
theorem countP_enters_le_or (hs : c.Sound timings)
    (ha : c.attempts ≤ timings.maxRecoveryAttempts.toNat) (es : List Event) :
    (c.turns es).countP Turn.enters ≤ timings.maxRecoveryAttempts.toNat ∨
      ∃ p t q, c.turns es = p ++ t :: q ∧ t.clears = true ∧ 0 < p.countP Turn.enters := by
  induction es generalizing c with
  | nil => simp [turns]
  | cons e es ih =>
    have hs' := hs.step e
    have ha' : (c.step e).1.attempts ≤ timings.maxRecoveryAttempts.toNat :=
      Turn.attempts_after_le (t := ⟨c, e⟩) hs ha
    rw [turns, List.countP_cons]
    rcases ih hs' ha' with hle | ⟨p, t, q, hsplit, hclear, hpos⟩
    · cases henters : (⟨c, e⟩ : Turn).enters with
      | false => exact .inl (by simpa using hle)
      | true =>
        by_cases hclears : ((c.step e).1.turns es).countP Turn.clears = 0
        · have hcount := countP_enters_add_le hs' ha' es hclears
          have hafter := Turn.attempts_pos_of_enters (t := ⟨c, e⟩) hs henters
          change 0 < (c.step e).1.attempts at hafter
          exact .inl (by simp only [if_true]; omega)
        · obtain ⟨t, ht, hclear⟩ := List.countP_pos_iff.mp (Nat.pos_of_ne_zero hclears)
          obtain ⟨p, q, hsplit⟩ := List.append_of_mem ht
          refine .inr ⟨⟨c, e⟩ :: p, t, q, by rw [hsplit]; rfl, hclear, ?_⟩
          rw [List.countP_cons_of_pos henters]
          exact Nat.succ_pos _
    · refine .inr ⟨⟨c, e⟩ :: p, t, q, by rw [hsplit]; rfl, hclear, ?_⟩
      exact Nat.lt_of_lt_of_le hpos (List.Sublist.countP_le (List.sublist_cons_self _ _))

/-- Without a success one recovery more than the limit can enter, and one for each that breaks
down. -/
theorem countP_enters_add_recovering_le (hs : c.Sound timings)
    (ha : c.attempts ≤ timings.maxRecoveryAttempts.toNat) (es : List Event)
    (h : ∀ t ∈ c.turns es, t.succeeds = false) :
    (c.turns es).countP Turn.enters + c.recovering ≤
      timings.maxRecoveryAttempts.toNat + 1 + (c.turns es).countP Turn.breaksRecovery := by
  induction es generalizing c with
  | nil =>
    have hle := c.recovering_le
    simp [turns]
    omega
  | cons e es ih =>
    obtain ⟨hturn, hrest⟩ := List.forall_mem_cons.mp h
    have hs' := hs.step e
    have ha' : (c.step e).1.attempts ≤ timings.maxRecoveryAttempts.toNat :=
      Turn.attempts_after_le (t := ⟨c, e⟩) hs ha
    rw [turns, List.countP_cons, List.countP_cons]
    cases hp : (c.step e).1.state.reset.isPending with
    | true =>
      -- the timer still waits: what has entered goes on or has broken down
      have hle := Turn.enters_le_of_isPending (t := ⟨c, e⟩) hs hturn hp
      have hih := ih hs' ha' hrest
      change _ + c.recovering ≤ _ + (c.step e).1.recovering at hle
      omega
    | false =>
      -- the timer is called off or has acted: from now on the count alone decides
      have hclears : ((c.step e).1.turns es).countP Turn.clears = 0 := by
        simpa [hp] using countP_clears_le es hrest
      have hcount := countP_enters_add_le hs' ha' es hclears
      have hle := c.recovering_le
      have hbalance := Turn.balance (t := ⟨c, e⟩) hs
      change _ + c.attempts = (c.step e).1.attempts + _ at hbalance
      cases hclear : (⟨c, e⟩ : Turn).clears with
      | true =>
        have henters := Turn.enters_of_clears hs hclear
        simp only [henters, Bool.false_eq_true, if_false]
        omega
      | false =>
        simp only [Turn.cleared, hclear, Bool.false_eq_true, if_false] at hbalance
        omega

/-- In every stretch of a run in which no success is recorded, a call of `recover` enters or is turned
away. No more recoveries than the limit enter, unless the reset timer acts after one of them; it acts
once at most, and lets in one recovery more, besides those that break down. The attempts that are
shown tell exactly how many entered, but for those that the timer has cleared. -/
theorem bounded_recovery (timings : Timings) (currentConfig : Option String) (es₀ es : List Event)
    (h : ∀ t ∈ ((initial timings currentConfig).run es₀).1.turns es, t.succeeds = false) :
    let c := ((initial timings currentConfig).run es₀).1
    let stretch := c.turns es
    let limit := timings.maxRecoveryAttempts.toNat
    let entered := stretch.countP Turn.enters
    (entered ≤ limit ∨ ∃ p t q, stretch = p ++ t :: q ∧ t.clears = true ∧ 0 < p.countP Turn.enters) ∧
      stretch.countP Turn.clears ≤ 1 ∧
      entered ≤ limit + 1 + stretch.countP Turn.breaksRecovery ∧
      entered + c.attempts = (c.run es).1.attempts + (stretch.map Turn.cleared).sum ∧
      ∀ t ∈ stretch, t.event = .call .recover → t.enters = true ∨ t.Refused := by
  intro c stretch limit entered
  have hs : c.Sound timings := (sound_initial timings currentConfig).run es₀
  have ha : c.attempts ≤ limit :=
    attempts_run_le (sound_initial timings currentConfig) (Nat.zero_le _) es₀
  refine ⟨countP_enters_le_or hs ha es, ?_, ?_, balance_run hs es, ?_⟩
  · have hle : stretch.countP Turn.clears ≤ _ := countP_clears_le es h
    split at hle <;> omega
  · have hle : entered + c.recovering ≤ limit + 1 + stretch.countP Turn.breaksRecovery :=
      countP_enters_add_recovering_le hs ha es h
    omega
  · intro t ht he
    by_cases hentry : t.Entry
    · exact .inl (Turn.enters_of_entry hentry)
    · exact .inr (Turn.refused_of_not_entry he hentry)

def strict : Timings := { maxRecoveryAttempts := 1 }

def smoothReload : List Event :=
  [.call .reload, .answer 0 0 (.restart (.ok ())), .pass 5000, .wake (.work 0),
    .answer 0 1 (.version (.ok ⟨"1", false⟩)), .answer 0 0 (.list (.error .notConfigured)),
    .answer 0 1 (.proxies (.error .notConfigured)), .answer 0 2 (.config (.error .notConfigured))]

def twoCores : Answer :=
  .status (.ok ⟨[⟨1, "core", none, true⟩, ⟨2, "core", none, true⟩], .null, .sidecar⟩)

/-- Two recoveries, one after the other, that fail; the reset timer acts while the first goes on. -/
def lateClearing : List Event :=
  [.call .recover, .answer 1 0 twoCores, .pass 30000, .wake .reset,
    .answer 1 0 (.restart (.error .notConfigured)), .call .recover, .answer 2 0 twoCores,
    .answer 2 0 (.restart (.error .notConfigured))]

/-- The reset timer lets in one recovery more than is allowed. -/
theorem two_recoveries_where_one_is_allowed :
    let stretch := ((initial strict (some "a")).run smoothReload).1.turns lateClearing
    (∀ t ∈ stretch, t.succeeds = false) ∧
      strict.maxRecoveryAttempts.toNat < stretch.countP Turn.enters := by
  decide +kernel

theorem bounded_recovery_of_lateClearing :
    let c := ((initial strict (some "a")).run smoothReload).1
    (∀ t ∈ c.turns lateClearing, t.succeeds = false) ∧
      (c.turns lateClearing).countP Turn.enters ≤
        strict.maxRecoveryAttempts.toNat + 1 + (c.turns lateClearing).countP Turn.breaksRecovery := by
  have h : ∀ t ∈ ((initial strict (some "a")).run smoothReload).1.turns lateClearing,
      t.succeeds = false := by decide +kernel
  exact ⟨h, (bounded_recovery strict (some "a") smoothReload lateClearing h).2.2.1⟩

end Controller
end CoreWarden
