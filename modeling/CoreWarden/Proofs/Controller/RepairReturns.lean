import CoreWarden.Proofs.Controller.RepairCourse
import CoreWarden.Proofs.Controller.SwitchReturns

/-!
A reload and a recovery return. Each signal takes from the patience of the health wait, of the steps of a
reload and of the recovery around them. With their course this is the whole of what a caller of `reload`
or `recover` can see of the collaborators, and what is on record afterwards.
-/
namespace CoreWarden

open Controller (Hears)
open RepairScript (Script)
open Time (pauseEnd)

/-! ### How much is left of a repair -/

namespace Reload

def patience (timings : Timings) (now : Nat) : Reload → Nat
  | restarting => 2 * timings.healthProbeMaxWait.toNat + 6
  | pausing _ => 2 * timings.healthProbeMaxWait.toNat + 5
  | probing probe => probe.patience timings now + 3
  | refreshing refresh => refresh.asks.length

variable {s : Shared} {phase phase' : Reload} {notes : List Note} {asks : List (Nat × Request)}

theorem patience_anti (timings : Timings) (phase : Reload) {now now' : Nat} (h : now ≤ now') :
    phase.patience timings now' ≤ phase.patience timings now := by
  cases phase with
  | probing probe => exact Nat.add_le_add_right (probe.patience_anti timings h) 3
  | _ => exact Nat.le_refl _

theorem patience_of_probed {progress : Progress Probe (Except Error Unit)} {bound : Nat} (hb : 0 < bound)
    (hp : ∀ probe asks, progress = .waiting probe asks → probe.patience s.timings s.now < bound)
    (h : (probed s progress).2 = .waiting phase asks) : phase.patience s.timings s.now < bound + 3 := by
  revert h
  fun_cases probed s progress <;> intro h <;> cases h
  · exact Nat.add_lt_add_right (hp _ _ rfl) 3
  next refresh t hstart =>
    obtain rfl : s.startRefresh.1 = refresh := congrArg Prod.fst hstart
    have hthree : s.startRefresh.1.asks.length = 3 := rfl
    simp only [patience, hthree]
    omega

theorem Moves.patience_lt (h : phase.Moves s notes (.waiting phase' asks))
    (hi : 0 < s.timings.healthProbeInterval.toNat) :
    phase'.patience s.timings s.now < phase.patience s.timings s.now := by
  generalize hstep : Progress.waiting phase' asks = step at h
  cases h with
  | restarted =>
    cases hstep
    exact Nat.lt_succ_self _
  | refused => cases hstep
  | paused =>
    have hless : phase'.patience s.timings s.now < 2 * s.timings.healthProbeMaxWait.toNat + 2 + 3 :=
      patience_of_probed (Nat.succ_pos _)
        (fun _ _ hwait => Nat.lt_succ_of_le (Nat.le_of_eq (Probe.patience_of_start hwait))) hstep.symm
    exact hless
  | probed hm =>
    refine patience_of_probed (Probe.patience_pos _ _ _) (fun probe' asks hwait => ?_) hstep.symm
    rw [hwait] at hm
    exact hm.patience_lt hi
  | fetched hperm =>
    have hlength := hperm.length_eq
    unfold refreshed at hstep
    split at hstep <;> cases hstep
    simp [patience, hlength]

end Reload

namespace Recovery

def patience (timings : Timings) (now : Nat) : Recovery → Nat
  | checking => 2 * timings.healthProbeMaxWait.toNat + 9
  | reloading reload => reload.patience timings now + 2
  | rechecking => 1
  | refreshing refresh => refresh.asks.length

variable {s : Shared} {attempt : UInt32} {phase phase' : Recovery} {notes : List Note}
  {asks : List (Nat × Request)}

theorem patience_anti (timings : Timings) (phase : Recovery) {now now' : Nat} (h : now ≤ now') :
    phase.patience timings now' ≤ phase.patience timings now := by
  cases phase with
  | reloading reload => exact Nat.add_le_add_right (reload.patience_anti timings h) 2
  | _ => exact Nat.le_refl _

theorem Moves.patience_lt (h : phase.Moves s attempt notes (.waiting phase' asks))
    (hi : 0 < s.timings.healthProbeInterval.toNat) :
    phase'.patience s.timings s.now < phase.patience s.timings s.now := by
  generalize hstep : Progress.waiting phase' asks = step at h
  cases h with
  | conflict =>
    cases hstep
    exact Nat.lt_succ_self _
  | calm =>
    cases hstep
    have hthree : s.startRefresh.1.asks.length = 3 := rfl
    simp only [patience, hthree]
    omega
  | @reloading _ _ step _ hm =>
    cases step with
    | waiting reload asks =>
      cases hstep
      exact Nat.add_lt_add_right (hm.patience_lt hi) 2
    | done result =>
      cases result <;> cases hstep
      simp only [patience]
      omega
  | rechecked => cases hstep
  | fetched hperm =>
    have hlength := hperm.length_eq
    unfold refreshed succeed at hstep
    split at hstep <;> cases hstep
    simp [patience, hlength]

end Recovery

/-! ### There is always something that a repair waits for -/

theorem Reload.Reached.waits {timings : Timings} {asked now : Nat} {phase : Reload} {notes : List Note}
    (h : phase.Reached timings asked now notes) : (∃ due, phase.due? = some due) ∨
      ∃ slot request, (slot, request) ∈ phase.awaits ∧ request ≠ .version := by
  cases h with
  | pausing | probing => exact .inl ⟨_, rfl⟩
  | refreshing _ hr => exact .inr hr.exists_ask
  | restarting => exact .inr ⟨0, .restart, List.mem_singleton.mpr rfl, by simp⟩

theorem Recovery.Reached.waits {timings : Timings} {asked now : Nat} {phase : Recovery} {notes : List Note}
    (h : phase.Reached timings asked now notes) : (∃ due, phase.due? = some due) ∨
      ∃ slot request, (slot, request) ∈ phase.awaits ∧ request ≠ .version := by
  cases h with
  | reloading _ hs => exact hs.waits
  | refreshing _ hr => exact .inr hr.exists_ask
  | checking | rechecking => exact .inr ⟨0, .status, List.mem_singleton.mpr rfl, by simp⟩

namespace Work

def repairPatience (timings : Timings) (now : Nat) : Work → Nat
  | reload phase => phase.patience timings now
  | recover _ phase => phase.patience timings now
  | _ => 0

theorem repairPatience_anti (timings : Timings) (w : Work) {now now' : Nat} (h : now ≤ now') :
    w.repairPatience timings now' ≤ w.repairPatience timings now := by
  cases w with
  | reload phase => exact phase.patience_anti timings h
  | recover _ phase => exact phase.patience_anti timings h
  | _ => exact Nat.le_refl _

theorem Mends.waits {timings : Timings} {asked now : Nat} {attempt : UInt32} {call : Call} {w : Work}
    {notes : List Note} (h : w.Mends timings asked attempt now call notes) : w.Waits := by
  cases h with
  | reload h | recover h => exact h.waits

theorem MovesOn.patience_lt {s : Shared} {w w' : Work} (h : w.MovesOn s w')
    (hi : 0 < s.timings.healthProbeInterval.toNat) :
    w'.repairPatience s.timings s.now < w.repairPatience s.timings s.now := by
  cases h with
  | reload h | recover h => exact h.patience_lt hi

end Work

theorem Turn.hastens_of_mends {timings : Timings} {t : Turn} {r : Running} {asked : Nat} {attempt : UInt32}
    {call : Call} {notes : List Note} (hs : t.before.Sound timings)
    (hi : 0 < timings.healthProbeInterval.toNat) (hr : r ∈ t.before.running) (hserved : t.IsServed r.id)
    (h : r.work.Mends timings asked attempt t.now call notes) :
    t.Hastens (Work.repairPatience timings) r where
  detached := h.isDetached
  waits := h.waits
  less signal hears := by
    obtain rfl := hs.later.timings_eq
    cases t.repairs_of_hears hserved h hears with
    | goesOn hr' _ hm =>
      refine patience_lt_of_goesOn hs hr hr' ?_
      rw [now_of_hears hears]
      exact hm.patience_lt hi
    | ends hgone => exact patience_lt_of_gone hs hr hgone

namespace Controller

variable {timings : Timings} {c : Controller} {events : Nat → Event} {n asked : Nat} {attempt : UInt32}
  {call : Call}

theorem gone_of_mending {past : List Turn} (hs : c.Sound timings)
    (hlimits : c.limits.2 = timings.attemptReset.toNat) (hi : 0 < timings.healthProbeInterval.toNat)
    (hn : n < c.nextId) (h : Mending timings asked attempt call n past c) (ha : c.Attends events n) :
    ∃ k, (c.reach events k).find? n = none := by
  refine gone_of_hastens hs (Work.repairPatience_anti timings) hn (fun k r hr hid => ?_) ha
  have hserved : ∀ t ∈ c.turns ((List.range k).map events), t.IsServed n := by
    intro t ht
    obtain ⟨j, rfl⟩ := mem_turns_range ht
    exact ha.served j
  cases h.run hs hlimits hn hserved with
  | ended hgone => exact absurd hid (hgone r hr)
  | goesOn hr' hid' hmends =>
    obtain rfl := (hs.reach events k).eq_of_id hr hr' (hid.trans hid'.symm)
    exact Turn.hastens_of_mends (t := c.turnAt events k) (hs.reach events k) hi hr (hid ▸ ha.served k) hmends

/-! ### The whole call -/

/-- Whether a call asks for the core to be repaired that an idle controller admits. -/
def Repairs (c : Controller) (call : Call) : Prop :=
  call = .reload ∨
    call = .recover ∧ c.snapshot.recoveryAttempts < c.shared.timings.maxRecoveryAttempts

theorem mending_entry (hs : c.Sound timings) (hi : c.state.activity = .idle) (hcall : c.Repairs call) :
    let entry : Turn := ⟨c, .call call⟩
    Mending timings c.now (c.snapshot.recoveryAttempts + 1) call c.nextId [entry] entry.after ∧
      c.nextId < entry.after.nextId := by
  intro entry
  have hidle : c.snapshot.activity = .idle := hi
  have hbegins : ∀ {work request shown},
      call.admission c.shared.timings c.snapshot = .admitted work shown → work.awaits = [(0, request)] →
      work.Mends timings c.now (c.snapshot.recoveryAttempts + 1) entry.after.now call
        [.asked c.now request] →
      Mending timings c.now (c.snapshot.recoveryAttempts + 1) call c.nextId [entry] entry.after ∧
        c.nextId < entry.after.nextId := by
    intro work request shown hadmitted hawaits hmends
    obtain ⟨hr, hn, -, hnotes⟩ := begun_of_admitted hs hadmitted hawaits
    refine ⟨.goesOn hr rfl ?_ (.inl rfl), hn⟩
    rw [hnotes]
    exact hmends
  rcases hcall with rfl | ⟨rfl, hlt⟩
  · exact hbegins (by rw [Call.admission, if_pos hidle]) rfl (.reload .restarting)
  · have hnot : ¬ c.snapshot.activity = .recovering := by simp [hidle]
    have hbelow := UInt32.not_le.mpr hlt
    exact hbegins (by rw [Call.admission, if_neg hnot, if_neg hbelow, if_pos hidle]) rfl
      (.recover .checking)

/-- A call of `reload` or `recover` of an idle controller, of `recover` with attempts left, follows its
script, whatever the collaborators answer and whatever happens beside it. The script says which calls it
makes, in which order and at which moments, and the result. In the turn in which it ends, its success or
its error is put on record, the attempts stay, and a caller who waits is told the result; and if the
collaborators answer, the core possibly not when it is asked for its version, the call returns. -/
theorem repair_follows_script (timings : Timings) (currentConfig : Option String) (es₀ : List Event)
    (call : Call) :
    let c := ((initial timings currentConfig).run es₀).1
    let n := c.nextId
    let entry : Turn := ⟨c, .call call⟩
    let attempt := c.snapshot.recoveryAttempts + 1
    c.state.activity = .idle → c.Repairs call →
    (∀ es, (∀ t ∈ entry.after.turns es, t.IsServed n) → (entry.after.run es).1.find? n = none →
      ∃ result ended, Script pauseEnd timings c.now attempt call
          (transcript (entry :: entry.after.turns es) n) ended result ∧
        ∃ t ∈ entry.after.turns es, t.EndsRepair timings n ended result ∧
          ((∀ e ∈ es, e ≠ .abandon n) → .ended n result ∈ t.outputs)) ∧
    (0 < timings.healthProbeInterval → ∀ events, entry.after.Attends events n →
      ∃ k, (entry.after.reach events k).find? n = none) := by
  intro c n entry attempt hi hcall
  have hs : c.Sound timings := (sound_initial timings currentConfig).run es₀
  obtain ⟨hentry, hn⟩ := mending_entry hs hi hcall
  have hs' : entry.after.Sound timings := hs.step entry.event
  have hlimits : entry.after.limits.2 = timings.attemptReset.toNat :=
    congrArg Prod.snd ((c.limits_step entry.event).trans (limits_run _ es₀))
  constructor
  · intro es hserved hgone
    cases hentry.run hs' hlimits hn hserved with
    | goesOn hr hid =>
      have hfound := (hs'.run es).find?_eq_some hr
      rw [hid, hgone] at hfound
      cases hfound
    | @ended result ended t hafter hscript ht hends htold =>
      refine ⟨result, ended, hscript, t, ?_, hends, fun hstays => ?_⟩
      · rcases List.mem_cons.mp ht with rfl | ht
        · obtain ⟨r, hr, hid⟩ := hends.stands
          exact absurd hid (Nat.ne_of_lt (hs.ids_lt r hr))
        · exact ht
      · rcases htold with houtput | ⟨u, hu, he⟩
        · exact houtput
        · rcases List.mem_cons.mp hu with rfl | hu
          · cases he
          · exact absurd he (hstays _ (event_mem_of_turns hu))
  · intro hpositive events hattends
    exact gone_of_mending hs' hlimits (UInt64.lt_iff_toNat_lt.mp hpositive) hn hentry hattends

/-- A recovery from a conflict; the first request for the version fails, and so do two of the fetches. -/
def conflictRecovery : List Event :=
  [.answer 0 0 (.status crowd), .answer 0 0 (.restart (.ok ())), .pass 5000, .wake (.work 0),
    .answer 0 1 (.version (.error (.timeout 1))), .pass 500, .wake (.work 0),
    .answer 0 2 (.version (.ok ⟨"1", false⟩)), .answer 0 1 (.proxies (.error .notConfigured)),
    .answer 0 2 (.config (.ok .null)), .answer 0 0 (.list (.error .notConfigured)),
    .answer 0 0 (.status crowd)]

def conflictEvents (k : Nat) : Event := conflictRecovery.getD k (.pass 0)

def conflicted : Controller := ((initial Timings.standard (some "a")).step (.call .recover)).1

theorem attends_conflictEvents : conflicted.Attends conflictEvents 0 := by
  have hs : conflicted.Sound Timings.standard := (sound_initial Timings.standard (some "a")).step _
  refine attends_of_gone (k := 12) hs Nat.zero_lt_one ?_ ?_ ?_ ?_ <;> decide +kernel

theorem conflict_recovery_follows_script :
    let c := ((initial Timings.standard (some "a")).run []).1
    let entry : Turn := ⟨c, .call .recover⟩
    let past := entry :: entry.after.turns conflictRecovery
    c.state.activity = .idle ∧ c.Repairs .recover ∧
    (∀ t ∈ entry.after.turns conflictRecovery, t.IsServed 0) ∧
    (entry.after.run conflictRecovery).1.find? 0 = none ∧ (∀ e ∈ conflictRecovery, e ≠ .abandon 0) ∧
    (∃ result ended, Script pauseEnd Timings.standard 0 1 .recover (transcript past 0) ended result ∧
      ∃ t ∈ entry.after.turns conflictRecovery, t.EndsRepair Timings.standard 0 ended result ∧
        .ended 0 result ∈ t.outputs) ∧
    0 < Timings.standard.healthProbeInterval ∧ entry.after.Attends conflictEvents 0 ∧
    ∃ k, (entry.after.reach conflictEvents k).find? 0 = none := by
  intro c entry past
  have hi : c.state.activity = .idle := rfl
  have hcall : c.Repairs .recover := .inr ⟨rfl, by decide⟩
  have hserved : ∀ t ∈ entry.after.turns conflictRecovery, t.IsServed 0 := by decide +kernel
  have hgone : (entry.after.run conflictRecovery).1.find? 0 = none := by decide +kernel
  have hstays : ∀ e ∈ conflictRecovery, e ≠ .abandon 0 := by simp [conflictRecovery]
  have hpositive : 0 < Timings.standard.healthProbeInterval := by decide
  obtain ⟨hscript, hreturns⟩ := repair_follows_script Timings.standard (some "a") [] .recover hi hcall
  obtain ⟨result, ended, hscript, t, ht, hends, htold⟩ := hscript conflictRecovery hserved hgone
  exact ⟨hi, hcall, hserved, hgone, hstays, ⟨result, ended, hscript, t, ht, hends, htold hstays⟩,
    hpositive, attends_conflictEvents, hreturns hpositive conflictEvents attends_conflictEvents⟩

/-! ### A pause that is asked to be longer than all others -/

def unhurried : Timings := { restartWait := 1000000000000 }

def unhurriedReload : List Event :=
  [.answer 0 0 (.restart (.ok ())), .pass 1000000000000, .wake (.work 0),
    .answer 0 1 (.version (.ok ⟨"1", false⟩)), .answer 0 0 (.list (.error .notConfigured)),
    .answer 0 1 (.proxies (.error .notConfigured)), .answer 0 2 (.config (.error .notConfigured))]

/-- With these timings the health wait begins before the time after the restart is over. -/
theorem unhurried_reload_asks_early :
    let c := initial unhurried (some "a")
    let entry : Turn := ⟨c, .call .reload⟩
    let past := entry :: entry.after.turns unhurriedReload
    c.state.activity = .idle ∧ c.Repairs .reload ∧ (∀ t ∈ past, t.IsServed 0) ∧
      (entry.after.run unhurriedReload).1.find? 0 = none ∧
      ∀ result ended, ¬ Script (· + ·) unhurried 0 1 .reload (transcript past 0) ended result := by
  intro c entry past
  refine ⟨rfl, .inl rfl, by decide +kernel, by decide +kernel, ?_⟩
  intro result ended hscript
  have hsecond : (transcript past 0)[1]? = some (.answered 0 .restart (.restart (.ok ()))) := rfl
  have hearly : ∀ note ∈ transcript past 0, note.moment < 1000000000000 := by decide +kernel
  obtain ⟨restart, restarted, result', more, hrestart, hnotes⟩ := hscript.exists_restart
  rw [hnotes] at hsecond hearly
  cases hrestart with
  | refused => simp at hsecond
  | @waited answered wait _ _ hwait =>
    obtain ⟨rest, rfl⟩ := hwait.exists_first
    have hlate := hearly (.asked (answered + 1000000000000) .version) (by simp [unhurried])
    exact Nat.not_lt.mpr (Nat.le_add_left _ _) hlate

end Controller

end CoreWarden
