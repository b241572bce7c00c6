import CoreWarden.Proofs.Controller.Transcript

/-!
The health wait, which a switch goes through as well as the steps of a reload: which requests for the
version are made and when, how far a wait in progress has come, and how much is left of it.
-/
namespace CoreWarden

open Time (pauseEnd)

theorem Time.lt_pauseEnd {now delay : Nat} (h : 0 < delay) : now < pauseEnd now delay := by
  have hpause : 0 < min delay longestPause := Nat.lt_min.mpr ⟨h, by decide⟩
  exact Nat.lt_add_of_pos_right hpause

namespace Probe

section

/-! ### The script -/

variable (pause : Nat → Nat → Nat) (timings : Timings)

/-- A request for the version is answered in time, or given up at `limit`. -/
inductive Try (limit asked : Nat) : List Note → Nat → Except Error Unit → Prop
  | answered {moment result} (h : moment ≤ limit) :
      Try limit asked [.asked asked .version, .answered moment .version (.version result)] moment
        (result.map fun _ => ())
  | givenUp : Try limit asked [.asked asked .version] limit (.error Probe.givenUp)

/-- What becomes of the request for the version that is made at `asked` in a health wait. -/
abbrev Attempt (started asked : Nat) : List Note → Nat → Except Error Unit → Prop :=
  Try (pause asked (started + timings.healthProbeMaxWait.toNat - asked)) asked

/-- Requests for the version that have failed, each a pause after the failure of the one before, up to
the moment of the next one. -/
inductive Tried (started : Nat) : List Note → Nat → Prop
  | first : Tried started [] started
  | again {notes asked more failed e} (h : Tried started notes asked)
      (ht : Attempt pause timings started asked more failed (.error e)) (he : e ≠ .notConfigured)
      (hm : failed - started < timings.healthProbeMaxWait.toNat) :
      Tried started (notes ++ more) (pause failed timings.healthProbeInterval.toNat)

/-- A whole health wait, which ends as its last request says. -/
inductive HealthWait (started : Nat) : List Note → Nat → Except Error Unit → Prop
  | healthy {notes asked last ended} (h : Tried pause timings started notes asked)
      (ht : Attempt pause timings started asked last ended (.ok ())) :
      HealthWait started (notes ++ last) ended (.ok ())
  | unconfigured {notes asked last ended} (h : Tried pause timings started notes asked)
      (ht : Attempt pause timings started asked last ended (.error .notConfigured)) :
      HealthWait started (notes ++ last) ended (.error .notConfigured)
  | overdue {notes asked last ended e} (h : Tried pause timings started notes asked)
      (ht : Attempt pause timings started asked last ended (.error e)) (he : e ≠ .notConfigured)
      (hm : timings.healthProbeMaxWait.toNat ≤ ended - started) :
      HealthWait started (notes ++ last) ended (.error (.timeout (ended - started)))

end

section

variable {pause : Nat → Nat → Nat} {timings : Timings} {started ended : Nat} {notes : List Note}
  {result : Except Error Unit}

theorem Tried.exists_first {asked : Nat} {last : List Note} (h : Tried pause timings started notes asked)
    (ht : Attempt pause timings started asked last ended result) :
    ∃ rest, notes ++ last = .asked started .version :: rest := by
  induction h generalizing last ended result with
  | first => cases ht <;> exact ⟨_, rfl⟩
  | again h ht' he hm ih =>
    obtain ⟨rest, hrest⟩ := ih ht'
    exact ⟨rest ++ last, by rw [hrest, List.cons_append]⟩

theorem HealthWait.exists_first (h : HealthWait pause timings started notes ended result) :
    ∃ rest, notes = .asked started .version :: rest := by
  cases h with
  | healthy h ht | unconfigured h ht | overdue h ht => exact h.exists_first ht

end

/-! ### How far a health wait has come -/

inductive Reached (timings : Timings) (started now : Nat) : Probe → List Note → Prop
  | asking {tried asked attempt} (ht : Tried pauseEnd timings started tried asked)
      (hn : now ≤ pauseEnd asked (started + timings.healthProbeMaxWait.toNat - asked)) :
      Reached timings started now (.asking started attempt
        (pauseEnd asked (started + timings.healthProbeMaxWait.toNat - asked)))
        (tried ++ [.asked asked .version])
  | resting {tried wake attempt} (ht : Tried pauseEnd timings started tried wake) (hn : now ≤ wake) :
      Reached timings started now (.resting started attempt wake) tried

namespace Reached

variable {timings : Timings} {started now now' : Nat} {probe : Probe} {notes : List Note}

theorem later (h : probe.Reached timings started now notes) (hn : now' ≤ probe.due) :
    probe.Reached timings started now' notes := by
  cases h with
  | asking ht => exact .asking ht hn
  | resting ht => exact .resting ht hn

theorem le_due (h : probe.Reached timings started now notes) : now ≤ probe.due := by
  cases h with
  | asking _ hn | resting _ hn => exact hn

end Reached

def Leads (timings : Timings) (started now : Nat) (notes : List Note) :
    Progress Probe (Except Error Unit) → Prop
  | .waiting probe asks => Reached timings started now probe (notes ++ asks.map (.asked now ·.2))
  | .done result => HealthWait pauseEnd timings started notes now result

/-- Where a health wait stands after a signal that it waits for. -/
inductive Moves (s : Shared) : Probe → List Note → Progress Probe (Except Error Unit) → Prop
  | healthy {started attempt limit version} : Moves s (.asking started attempt limit)
      [.answered s.now .version (.version (.ok version))] (.done (.ok ()))
  | failed {started attempt limit e} : Moves s (.asking started attempt limit)
      [.answered s.now .version (.version (.error e))] (failed s.pace started attempt s.now e)
  | givenUp {started attempt limit} (h : limit ≤ s.now) : Moves s (.asking started attempt limit) []
      (failed s.pace started attempt s.now givenUp)
  | rested {started attempt wake} (h : wake ≤ s.now) : Moves s (.resting started attempt wake) []
      (ask s.pace started (attempt + 1) s.now)

variable {s : Shared} {started asked : Nat} {probe probe' : Probe} {notes more : List Note}

theorem moves_of_awaited {signal : Signal}
    (h : Signal.Awaited s.now probe.awaits (some probe.due) signal notes) :
    Moves s probe notes (probe.resume s.pace s.now signal) := by
  cases probe with
  | asking started attempt limit =>
    cases h with
    | @answer slot request answer ha hs =>
      cases List.mem_singleton.mp ha
      cases answer with
      | version result =>
        simp only [resume, if_true]
        cases result with
        | ok version => exact .healthy
        | error e => exact .failed
      | _ => cases hs
    | timeUp hd hn =>
      cases hd
      exact .givenUp hn
  | resting started attempt wake =>
    obtain ⟨rfl, rfl, hn⟩ := h.of_due
    exact .rested hn

theorem script_of_failed {attempt : Nat} {e : Error} (ht : Tried pauseEnd s.timings started notes asked)
    (ha : Attempt pauseEnd s.timings started asked more s.now (.error e)) :
    Leads s.timings started s.now (notes ++ more) (Probe.failed s.pace started attempt s.now e) := by
  fun_cases Probe.failed s.pace started attempt s.now e with
  | case1 => exact .unconfigured ht ha
  | case2 _ he hm => exact .overdue ht ha he hm
  | case3 _ he hm =>
    have hagain := Tried.again ht ha he (Nat.lt_of_not_le hm)
    simp only [Leads, List.map_nil, List.append_nil]
    exact .resting hagain (Time.le_pauseEnd _ _)

theorem script_of_ask {attempt : Nat} (ht : Tried pauseEnd s.timings started notes s.now) :
    Leads s.timings started s.now notes (Probe.ask s.pace started attempt s.now) :=
  .asking ht (Time.le_pauseEnd _ _)

theorem script_of_start (h : s.now = started) :
    Leads s.timings started s.now [] (Probe.start s.pace s.now) := by
  subst h
  exact script_of_ask .first

theorem Reached.moves {progress : Progress Probe (Except Error Unit)}
    (h : Reached s.timings started s.now probe notes) (hm : Moves s probe more progress) :
    Leads s.timings started s.now (notes ++ more) progress := by
  cases h with
  | @asking tried asked attempt ht hn =>
    cases hm with
    | healthy =>
      rw [List.append_assoc]
      exact .healthy ht (.answered hn)
    | failed =>
      rw [List.append_assoc]
      exact script_of_failed ht (.answered hn)
    | givenUp hdue =>
      have htry : Try s.now asked [.asked asked .version] s.now (.error Probe.givenUp) := .givenUp
      rw [List.append_nil]
      refine script_of_failed ht ?_
      rw [Attempt, ← Nat.le_antisymm hn hdue]
      exact htry
  | resting ht hn =>
    cases hm with
    | rested hdue =>
      obtain rfl := Nat.le_antisymm hn hdue
      rw [List.append_nil]
      exact script_of_ask ht

/-! ### How much is left of a health wait -/

/-- A bound on the signals that a health wait can take yet. A request that fails and the pause after it are
two of them, and take at least a millisecond of the time allowed. -/
def patience (timings : Timings) (now : Nat) : Probe → Nat
  | asking started _ _ => 2 * (started + timings.healthProbeMaxWait.toNat - now) + 1
  | resting started _ wake => 2 * (started + timings.healthProbeMaxWait.toNat - wake) + 2

theorem patience_anti (timings : Timings) (probe : Probe) {now now' : Nat} (h : now ≤ now') :
    probe.patience timings now' ≤ probe.patience timings now := by
  cases probe with
  | asking =>
    simp only [patience]
    omega
  | resting => exact Nat.le_refl _

theorem patience_pos (timings : Timings) (now : Nat) (probe : Probe) : 0 < probe.patience timings now := by
  cases probe <;> exact Nat.succ_pos _

theorem patience_of_start {asks : List (Nat × Request)}
    (h : start s.pace s.now = .waiting probe asks) :
    probe.patience s.timings s.now = 2 * s.timings.healthProbeMaxWait.toNat + 1 := by
  cases h
  simp [patience]

theorem patience_of_failed {attempt limit : Nat} {e : Error} {asks : List (Nat × Request)}
    (hi : 0 < s.timings.healthProbeInterval.toNat)
    (h : failed s.pace started attempt s.now e = .waiting probe asks) :
    probe.patience s.timings s.now < (asking started attempt limit).patience s.timings s.now := by
  revert h
  fun_cases failed s.pace started attempt s.now e <;> intro h <;> cases h
  case case3 hm _ =>
    have hlater : s.now < pauseEnd s.now s.timings.healthProbeInterval.toNat := Time.lt_pauseEnd hi
    simp only [patience, Shared.pace] at hm ⊢
    omega

/-- Every move brings the end of a health wait closer. -/
theorem Moves.patience_lt {asks : List (Nat × Request)} (h : probe.Moves s notes (.waiting probe' asks))
    (hi : 0 < s.timings.healthProbeInterval.toNat) :
    probe'.patience s.timings s.now < probe.patience s.timings s.now := by
  generalize hstep : Progress.waiting probe' asks = progress at h
  cases h with
  | healthy => cases hstep
  | failed | givenUp => exact patience_of_failed hi hstep.symm
  | rested hn =>
    cases hstep
    simp only [patience]
    omega

end Probe

end CoreWarden
