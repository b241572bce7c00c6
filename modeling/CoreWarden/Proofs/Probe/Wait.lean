import CoreWarden.Probe.Course
import Mathlib.Algebra.Order.Floor.Div

/-!
How a health wait ends. `Wait.madeAt`, `Wait.overAt` and `Wait.answer?` say when its requests are made, when
they are over and what is answered in time; the first request that decides ends the wait. Main statement:
a wait that rests between its requests comes to an end soon after the time allowed, and says how.
-/
namespace CoreWarden.Probe

open Time (longestPause pauseEnd)

namespace Pace

def rest (pace : Pace) : Nat := min pace.interval longestPause

/-- How long a request may take that is made at `now`. -/
def budget (pace : Pace) (now : Nat) : Nat := min (pace.maxWait - now) longestPause

theorem rest_pos {pace : Pace} (h : 0 < pace.interval) : 0 < pace.rest :=
  Nat.lt_min.mpr ⟨h, by decide⟩

/-- As many requests as rests fit into the time allowed are never too many. -/
theorem ceilDiv_lt_mostRequests {pace : Pace} (h : 0 < pace.interval) :
    pace.maxWait ⌈/⌉ pace.rest < mostRequests pace := by
  have hrest := rest_pos h
  have hle : pace.maxWait ⌈/⌉ pace.rest ≤ pace.maxWait :=
    (ceilDiv_le_iff_le_mul hrest).mpr (Nat.le_mul_of_pos_left _ hrest)
  rw [mostRequests]
  omega

end Pace

namespace Reaction

/-- The core breaks down in the request, if it is not given up before. -/
def mayCollapse : Reaction → Bool
  | collapses _ => true
  | _ => false

/-- The answer to a request made at `now`, if it comes within its budget; one that comes just at the end still
counts. -/
def answer? (pace : Pace) (now : Nat) : Reaction → Option (Except Error Version)
  | answers delay result => if delay ≤ pace.budget now then some result else none
  | _ => none

def endsAt (pace : Pace) (now : Nat) : Reaction → Nat
  | answers delay _ => now + min delay (pace.budget now)
  | _ => now + pace.budget now

theorem le_endsAt (pace : Pace) (now : Nat) (reaction : Reaction) : now ≤ reaction.endsAt pace now := by
  cases reaction <;> exact Nat.le_add_right _ _

theorem endsAt_le (pace : Pace) (now : Nat) (reaction : Reaction) :
    reaction.endsAt pace now ≤ max now pace.maxWait := by
  have hbudget : pace.budget now ≤ pace.maxWait - now := Nat.min_le_left _ _
  cases reaction with
  | answers delay result =>
    have hdelay : min delay (pace.budget now) ≤ pace.budget now := Nat.min_le_right _ _
    simp only [endsAt]
    omega
  | collapses | silent =>
    simp only [endsAt]
    omega

end Reaction

/-- How a request that is over at `moment` ends the wait, if it does. -/
def verdict? (pace : Pace) (moment : Nat) : Option (Except Error Version) → Option (Except Error Unit)
  | some (.ok _) => some (.ok ())
  | some (.error .notConfigured) => some (.error .notConfigured)
  | _ => if pace.maxWait ≤ moment then some (.error (.timeout moment)) else none

theorem failed_eq (pace : Pace) (attempt moment : Nat) (e : Error) :
    failed pace 0 attempt moment e =
      match verdict? pace moment (some (.error e)) with
      | some result => .done result
      | none => .waiting (.resting 0 attempt (moment + pace.rest)) [] := by
  cases e with
  | notConfigured => rfl
  | _ =>
    simp only [failed, verdict?, Nat.sub_zero]
    split <;> rfl

theorem resume_givenUp (pace : Pace) (attempt limit moment : Nat) :
    (asking 0 attempt limit).resume pace moment .timeUp =
      match verdict? pace moment none with
      | some result => .done result
      | none => .waiting (.resting 0 attempt (moment + pace.rest)) [] :=
  failed_eq pace attempt moment givenUp

theorem resume_answer (pace : Pace) (attempt limit moment : Nat) (result : Except Error Version) :
    (asking 0 attempt limit).resume pace moment (.answer attempt (.version result)) =
      match verdict? pace moment (some result) with
      | some result => .done result
      | none => .waiting (.resting 0 attempt (moment + pace.rest)) [] := by
  cases result with
  | ok version => simp [resume, verdict?]
  | error e => simp [resume, failed_eq]

/-- What follows a request that is over: the end of the wait, or a rest. -/
theorem resume_outcome (pace : Pace) (attempt now : Nat) {reaction : Reaction}
    (h : reaction.mayCollapse = false) :
    ∃ signal, outcome attempt now (pauseEnd now (pace.maxWait - now)) reaction =
        (reaction.endsAt pace now, some signal) ∧
      (asking 0 attempt (pauseEnd now (pace.maxWait - now))).resume pace (reaction.endsAt pace now) signal =
        match verdict? pace (reaction.endsAt pace now) (reaction.answer? pace now) with
        | some result => .done result
        | none => .waiting (.resting 0 attempt (reaction.endsAt pace now + pace.rest)) [] := by
  have hlimit : pauseEnd now (pace.maxWait - now) = now + pace.budget now := rfl
  cases reaction with
  | collapses delay => cases h
  | silent => exact ⟨.timeUp, rfl, resume_givenUp ..⟩
  | answers delay result =>
    by_cases hd : delay ≤ pace.budget now
    · refine ⟨.answer attempt (.version result), ?_, ?_⟩
      · simp [outcome, Reaction.endsAt, hlimit, hd]
      · rw [resume_answer, Reaction.answer?, if_pos hd]
    · refine ⟨.timeUp, ?_, ?_⟩
      · simp [outcome, Reaction.endsAt, hlimit, hd, Nat.min_eq_right (Nat.le_of_not_le hd)]
      · rw [resume_givenUp, Reaction.answer?, if_neg hd]

theorem courseFrom_succ {σ : Type} {pace : Pace} {react : σ → Nat → Reaction × σ} {env : σ}
    (fuel attempt : Nat) {now : Nat} (h : (react env now).1.mayCollapse = false) :
    courseFrom pace react (fuel + 1) env attempt now =
      match verdict? pace ((react env now).1.endsAt pace now) ((react env now).1.answer? pace now) with
      | some result => some ⟨.finished result, (react env now).1.endsAt pace now, [now]⟩
      | none => (courseFrom pace react fuel (react env now).2 (attempt + 1)
          ((react env now).1.endsAt pace now + pace.rest)).map fun course =>
            { course with calls := now :: course.calls } := by
  obtain ⟨signal, houtcome, hresume⟩ := resume_outcome pace attempt now h
  rw [courseFrom]
  simp only [houtcome, hresume]
  cases verdict? pace ((react env now).1.endsAt pace now) ((react env now).1.answer? pace now) <;> rfl

/-- A health wait, and the core that it meets. -/
structure Wait (σ : Type) where
  pace : Pace
  react : σ → Nat → Reaction × σ
  env : σ

namespace Wait

variable {σ : Type} (w : Wait σ)

/-- The state in which the core meets the request with this number, counted from zero, and the moment at which
that is made if no request before it ends the wait. -/
def meets : Nat → σ × Nat
  | 0 => (w.env, 0)
  | k + 1 =>
    let (env, now) := meets k
    ((w.react env now).2, (w.react env now).1.endsAt w.pace now + w.pace.rest)

def madeAt (k : Nat) : Nat := (w.meets k).2

def reaction (k : Nat) : Reaction := (w.react (w.meets k).1 (w.meets k).2).1

def overAt (k : Nat) : Nat := (w.reaction k).endsAt w.pace (w.madeAt k)

def answer? (k : Nat) : Option (Except Error Version) := (w.reaction k).answer? w.pace (w.madeAt k)

def verdict? (k : Nat) : Option (Except Error Unit) := Probe.verdict? w.pace (w.overAt k) (w.answer? k)

@[simp] theorem madeAt_zero : w.madeAt 0 = 0 := rfl

theorem madeAt_succ (k : Nat) : w.madeAt (k + 1) = w.overAt k + w.pace.rest := rfl

theorem madeAt_le_overAt (k : Nat) : w.madeAt k ≤ w.overAt k := Reaction.le_endsAt ..

theorem overAt_le (k : Nat) : w.overAt k ≤ max (w.madeAt k) w.pace.maxWait := Reaction.endsAt_le ..

theorem mul_rest_le_madeAt (k : Nat) : w.pace.rest * k ≤ w.madeAt k := by
  induction k with
  | zero => exact Nat.zero_le _
  | succ k ih =>
    have hle := w.madeAt_le_overAt k
    rw [madeAt_succ, Nat.mul_succ]
    omega

variable {w}

def Stands (w : Wait σ) : Prop := ∀ k, (w.reaction k).mayCollapse = false

theorem courseFrom_meets (hw : w.Stands) (fuel k : Nat) :
    courseFrom w.pace w.react (fuel + 1) (w.meets k).1 (k + 1) (w.madeAt k) =
      match w.verdict? k with
      | some result => some ⟨.finished result, w.overAt k, [w.madeAt k]⟩
      | none => (courseFrom w.pace w.react fuel (w.meets (k + 1)).1 (k + 2) (w.madeAt (k + 1))).map
          fun course => { course with calls := w.madeAt k :: course.calls } :=
  courseFrom_succ fuel (k + 1) (hw k)

/-- The first request that decides ends the wait. -/
theorem courseFrom_eq (hw : w.Stands) {k n fuel : Nat} {result : Except Error Unit}
    (hn : w.verdict? (k + n) = some result) (hbefore : ∀ j < n, w.verdict? (k + j) = none)
    (hfuel : n < fuel) :
    courseFrom w.pace w.react fuel (w.meets k).1 (k + 1) (w.madeAt k) =
      some ⟨.finished result, w.overAt (k + n), (List.range' k (n + 1)).map w.madeAt⟩ := by
  induction n generalizing k fuel with
  | zero =>
    obtain ⟨fuel, rfl⟩ := Nat.exists_eq_add_one_of_ne_zero (Nat.ne_of_gt hfuel)
    have hresult : w.verdict? k = some result := hn
    simp [courseFrom_meets hw, hresult]
  | succ n ih =>
    obtain ⟨fuel, rfl⟩ := Nat.exists_eq_add_one_of_ne_zero (Nat.ne_zero_of_lt hfuel)
    have hnone : w.verdict? k = none := hbefore 0 (Nat.succ_pos n)
    have hshift : ∀ j, k + 1 + j = k + (j + 1) := fun j => by omega
    have hn' : w.verdict? (k + 1 + n) = some result := hshift n ▸ hn
    have hbefore' : ∀ j < n, w.verdict? (k + 1 + j) = none := by
      intro j hj
      rw [hshift]
      exact hbefore (j + 1) (Nat.succ_lt_succ hj)
    have hrest := ih hn' hbefore' (Nat.lt_of_succ_lt_succ hfuel)
    simp [courseFrom_meets hw, hnone, hrest, hshift, List.range'_succ]

theorem course?_eq (hw : w.Stands) {n : Nat} {result : Except Error Unit}
    (hn : w.verdict? n = some result) (hbefore : ∀ j < n, w.verdict? j = none)
    (hmost : n < mostRequests w.pace) :
    course? w.pace w.react w.env =
      some ⟨.finished result, w.overAt n, (List.range (n + 1)).map w.madeAt⟩ := by
  have hcourse := courseFrom_eq hw (k := 0) (by rwa [Nat.zero_add])
    (fun j hj => by rw [Nat.zero_add]; exact hbefore j hj) hmost
  rw [Nat.zero_add n, ← List.range_eq_range'] at hcourse
  exact hcourse

/-! ### What decides -/

/-- The request is answered in time with success. -/
def Succeeds (w : Wait σ) (k : Nat) : Prop := ∃ version, w.answer? k = some (.ok version)

/-- The answer in time is that no control address is known. -/
def Unconfigured (w : Wait σ) (k : Nat) : Prop := w.answer? k = some (.error .notConfigured)

/-- The request fails in another way, and then the time allowed is over. -/
def FailsLate (w : Wait σ) (k : Nat) : Prop :=
  ¬ w.Succeeds k ∧ ¬ w.Unconfigured k ∧ w.pace.maxWait ≤ w.overAt k

theorem verdict?_of_succeeds {k : Nat} (h : w.Succeeds k) : w.verdict? k = some (.ok ()) := by
  obtain ⟨version, hv⟩ := h
  rw [verdict?, hv]
  rfl

theorem verdict?_of_unconfigured {k : Nat} (h : w.Unconfigured k) :
    w.verdict? k = some (.error .notConfigured) := by
  rw [verdict?, h]
  rfl

theorem verdict?_of_fails {k : Nat} (hs : ¬ w.Succeeds k) (hu : ¬ w.Unconfigured k) :
    w.verdict? k = if w.pace.maxWait ≤ w.overAt k then some (.error (.timeout (w.overAt k))) else none := by
  unfold verdict? Probe.verdict?
  split
  · next version ha => exact absurd ⟨version, ha⟩ hs
  · next ha => exact absurd ha hu
  · rfl

theorem cases_of_verdict? {k : Nat} {result : Except Error Unit} (h : w.verdict? k = some result) :
    w.Succeeds k ∧ result = .ok () ∨ w.Unconfigured k ∧ result = .error .notConfigured ∨
      w.FailsLate k ∧ result = .error (.timeout (w.overAt k)) := by
  by_cases hs : w.Succeeds k
  · rw [verdict?_of_succeeds hs, Option.some.injEq] at h
    exact .inl ⟨hs, h.symm⟩
  by_cases hu : w.Unconfigured k
  · rw [verdict?_of_unconfigured hu, Option.some.injEq] at h
    exact .inr (.inl ⟨hu, h.symm⟩)
  rw [verdict?_of_fails hs hu] at h
  split at h
  · next hover =>
    rw [Option.some.injEq] at h
    exact .inr (.inr ⟨⟨hs, hu, hover⟩, h.symm⟩)
  · cases h

theorem of_verdict?_eq_none {k : Nat} (h : w.verdict? k = none) :
    ¬ w.Succeeds k ∧ ¬ w.Unconfigured k ∧ ¬ w.FailsLate k := by
  refine ⟨fun hs => ?_, fun hu => ?_, fun hf => ?_⟩
  · simp [verdict?_of_succeeds hs] at h
  · simp [verdict?_of_unconfigured hu] at h
  · simp [verdict?_of_fails hf.1 hf.2.1, hf.2.2] at h

section

variable {n : Nat} {result : Except Error Unit} (hresult : w.verdict? n = some result)
  (hbefore : ∀ j < n, w.verdict? j = none)

theorem le_of_verdict? (hbefore : ∀ j < n, w.verdict? j = none) {k : Nat} (h : w.verdict? k = some result) :
    n ≤ k := by
  by_contra hlt
  simp [hbefore k (Nat.lt_of_not_le hlt)] at h

include hresult hbefore

/-- The wait succeeds when a request is answered with success before anything else decides. -/
theorem eq_ok_iff : result = .ok () ↔
    ∃ k, w.Succeeds k ∧ ∀ j < k, ¬ w.Unconfigured j ∧ ¬ w.FailsLate j := by
  have hcases := cases_of_verdict? hresult
  constructor
  · rintro rfl
    have hs : w.Succeeds n := by simpa using hcases
    exact ⟨n, hs, fun j hj => (of_verdict?_eq_none (hbefore j hj)).2⟩
  · rintro ⟨k, hs, hk⟩
    have hle := le_of_verdict? hbefore (verdict?_of_succeeds hs)
    rcases Nat.eq_or_lt_of_le hle with rfl | hlt
    · exact Option.some.inj (hresult.symm.trans (verdict?_of_succeeds hs))
    · have hn := hk n hlt
      rcases hcases with ⟨-, hr⟩ | ⟨hu, -⟩ | ⟨hf, -⟩
      · exact hr
      · exact absurd hu hn.1
      · exact absurd hf hn.2

/-- The wait ends for want of a control address when a request is answered so before anything else decides. -/
theorem eq_notConfigured_iff : result = .error .notConfigured ↔
    ∃ k, w.Unconfigured k ∧ ∀ j < k, ¬ w.Succeeds j ∧ ¬ w.FailsLate j := by
  have hcases := cases_of_verdict? hresult
  constructor
  · rintro rfl
    have hu : w.Unconfigured n := by simpa using hcases
    refine ⟨n, hu, fun j hj => ?_⟩
    obtain ⟨hs, -, hf⟩ := of_verdict?_eq_none (hbefore j hj)
    exact ⟨hs, hf⟩
  · rintro ⟨k, hu, hk⟩
    have hle := le_of_verdict? hbefore (verdict?_of_unconfigured hu)
    rcases Nat.eq_or_lt_of_le hle with rfl | hlt
    · exact Option.some.inj (hresult.symm.trans (verdict?_of_unconfigured hu))
    · have hn := hk n hlt
      rcases hcases with ⟨hs, -⟩ | ⟨-, hr⟩ | ⟨hf, -⟩
      · exact absurd hs hn.1
      · exact hr
      · exact absurd hf hn.2

end

/-! ### The end -/

theorem isSome_verdict? {k : Nat} (h : w.pace.maxWait ≤ w.overAt k) : (w.verdict? k).isSome = true := by
  by_cases hs : w.Succeeds k
  · simp [verdict?_of_succeeds hs]
  by_cases hu : w.Unconfigured k
  · simp [verdict?_of_unconfigured hu]
  simp [verdict?_of_fails hs hu, h]

theorem overAt_lt_of_none {k : Nat} (h : w.verdict? k = none) : w.overAt k < w.pace.maxWait := by
  by_contra hle
  have hsome := isSome_verdict? (Nat.le_of_not_lt hle)
  simp [h] at hsome

/-- Some request decides, and no more of them are made than intervals fit into the time allowed and one. -/
theorem exists_first_verdict (hi : 0 < w.pace.interval) :
    ∃ n ≤ w.pace.maxWait ⌈/⌉ w.pace.rest, ∃ result, w.verdict? n = some result ∧
      ∀ j < n, w.verdict? j = none := by
  have hrest := Pace.rest_pos hi
  have hlate : w.pace.maxWait ≤ w.madeAt (w.pace.maxWait ⌈/⌉ w.pace.rest) :=
    Nat.le_trans (le_smul_ceilDiv hrest) (w.mul_rest_le_madeAt _)
  have hdecides := isSome_verdict? (Nat.le_trans hlate (w.madeAt_le_overAt _))
  have hexists : ∃ n, (w.verdict? n).isSome = true := ⟨_, hdecides⟩
  obtain ⟨result, hresult⟩ := Option.isSome_iff_exists.mp (Nat.find_spec hexists)
  refine ⟨Nat.find hexists, Nat.find_min' hexists hdecides, result, hresult, ?_⟩
  intro j hj
  simpa using Nat.find_min hexists hj

/-- The last request is over less than a rest after the time allowed. -/
theorem overAt_lt (hi : 0 < w.pace.interval) {n : Nat} (hbefore : ∀ j < n, w.verdict? j = none) :
    w.overAt n < w.pace.maxWait + w.pace.rest := by
  have hrest := Pace.rest_pos hi
  have hover := w.overAt_le n
  have hmade : w.madeAt n < w.pace.maxWait + w.pace.rest := by
    cases n with
    | zero => exact Nat.add_pos_right _ hrest
    | succ n =>
      have hlt := overAt_lt_of_none (hbefore n (Nat.lt_succ_self n))
      rw [madeAt_succ]
      omega
  omega

/-- A health wait whose core breaks down in no request comes to an end: less than a rest after the time
allowed, after at most one request more than rests fit into that time, with a rest in front of every request
but the first. It succeeds when a request is answered with success in time, and ends for want of a control
address when a request is answered so, each before any other end; else the time allowed is over, and the
wait says how long it has lasted. -/
theorem ends_in_bounds (w : Wait σ) (hi : 0 < w.pace.interval) (hw : w.Stands) :
    ∃ n result, course? w.pace w.react w.env =
        some ⟨.finished result, w.overAt n, (List.range (n + 1)).map w.madeAt⟩ ∧
      w.overAt n < w.pace.maxWait + w.pace.rest ∧
      n + 1 ≤ w.pace.maxWait ⌈/⌉ w.pace.rest + 1 ∧
      (∀ k < n, w.overAt k + w.pace.rest ≤ w.madeAt (k + 1)) ∧
      (result = .ok () ↔ ∃ k, w.Succeeds k ∧ ∀ j < k, ¬ w.Unconfigured j ∧ ¬ w.FailsLate j) ∧
      (result = .error .notConfigured ↔
        ∃ k, w.Unconfigured k ∧ ∀ j < k, ¬ w.Succeeds j ∧ ¬ w.FailsLate j) ∧
      (result = .ok () ∨ result = .error .notConfigured ∨
        result = .error (.timeout (w.overAt n)) ∧ w.pace.maxWait ≤ w.overAt n) := by
  obtain ⟨n, hn, result, hresult, hbefore⟩ := exists_first_verdict (w := w) hi
  have hfuel : n < mostRequests w.pace := Nat.lt_of_le_of_lt hn (Pace.ceilDiv_lt_mostRequests hi)
  refine ⟨n, result, course?_eq hw hresult hbefore hfuel, overAt_lt hi hbefore, Nat.succ_le_succ hn,
    fun k _ => Nat.le_of_eq (w.madeAt_succ k).symm, eq_ok_iff hresult hbefore,
    eq_notConfigured_iff hresult hbefore, ?_⟩
  rcases cases_of_verdict? hresult with ⟨-, hr⟩ | ⟨-, hr⟩ | ⟨hf, hr⟩
  · exact .inl hr
  · exact .inr (.inl hr)
  · exact .inr (.inr ⟨hr, hf.2.2⟩)

/-- The first request fails, and the second one succeeds just when the time allowed is over. -/
def atTheLimit : Wait Nat where
  pace := ⟨500, 1000⟩
  react k _ :=
    (if k = 0 then .answers 130 (.error (.network "down")) else .answers 370 (.ok ⟨"v1", true⟩), k + 1)
  env := 0

theorem ends_in_bounds_at_the_limit :
    0 < atTheLimit.pace.interval ∧ atTheLimit.Stands ∧
    ∃ n, course? atTheLimit.pace atTheLimit.react atTheLimit.env =
        some ⟨.finished (.ok ()), atTheLimit.overAt n, (List.range (n + 1)).map atTheLimit.madeAt⟩ ∧
      atTheLimit.overAt n < 1500 ∧ n ≤ 2 := by
  have hstands : atTheLimit.Stands := by
    intro k
    simp only [reaction, atTheLimit]
    split <;> rfl
  have hfirst : ¬ atTheLimit.Unconfigured 0 ∧ ¬ atTheLimit.FailsLate 0 := by
    refine ⟨nofun, fun hlate => ?_⟩
    exact absurd hlate.2.2 (by decide)
  obtain ⟨n, result, hcourse, hover, hn, -, hok, -⟩ := ends_in_bounds atTheLimit (by decide) hstands
  obtain rfl : result = .ok () :=
    hok.mpr ⟨1, ⟨⟨"v1", true⟩, rfl⟩, fun j hj => Nat.lt_one_iff.mp hj ▸ hfirst⟩
  exact ⟨by decide, hstands, n, hcourse, hover, Nat.le_of_succ_le_succ hn⟩

/-- The core is never reached, and the interval is longer than any pause. -/
def patient : Wait Unit where
  pace := ⟨1000000000000, 1000000000000⟩
  react _ _ := (.answers 0 (.error (.network "down")), ())
  env := ()

/-- The core takes longer for an answer than any pause, and the time allowed is longer still. -/
def sluggish : Wait Unit where
  pace := ⟨1000, 2000000000000⟩
  react _ _ := (.answers 1000000000000 (.ok ⟨"v1", true⟩), ())
  env := ()

/-- An interval of more than thirty years is not kept between two requests, and there are more of them; and a
request is given up after thirty years, even if it would be answered within the time allowed. -/
theorem patient_wait_asks_early :
    (course? patient.pace patient.react patient.env =
        some ⟨.finished (.error (.timeout 1892160000000)), 1892160000000,
          [0, 946080000000, 1892160000000]⟩ ∧
      patient.overAt 0 = 0 ∧ 946080000000 < patient.overAt 0 + patient.pace.interval ∧
      patient.pace.maxWait ⌈/⌉ patient.pace.interval + 1 < 3) ∧
    (course? sluggish.pace sluggish.react sluggish.env =
        some ⟨.finished (.error (.timeout 2000000000000)), 2000000000000,
          [0, 946080001000, 1892160002000]⟩ ∧
      sluggish.reaction 0 = .answers 1000000000000 (.ok ⟨"v1", true⟩) ∧
      1000000000000 ≤ sluggish.pace.maxWait - sluggish.madeAt 0) := by
  exact ⟨⟨rfl, rfl, by decide, by decide⟩, rfl, rfl, by decide⟩

end Wait

end CoreWarden.Probe
