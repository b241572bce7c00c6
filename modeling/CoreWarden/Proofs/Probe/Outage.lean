import CoreWarden.Proofs.Probe.Wait

/-!
A health wait through an outage: the core is out of reach for some time and answers from then on, each request
at once. The requests are made at the multiples of the rest, and the first of them after the outage, or
after the time allowed, ends the wait.
-/
namespace CoreWarden.Probe

/-- The core is out of reach until `length`. -/
def outage (pace : Pace) (length : Nat) (detail : String) (version : Version) : Wait Unit where
  pace := pace
  react _ now := (.answers 0 (if now < length then .error (.network detail) else .ok version), ())
  env := ()

namespace Outage

variable (pace : Pace) (length : Nat) (detail : String) (version : Version)

theorem overAt_eq_madeAt (k : Nat) :
    (outage pace length detail version).overAt k = (outage pace length detail version).madeAt k := by
  simp [Wait.overAt, Wait.reaction, outage, Reaction.endsAt]

theorem madeAt_eq (k : Nat) : (outage pace length detail version).madeAt k = pace.rest * k := by
  induction k with
  | zero => rfl
  | succ k ih =>
    rw [Wait.madeAt_succ, overAt_eq_madeAt, ih, Nat.mul_succ]
    rfl

theorem answer?_eq (k : Nat) : (outage pace length detail version).answer? k =
    some (if pace.rest * k < length then .error (.network detail) else .ok version) := by
  have hmade := madeAt_eq pace length detail version k
  rw [Wait.madeAt] at hmade
  simp only [Wait.answer?, Wait.reaction, outage, Reaction.answer?, Nat.zero_le, if_true] at hmade ⊢
  rw [hmade]

/-- A request succeeds after the outage; before that it fails, and ends the wait if the time allowed is
over. -/
theorem verdict?_eq (k : Nat) : (outage pace length detail version).verdict? k =
    if length ≤ pace.rest * k then some (.ok ())
    else if pace.maxWait ≤ pace.rest * k then some (.error (.timeout (pace.rest * k)))
    else none := by
  rw [Wait.verdict?, answer?_eq, overAt_eq_madeAt, madeAt_eq]
  by_cases hlength : length ≤ pace.rest * k
  · simp only [Nat.not_lt_of_le hlength, hlength, if_true, if_false]
    rfl
  · simp only [Nat.lt_of_not_le hlength, hlength, if_true, if_false]
    rfl

theorem stands : (outage pace length detail version).Stands := fun _ => rfl

variable {pace}

theorem mul_rest_lt (hi : 0 < pace.interval) {moment k : Nat} (hk : k < moment ⌈/⌉ pace.rest) :
    pace.rest * k < moment := by
  by_contra hle
  exact Nat.not_le_of_lt hk ((ceilDiv_le_iff_le_mul (Pace.rest_pos hi)).mpr (Nat.le_of_not_lt hle))

/-- No request decides that is made before the end of the outage and before the end of the time allowed. -/
theorem verdict?_eq_none (hi : 0 < pace.interval) :
    ∀ j < min (length ⌈/⌉ pace.rest) (pace.maxWait ⌈/⌉ pace.rest),
      (outage pace length detail version).verdict? j = none := by
  intro j hj
  rw [Nat.lt_min] at hj
  rw [verdict?_eq, if_neg (Nat.not_le_of_lt (mul_rest_lt hi hj.1)),
    if_neg (Nat.not_le_of_lt (mul_rest_lt hi hj.2))]

/-- A wait through an outage succeeds with the first request after it, if that is not made later than the
first one after the time allowed; else that one ends it. -/
theorem outage_law (pace : Pace) (hi : 0 < pace.interval) (length : Nat) (detail : String)
    (version : Version) :
    let w := outage pace length detail version
    let down := length ⌈/⌉ pace.rest
    let most := pace.maxWait ⌈/⌉ pace.rest
    course? w.pace w.react w.env = some (
      if down ≤ most then
        ⟨.finished (.ok ()), pace.rest * down, (List.range (down + 1)).map (pace.rest * ·)⟩
      else
        ⟨.finished (.error (.timeout (pace.rest * most))), pace.rest * most,
          (List.range (most + 1)).map (pace.rest * ·)⟩) := by
  intro w down most
  have hfuel : min down most < mostRequests pace :=
    Nat.lt_of_le_of_lt (Nat.min_le_right _ _) (Pace.ceilDiv_lt_mostRequests hi)
  have hbefore := verdict?_eq_none length detail version hi
  have hcalls : w.madeAt = (pace.rest * ·) := funext (madeAt_eq pace length detail version)
  have hover : ∀ k, w.overAt k = pace.rest * k := fun k =>
    (overAt_eq_madeAt pace length detail version k).trans (madeAt_eq pace length detail version k)
  by_cases hle : down ≤ most
  · rw [Nat.min_eq_left hle] at hfuel
    have hafter : length ≤ pace.rest * down := le_smul_ceilDiv (Pace.rest_pos hi)
    have hverdict : w.verdict? down = some (.ok ()) := by rw [verdict?_eq, if_pos hafter]
    rw [if_pos hle, Wait.course?_eq (stands pace length detail version) hverdict ?_ hfuel, hcalls, hover]
    rwa [Nat.min_eq_left hle] at hbefore
  · have hlt := Nat.lt_of_not_le hle
    rw [Nat.min_eq_right (Nat.le_of_lt hlt)] at hfuel hbefore
    have hduring := Nat.not_le_of_lt (mul_rest_lt hi hlt)
    have hlate : pace.maxWait ≤ pace.rest * most := le_smul_ceilDiv (Pace.rest_pos hi)
    have hverdict : w.verdict? most = some (.error (.timeout (pace.rest * most))) := by
      rw [verdict?_eq, if_neg hduring, if_pos hlate]
    rw [if_neg hle, Wait.course?_eq (stands pace length detail version) hverdict hbefore hfuel, hcalls, hover]

/-- An outage that ends between two requests, after the time allowed but before the last request. -/
theorem outage_law_between_requests :
    0 < (Pace.mk 500 1200).interval ∧
    course? ⟨500, 1200⟩ (outage ⟨500, 1200⟩ 1300 "down" ⟨"v1", true⟩).react () =
      some ⟨.finished (.ok ()), 1500, [0, 500, 1000, 1500]⟩ := by
  have hi : 0 < (Pace.mk 500 1200).interval := by decide
  exact ⟨hi, outage_law ⟨500, 1200⟩ hi 1300 "down" ⟨"v1", true⟩⟩

/-- An interval of more than thirty years is not kept: the core is reached before it is over. -/
theorem outage_ends_within_interval :
    let pace : Pace := ⟨1000000000000, 1000000000000⟩
    let w := outage pace 20 "down" ⟨"v1", true⟩
    20 ⌈/⌉ pace.interval ≤ pace.maxWait ⌈/⌉ pace.interval ∧
      course? w.pace w.react w.env = some ⟨.finished (.ok ()), 946080000000, [0, 946080000000]⟩ ∧
      946080000000 ≠ pace.interval * (20 ⌈/⌉ pace.interval) := by
  exact ⟨by decide, rfl, by decide⟩

end Outage

end CoreWarden.Probe
