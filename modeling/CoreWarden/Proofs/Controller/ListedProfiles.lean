import CoreWarden.Proofs.Config.Profiles
import CoreWarden.Proofs.Controller.Admission
import CoreWarden.Proofs.Controller.Refusal
import Mathlib.Data.List.DropRight

/-!
Switching to the profiles of a configuration that was accepted. A configuration may list an id with a blank
at an end, and such a profile cannot be switched to, whatever goes on. To every other one of its profiles a
switch is never turned down as a bad request, unless the core itself does so.
-/
namespace CoreWarden

namespace Text

/-- The first or the last character of a text is blank. -/
def HasBlankEnd (s : String) : Prop :=
  ∃ c, (s.toList.head? = some c ∨ s.toList.getLast? = some c) ∧ isBlank c = true

theorem trimStart_eq_self_iff {s : List Char} :
    trimStart s = s ↔ ∀ c, s.head? = some c → isBlank c = false := by
  rw [trimStart, List.dropWhile_eq_self_iff]
  cases s <;> simp

theorem trimEnd_eq_self_iff {s : List Char} :
    trimEnd s = s ↔ ∀ c, s.getLast? = some c → isBlank c = false := by
  rw [← List.head?_reverse, ← trimStart_eq_self_iff, trimEnd, List.reverse_eq_iff]
  rfl

theorem trim_eq_self_iff {s : List Char} : trim s = s ↔ trimStart s = s ∧ trimEnd s = s := by
  constructor
  · intro h
    have hend : (trim s).length ≤ (trimStart s).length := by
      simpa [trim, trimEnd] using (List.dropWhile_suffix (l := (trimStart s).reverse) isBlank).length_le
    rw [h] at hend
    have hstart : trimStart s = s := (List.dropWhile_suffix _).eq_of_length_le hend
    exact ⟨hstart, by rwa [trim, hstart] at h⟩
  · rintro ⟨hstart, hend⟩
    rw [trim, hstart, hend]

theorem isTrimmed_eq_false_iff {s : String} : isTrimmed s = false ↔ HasBlankEnd s := by
  rw [← Bool.not_eq_true, isTrimmed, beq_iff_eq, trim_eq_self_iff, trimStart_eq_self_iff,
    trimEnd_eq_self_iff, HasBlankEnd]
  constructor
  · intro h
    by_contra hnone
    push Not at hnone
    exact h ⟨fun c hc => Bool.eq_false_iff.mpr (hnone c (.inl hc)),
      fun c hc => Bool.eq_false_iff.mpr (hnone c (.inr hc))⟩
  · rintro ⟨c, hc | hc, hblank⟩ ⟨hstart, hend⟩
    · rw [hstart c hc] at hblank
      cases hblank
    · rw [hend c hc] at hblank
      cases hblank

end Text

theorem exists_of_bind_eq_ok {ε β γ : Type} {x : Except ε β} {f : β → Except ε γ} {c : γ}
    (h : x >>= f = .ok c) : ∃ b, x = .ok b ∧ f b = .ok c := by
  cases x with
  | error => cases h
  | ok b => exact ⟨b, rfl, h⟩

theorem Config.profiles_of_validate {config : Config} (h : config.validate = .ok ()) :
    config.profiles.Sound := by
  rw [validate] at h
  split at h
  · cases h
  · obtain ⟨-, -, hsections⟩ := exists_of_bind_eq_ok h
    obtain ⟨-, -, hprofiles⟩ := exists_of_bind_eq_ok hsections
    rw [← ProfileSettings.validate_eq_ok_iff]
    cases hp : config.profiles.validate with
    | ok => rfl
    | error =>
      rw [hp] at hprofiles
      cases hprofiles

namespace Switch

variable {id : String}

/-- The word of a switch to an id with a blank at an end. -/
def blankEnd : Error := .badRequest "配置ID不能包含首尾空白"

theorem idFault?_of_hasBlankEnd (hne : id ≠ "") (h : Text.HasBlankEnd id) : idFault? id = some blankEnd := by
  rw [idFault?, if_neg hne, Text.isTrimmed_eq_false_iff.mpr h]
  rfl

theorem idFault?_of_not_hasBlankEnd (hne : id ≠ "") (h : ¬ Text.HasBlankEnd id) : idFault? id = none := by
  have htrimmed : Text.isTrimmed id = true := by
    rwa [← Text.isTrimmed_eq_false_iff, Bool.not_eq_false] at h
  rw [idFault?, if_neg hne, if_pos htrimmed]

end Switch

theorem Turn.Rejects.number_eq {t : Turn} {n : Nat} {result : Result} (h : t.Rejects n result) :
    n = t.before.nextId := by
  obtain ⟨⟨call, he⟩, hm⟩ := h
  have htold := Controller.told_of_turn hm
  rw [he] at htold
  cases htold with
  | refused | exhausted | skipped => rfl
  | ended _ hears | concluded _ hears => cases hears

namespace Controller

theorem nextId_lt_step_switch (c : Controller) (id : String) :
    c.nextId < (c.step (.call (.switch id))).1.nextId := by
  change c.later.nextId < (c.later.startSwitch id).1.nextId
  fun_cases startSwitch c.later id <;> exact Nat.lt_succ_self _

/-- A switch to a good id is not turned down as a bad request when it is called. -/
theorem not_badRequest_of_idFault? {c : Controller} {id : String} (h : Switch.idFault? id = none) {n : Nat}
    {detail : String} :
    .ended n (.switch (.error (.badRequest detail))) ∉ (c.step (.call (.switch id))).2 := by
  rw [(c.takes_switch id).outputs, Call.admission, h]
  dsimp only
  split
  · simp [Admission.outputs]
  · split <;> simp [Admission.outputs]

/-- Of the profiles of a valid configuration those with a blank at an end of the id cannot be switched to:
every call is turned down as a bad request at once, also if the profile is the current one. A call of
`switch` to any other one of them is never turned down so; only if the core answers its order so is this
passed on. -/
theorem listed_profile_is_refused_iff (timings : Timings) (currentConfig : Option String) (es : List Event)
    {config : Config} (hv : config.validate = .ok ()) {p : Profile} (hp : p ∈ config.profiles.items) :
    let c := ((initial timings currentConfig).run es).1
    let entry : Turn := ⟨c, .call (.switch p.id)⟩
    (Text.HasBlankEnd p.id → entry.outputs = [.ended c.nextId (.switch (.error Switch.blankEnd))]) ∧
    (¬ Text.HasBlankEnd p.id →
      (∀ n detail, .ended n (.switch (.error (.badRequest detail))) ∉ entry.outputs) ∧
      ∀ es' e detail, let t : Turn := ⟨(entry.after.run es').1, e⟩
        .ended c.nextId (.switch (.error (.badRequest detail))) ∈ t.outputs →
          PassedOn ((initial timings currentConfig).turns (es ++ entry.event :: es' ++ [e])) c.nextId
            (.switch (.error (.badRequest detail)))) := by
  intro c entry
  have hne : p.id ≠ "" := (Config.profiles_of_validate hv).distinct.ne_empty p hp
  constructor
  · intro hblank
    have htakes := (c.takes_switch p.id).outputs
    rw [Call.admission, Switch.idFault?_of_hasBlankEnd hne hblank] at htakes
    exact htakes
  · intro hgood
    have hfault := Switch.idFault?_of_not_hasBlankEnd hne hgood
    refine ⟨fun n detail => not_badRequest_of_idFault? hfault, ?_⟩
    intro es' e detail t hm
    have hbefore : t.before = ((initial timings currentConfig).run (es ++ entry.event :: es')).1 := by
      rw [run_append]
      rfl
    obtain ⟨-, hreported⟩ := reported_run timings currentConfig (es ++ entry.event :: es')
    rw [← hbefore] at hreported
    rw [turns_snoc, ← hbefore]
    rcases t.rejects_or_passedOn hreported hm rfl with hrejects | hpassed
    · have hnumber := hrejects.number_eq
      have hlt : c.nextId < entry.after.nextId := nextId_lt_step_switch c p.id
      have hle : entry.after.nextId ≤ t.before.nextId :=
        (turns_trans (R := fun c c' => c.nextId ≤ c'.nextId) (fun _ => Nat.le_refl _) Nat.le_trans
          fun u _ => nextId_le_of_turn u).1
      omega
    · exact hpassed

/-- A configuration that lists an id with blanks around it, and the same id without them. -/
def spelledTwice : Config := { profiles := ⟨some "a", [⟨"a", "A"⟩, ⟨" b ", "B"⟩, ⟨"b", "B"⟩]⟩ }

/-- The configuration is accepted, and one of its profiles is turned down, even where it is the current
one. -/
theorem listed_profile_is_turned_down :
    spelledTwice.validate = .ok () ∧ ⟨" b ", "B"⟩ ∈ spelledTwice.profiles.items ∧
      ((initial .standard (some "a")).step (.call (.switch " b "))).2 =
        [.ended 0 (.switch (.error Switch.blankEnd))] ∧
      ((initial .standard (some " b ")).step (.call (.switch " b "))).2 =
        [.ended 0 (.switch (.error Switch.blankEnd))] :=
  ⟨by decide +kernel, by decide, rfl, rfl⟩

/-- The id with blanks around it is turned down at once; the other one only as the core answers. -/
theorem listed_profile_is_refused_iff_spelledTwice :
    let c := ((initial .standard (some "a")).run []).1
    let entry : String → Turn := fun id => ⟨c, .call (.switch id)⟩
    let es : List Event := [.answer 0 0 (.status (.error .notConfigured)),
      .answer 0 0 (.switch (.error (.badRequest "no")))]
    let e : Event := .answer 0 0 (.status (.error .notConfigured))
    let told : Result := .switch (.error (.badRequest "no"))
    spelledTwice.validate = .ok () ∧ ⟨" b ", "B"⟩ ∈ spelledTwice.profiles.items ∧
      ⟨"b", "B"⟩ ∈ spelledTwice.profiles.items ∧ Text.HasBlankEnd " b " ∧
      (entry " b ").outputs = [.ended 0 (.switch (.error Switch.blankEnd))] ∧ ¬ Text.HasBlankEnd "b" ∧
      .ended 0 told ∈ (Turn.mk ((entry "b").after.run es).1 e).outputs ∧
      PassedOn ((initial .standard (some "a")).turns (.call (.switch "b") :: es ++ [e])) 0 told := by
  intro c entry es e told
  have hv : spelledTwice.validate = .ok () := by decide +kernel
  have hblank : Text.HasBlankEnd " b " := ⟨' ', .inl (by decide), by decide⟩
  have hgood : ¬ Text.HasBlankEnd "b" := by
    rw [← Text.isTrimmed_eq_false_iff]
    decide +kernel
  have htold : .ended 0 told ∈ (Turn.mk ((entry "b").after.run es).1 e).outputs := by
    rw [show (Turn.mk ((entry "b").after.run es).1 e).outputs = [.ended 0 told] from rfl]
    exact List.mem_singleton.mpr rfl
  have hspaced : ⟨" b ", "B"⟩ ∈ spelledTwice.profiles.items := by decide
  have hplain : ⟨"b", "B"⟩ ∈ spelledTwice.profiles.items := by decide
  obtain ⟨hrefused, -⟩ := listed_profile_is_refused_iff .standard (some "a") [] hv hspaced
  obtain ⟨-, hpassed⟩ := listed_profile_is_refused_iff .standard (some "a") [] hv hplain
  exact ⟨hv, hspaced, hplain, hblank, hrefused hblank, hgood, htold, (hpassed hgood).2 es e "no" htold⟩

end Controller

end CoreWarden
