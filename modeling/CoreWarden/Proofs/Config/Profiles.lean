import CoreWarden.Config.Basic
import CoreWarden.ProfileStore
import Mathlib.Data.List.Induction
import Mathlib.Data.List.Nodup

/-!
Valid lists of profiles, and the stores that are built from them. A configuration is turned away for the
first profile whose id is empty or stands before it, or else for an unknown profile to begin with. A store
never changes its list, and its current profile is the one that was set last, whichever handle it was set
by; what is not listed is refused and leaves everything as it was.
-/
namespace CoreWarden

namespace ProfileSettings

/-- Every id is written out, and none stands twice. -/
structure Distinct (items : List Profile) : Prop where
  ne_empty : ∀ p ∈ items, p.id ≠ ""
  nodup : (items.map Profile.id).Nodup

/-- The first profile of a list that keeps it from being `Distinct`. -/
inductive Repeats : List Profile → Fault → Prop
  | emptyId {before p after} (hb : Distinct before) (h : p.id = "") :
      Repeats (before ++ p :: after) .emptyId
  | repeatedId {before p after} (hb : Distinct before) (h : p.id ∈ before.map Profile.id) :
      Repeats (before ++ p :: after) (.repeatedId p.id)

/-- The profile to begin with, if there is one, is listed, and the list is good. -/
structure Sound (s : ProfileSettings) : Prop where
  distinct : Distinct s.items
  initial_mem : ∀ id, s.initial = some id → id ∈ s.items.map Profile.id

/-- What is wrong with a configuration; an unknown profile to begin with comes last. -/
inductive Offends (s : ProfileSettings) : Fault → Prop
  | item {fault} (h : Repeats s.items fault) : Offends s fault
  | initial {id} (hd : Distinct s.items) (hi : s.initial = some id) (h : id ∉ s.items.map Profile.id) :
      Offends s (.unknownInitial id)

variable {s : ProfileSettings} {items : List Profile} {fault : Fault}

theorem Distinct.snoc {p : Profile} (h : Distinct items) (hne : p.id ≠ "")
    (hnew : p.id ∉ items.map Profile.id) : Distinct (items ++ [p]) where
  ne_empty := by simpa [or_imp, forall_and, hne] using h.ne_empty
  nodup := by
    rw [List.map_append, List.nodup_append]
    refine ⟨h.nodup, List.nodup_singleton _, ?_⟩
    rintro id hid _ hp rfl
    exact hnew (List.mem_singleton.mp hp ▸ hid)

theorem Repeats.snoc (h : Repeats items fault) (p : Profile) : Repeats (items ++ [p]) fault := by
  cases h with
  | @emptyId before q after hb h =>
    have hlonger : Repeats (before ++ q :: (after ++ [p])) .emptyId := .emptyId hb h
    simpa using hlonger
  | @repeatedId before q after hb h =>
    have hlonger : Repeats (before ++ q :: (after ++ [p])) (.repeatedId q.id) := .repeatedId hb h
    simpa using hlonger

theorem distinct_or_repeats (items : List Profile) : Distinct items ∨ ∃ fault, Repeats items fault := by
  induction items using List.reverseRecOn with
  | nil => exact .inl ⟨by simp, List.nodup_nil⟩
  | append_singleton items p ih =>
    rcases ih with hd | ⟨fault, h⟩
    · by_cases hempty : p.id = ""
      · exact .inr ⟨_, .emptyId hd hempty⟩
      · by_cases hold : p.id ∈ items.map Profile.id
        · exact .inr ⟨_, .repeatedId hd hold⟩
        · exact .inl (hd.snoc hempty hold)
    · exact .inr ⟨fault, h.snoc p⟩

theorem checkIds_append {seen : List String} {rest : List Profile} (h : Distinct items)
    (hnew : ∀ p ∈ items, p.id ∉ seen) :
    checkIds seen (items ++ rest) = checkIds ((items.map Profile.id).reverse ++ seen) rest := by
  induction items generalizing seen with
  | nil => rfl
  | cons p items ih =>
    obtain ⟨hne, hnes⟩ := List.forall_mem_cons.mp h.ne_empty
    obtain ⟨hnot, hnots⟩ := List.forall_mem_cons.mp hnew
    obtain ⟨hfirst, hnodup⟩ := List.nodup_cons.mp h.nodup
    have hfresh : ∀ q ∈ items, q.id ∉ p.id :: seen := fun q hq hmem => by
      rcases List.mem_cons.mp hmem with heq | hmem
      · exact hfirst (heq ▸ List.mem_map_of_mem hq)
      · exact hnots q hq hmem
    rw [List.cons_append, checkIds, if_neg hne, if_neg hnot, ih ⟨hnes, hnodup⟩ hfresh]
    simp

theorem checkIds_of_distinct (h : Distinct items) : checkIds [] items = .ok () := by
  have hpassed : checkIds [] (items ++ []) = _ := checkIds_append h (by simp)
  rwa [List.append_nil] at hpassed

theorem checkIds_of_repeats (h : Repeats items fault) : checkIds [] items = .error fault := by
  cases h with
  | emptyId hb h => rw [checkIds_append hb (by simp), checkIds, if_pos h]
  | @repeatedId before p after hb h =>
    have hne : p.id ≠ "" := by
      obtain ⟨q, hq, heq⟩ := List.mem_map.mp h
      exact heq ▸ hb.ne_empty q hq
    rw [checkIds_append hb (by simp), checkIds, if_neg hne, if_pos (by simpa using h)]

theorem isListed_iff {id : String} : items.any (·.id == id) = true ↔ id ∈ items.map Profile.id := by
  simp

theorem validate_of_sound (h : s.Sound) : s.validate = .ok () := by
  rw [validate, checkIds_of_distinct h.distinct]
  change s.checkInitial = .ok ()
  unfold checkInitial
  split
  · rfl
  · next id hi => rw [if_pos (isListed_iff.mpr (h.initial_mem id hi))]

theorem validate_of_offends (h : s.Offends fault) : s.validate = .error fault := by
  cases h with
  | item h =>
    rw [validate, checkIds_of_repeats h]
    rfl
  | initial hd hi h =>
    rw [validate, checkIds_of_distinct hd]
    change s.checkInitial = _
    rw [checkInitial, hi]
    exact if_neg fun hany => h (isListed_iff.mp hany)

theorem sound_or_offends (s : ProfileSettings) : s.Sound ∨ ∃ fault, s.Offends fault := by
  rcases distinct_or_repeats s.items with hd | ⟨fault, h⟩
  · by_cases hinitial : ∀ id, s.initial = some id → id ∈ s.items.map Profile.id
    · exact .inl ⟨hd, hinitial⟩
    · push Not at hinitial
      obtain ⟨id, hi, hnot⟩ := hinitial
      exact .inr ⟨_, .initial hd hi hnot⟩
  · exact .inr ⟨fault, .item h⟩

theorem validate_eq_ok_iff : s.validate = .ok () ↔ s.Sound := by
  refine ⟨fun h => ?_, validate_of_sound⟩
  rcases s.sound_or_offends with hs | ⟨fault, hf⟩
  · exact hs
  · rw [validate_of_offends hf] at h
    cases h

theorem validate_eq_error_iff : s.validate = .error fault ↔ s.Offends fault := by
  refine ⟨fun h => ?_, validate_of_offends⟩
  rcases s.sound_or_offends with hs | ⟨fault', hf⟩
  · rw [validate_of_sound hs] at h
    cases h
  · rw [validate_of_offends hf] at h
    cases h
    exact hf

end ProfileSettings

namespace ProfileStores

/-- The profile that an operation makes current in a store: one that is set, successfully, by a handle of
this store. -/
def sets? (s : ProfileStores) (store : Nat) : Operation → Option String
  | .setCurrent handle id =>
    if s.handles[handle]? = some store ∧ s.answer? (.setCurrent handle id) = some (.ok ()) then some id
    else none
  | _ => none

def setsOf (s : ProfileStores) (store : Nat) : List Operation → List String
  | [] => []
  | op :: ops => (s.sets? store op).toList ++ (s.apply op).setsOf store ops

variable {s : ProfileStores} {store handle : Nat} {l : ProfileList} {id : String}

theorem run_cons (s : ProfileStores) (op : Operation) (ops : List Operation) :
    s.run (op :: ops) = (s.apply op).run ops := rfl

theorem list?_of_handle (hh : s.handles[handle]? = some store) (hl : s.lists[store]? = some l) :
    s.list? handle = some l := by
  rw [list?, hh]
  exact hl

theorem answer?_of_handle (hh : s.handles[handle]? = some store) (hl : s.lists[store]? = some l) :
    s.answer? (.setCurrent handle id) = some ((l.setCurrent id).map fun _ => ()) := by
  rw [answer?, list?_of_handle hh hl]
  rfl

theorem handles_apply (h : s.handles[handle]? = some store) (op : Operation) :
    (s.apply op).handles[handle]? = some store := by
  have hlt : handle < s.handles.length := (List.getElem?_eq_some_iff.mp h).1
  cases op with
  | build | clone => rw [apply, List.getElem?_append_left hlt, h]
  | setCurrent =>
    rw [apply]
    split <;> exact h

theorem handles_run (h : s.handles[handle]? = some store) (ops : List Operation) :
    (s.run ops).handles[handle]? = some store := by
  induction ops generalizing s with
  | nil => exact h
  | cons op ops ih => exact ih (handles_apply h op)

theorem lists_apply (h : s.lists[store]? = some l) (op : Operation) :
    (s.apply op).lists[store]? = some { l with current := (s.sets? store op).or l.current } := by
  have hlt : store < s.lists.length := (List.getElem?_eq_some_iff.mp h).1
  cases op with
  | build =>
    rw [apply, List.getElem?_append_left hlt, h]
    rfl
  | clone => exact h
  | setCurrent handle id =>
    cases hh : s.handles[handle]? with
    | none => simp [apply, sets?, hh, h]
    | some other =>
      by_cases hsame : other = store
      · subst hsame
        have hanswer : s.answer? (.setCurrent handle id) = _ := answer?_of_handle hh h
        by_cases hlisted : l.contains id <;>
          simp [apply, sets?, hh, h, hanswer, ProfileList.setCurrent, hlisted, Except.map, Except.toOption]
      · simp [apply, sets?, hh, h, hsame]

theorem lists_run (h : s.lists[store]? = some l) (ops : List Operation) :
    (s.run ops).lists[store]? =
      some { l with current := (s.setsOf store ops).getLast?.or l.current } := by
  induction ops generalizing s l with
  | nil => exact h
  | cons op ops ih =>
    rw [run_cons, ih (lists_apply h op), setsOf]
    cases s.sets? store op with
    | none => rfl
    | some id =>
      cases hlast : ((s.apply op).setsOf store ops).getLast? <;> simp [List.getLast?_cons, hlast]

theorem listed_of_setsOf (h : s.lists[store]? = some l) {ops : List Operation} :
    ∀ id ∈ s.setsOf store ops, l.contains id = true := by
  induction ops generalizing s l with
  | nil => exact nofun
  | cons op ops ih =>
    intro id hid
    rcases List.mem_append.mp hid with hid | hid
    · cases op with
      | build | clone => cases hid
      | setCurrent handle id' =>
        by_cases hset : s.handles[handle]? = some store ∧ s.answer? (.setCurrent handle id') = some (.ok ())
        · rw [sets?, if_pos hset] at hid
          obtain rfl := List.mem_singleton.mp hid
          have hanswer := hset.2
          rw [answer?_of_handle hset.1 h] at hanswer
          by_contra hnot
          simp [ProfileList.setCurrent, hnot, Except.map] at hanswer
        · rw [sets?, if_neg hset] at hid
          cases hid
    · exact ih (lists_apply h op) id hid

theorem apply_of_not_listed (hh : s.handles[handle]? = some store) (hl : s.lists[store]? = some l)
    (hnot : l.contains id = false) :
    s.answer? (.setCurrent handle id) = some (.error (.notFound ("配置档案 " ++ id))) ∧
      s.apply (.setCurrent handle id) = s := by
  refine ⟨by simp [answer?_of_handle hh hl, ProfileList.setCurrent, hnot, Except.map], ?_⟩
  have hlists : (s.lists.modify store fun l => (l.setCurrent id).toOption.getD l) = s.lists := by
    refine List.ext_getElem? fun other => ?_
    rw [List.getElem?_modify]
    split
    · next hsame =>
      subst hsame
      simp [hl, ProfileList.setCurrent, hnot, Except.toOption]
    · simp
  rw [apply, hh]
  simp only [hlists]

theorem apply_of_listed (hh : s.handles[handle]? = some store) (hl : s.lists[store]? = some l)
    (hlisted : l.contains id = true) :
    s.answer? (.setCurrent handle id) = some (.ok ()) ∧
      (s.apply (.setCurrent handle id)).lists[store]? = some { l with current := some id } := by
  have hanswer : s.answer? (.setCurrent handle id) = some (.ok ()) := by
    simp [answer?_of_handle hh hl, ProfileList.setCurrent, hlisted, Except.map]
  have hsets : s.sets? store (.setCurrent handle id) = some id := if_pos ⟨hh, hanswer⟩
  refine ⟨hanswer, ?_⟩
  rw [lists_apply hl, hsets]
  rfl

end ProfileStores

namespace ProfileSettings

open ProfileStores (setsOf)

/-- A configuration is accepted if its ids are written out, none stands twice, and the profile to begin
with is listed; otherwise the first offence is reported. Whatever is done then with a store that is built
from it, by its first handle and by clones: each of its handles shows the same items as ever, and the
profile that was set last with success, or the one to begin with, and no other than a listed one. A listed
profile is set, as all handles show; another one is refused and changes nothing. -/
theorem valid_profiles_keep_integrity (s : ProfileSettings) :
    (s.validate = .ok () ↔ s.Sound) ∧
    (∀ fault, s.validate = .error fault ↔ s.Offends fault) ∧
    (s.validate = .ok () → ∀ (others : ProfileStores) (ops : List ProfileStores.Operation),
      let store := others.lists.length
      let built := others.apply (.build s.store)
      let after := built.run ops
      after.handles[others.handles.length]? = some store ∧
      ∀ handle, after.handles[handle]? = some store →
        (after.apply (.clone handle)).handles[after.handles.length]? = some store ∧
        ∃ current, after.list? handle = some ⟨current, s.items⟩ ∧
          current = (built.setsOf store ops).getLast?.or s.initial ∧
          (∀ id, current = some id → (s.items.map Profile.id).count id = 1) ∧
          ∀ id, let call := .setCurrent handle id
            (id ∈ s.items.map Profile.id → after.answer? call = some (.ok ()) ∧
              ∀ handle', after.handles[handle']? = some store →
                (after.apply call).list? handle' = some ⟨some id, s.items⟩) ∧
            (id ∉ s.items.map Profile.id →
              after.answer? call = some (.error (.notFound ("配置档案 " ++ id))) ∧
              after.apply call = after)) := by
  refine ⟨validate_eq_ok_iff, fun fault => validate_eq_error_iff, fun hv others ops => ?_⟩
  intro store built after
  have hs := validate_eq_ok_iff.mp hv
  have hbuilt : built.lists[store]? = some s.store := by
    simp [built, store, ProfileStores.apply]
  have hfirst : built.handles[others.handles.length]? = some store := by
    simp [built, store, ProfileStores.apply]
  have hlist := ProfileStores.lists_run hbuilt ops
  refine ⟨ProfileStores.handles_run hfirst ops, fun handle hh => ⟨?_, ?_⟩⟩
  · rw [ProfileStores.apply, hh]
    simp
  · refine ⟨_, ProfileStores.list?_of_handle hh hlist, rfl, fun id hid => ?_, fun id => ⟨fun hid => ?_, ?_⟩⟩
    · refine List.count_eq_one_of_mem hs.distinct.nodup ?_
      rcases Option.or_eq_some_iff.mp hid with hlast | ⟨-, hinitial⟩
      · exact isListed_iff.mp (ProfileStores.listed_of_setsOf hbuilt id (List.mem_of_getLast? hlast))
      · exact hs.initial_mem id hinitial
    · obtain ⟨hanswer, hset⟩ := ProfileStores.apply_of_listed hh hlist (isListed_iff.mpr hid)
      exact ⟨hanswer, fun handle' hh' =>
        ProfileStores.list?_of_handle (ProfileStores.handles_apply hh' _) hset⟩
    · intro hid
      exact ProfileStores.apply_of_not_listed hh hlist
        (Bool.eq_false_iff.mpr fun hlisted => hid (isListed_iff.mp hlisted))

def twoProfiles : ProfileSettings := ⟨some "a", [⟨"a", "A"⟩, ⟨"b", "B"⟩]⟩

/-- A clone sets the second profile and then an unknown one; the first handle shows the second one, and can
set the first one again. -/
theorem valid_profiles_keep_integrity_twoProfiles :
    let built := ProfileStores.empty.apply (.build twoProfiles.store)
    let after := built.run [.clone 0, .setCurrent 1 "b", .setCurrent 1 "ghost"]
    twoProfiles.validate = .ok () ∧ after.list? 0 = some ⟨some "b", twoProfiles.items⟩ ∧
      after.answer? (.setCurrent 1 "ghost") = some (.error (.notFound "配置档案 ghost")) ∧
      (after.apply (.setCurrent 0 "a")).list? 1 = some ⟨some "a", twoProfiles.items⟩ := by
  intro built after
  have hv : twoProfiles.validate = .ok () := by decide
  have hsets : built.setsOf 0 [.clone 0, .setCurrent 1 "b", .setCurrent 1 "ghost"] = ["b"] := by
    decide +kernel
  obtain ⟨hfirst, hhandles⟩ := (valid_profiles_keep_integrity twoProfiles).2.2 hv .empty
    [.clone 0, .setCurrent 1 "b", .setCurrent 1 "ghost"]
  have hclone : after.handles[1]? = some 0 := by decide +kernel
  obtain ⟨-, current, hlist, hcurrent, -, hcalls⟩ := hhandles 0 hfirst
  obtain ⟨-, -, -, -, -, hclones⟩ := hhandles 1 hclone
  obtain rfl : current = some "b" := hcurrent.trans (congrArg (·.getLast?.or (some "a")) hsets)
  exact ⟨hv, hlist, ((hclones "ghost").2 (by decide)).1, ((hcalls "a").1 (by decide)).2 1 hclone⟩

end ProfileSettings

end CoreWarden
