import CoreWarden.Proofs.Json.Written
import Mathlib.Data.List.Nodup

/-!
Which values a text can mean: those whose numbers are in range, whose objects have every key once, and
which nest no deeper than there is room. Of these, the ones without floats are what is meant by the text
that they are written as.
-/
namespace CoreWarden.Json

namespace Value

/-- A value that a text can mean, within `room` levels of nesting. -/
inductive Fits : Nat → Value → Prop
  | null {room} : Fits room .null
  | bool {room} (b) : Fits room (.bool b)
  | number {room n} (h : n.InRange) : Fits room (.number n)
  | string {room} (s) : Fits room (.string s)
  | array {room items} (h : ∀ v ∈ items, Fits room v) : Fits (room + 1) (.array items)
  | object {room members} (hk : (members.map Prod.fst).Nodup) (h : ∀ m ∈ members, Fits room m.2) :
      Fits (room + 1) (.object members)

/-! ### Members under their keys -/

variable {α : Type}

theorem put_of_not_mem {key : String} {members : List (String × α)} (value : α)
    (h : key ∉ members.map Prod.fst) : put key value members = members ++ [(key, value)] := by
  induction members with
  | nil => rfl
  | cons m members ih =>
    rw [List.map_cons, List.mem_cons, not_or] at h
    rw [put, if_neg (Ne.symm h.1), ih h.2, List.cons_append]

theorem not_mem_of_nodup {found members : List (String × α)} {m : String × α}
    (h : ((found ++ m :: members).map Prod.fst).Nodup) : m.1 ∉ found.map Prod.fst := by
  rw [List.map_append, List.nodup_append] at h
  exact fun hm => h.2.2 m.1 hm m.1 List.mem_cons_self rfl

theorem keys_put (key : String) (value : α) (members : List (String × α)) :
    (put key value members).map Prod.fst =
      if key ∈ members.map Prod.fst then members.map Prod.fst else members.map Prod.fst ++ [key] := by
  induction members with
  | nil => simp [put]
  | cons m members ih =>
    by_cases hm : m.1 = key
    · simp [put, hm]
    · have hne : key ≠ m.1 := Ne.symm hm
      rw [put, if_neg hm, List.map_cons, ih]
      by_cases hk : key ∈ members.map Prod.fst <;> simp [hk, hne]

theorem nodup_put {key : String} {value : α} {members : List (String × α)}
    (h : (members.map Prod.fst).Nodup) : ((put key value members).map Prod.fst).Nodup := by
  rw [keys_put]
  split
  · exact h
  · next hk => exact List.Nodup.append h (by simp) (by simpa using hk)

theorem mem_put {key : String} {value : α} {members : List (String × α)} {m : String × α}
    (h : m ∈ put key value members) : m = (key, value) ∨ m ∈ members := by
  induction members with
  | nil => simpa [put] using h
  | cons m' members ih =>
    rw [put] at h
    split at h
    · next hk =>
      rcases List.mem_cons.mp h with rfl | h
      · exact .inl (by rw [← hk])
      · exact .inr (List.mem_cons_of_mem _ h)
    · rcases List.mem_cons.mp h with rfl | h
      · exact .inr List.mem_cons_self
      · exact (ih h).imp_right (List.mem_cons_of_mem _)

end Value

namespace Numeral

theorem takeWhole_lt {n : Nat} (h : n < limit) (ds : List Nat) : (takeWhole n ds).significand < limit := by
  induction ds generalizing n with
  | nil => exact h
  | cons d ds ih =>
    rw [takeWhole]
    split
    · next hlt => exact ih hlt
    · exact h

theorem inRange_of_number? {n : Numeral} {number : Number} (h : n.number? = some number) :
    number.InRange := by
  have hlt := takeWhole_lt (n := 0) (by decide) n.whole
  have hsigned : ∀ {scaled : Option Float} {negative : Bool},
      scaled.map (signed negative) = some number → number.InRange := by
    intro scaled negative h
    obtain ⟨f, -, rfl⟩ := Option.map_eq_some_iff.mp h
    exact trivial
  unfold number? at h
  dsimp only at h
  split at h
  · split at h
    · split at h
      · split at h
        · cases h
          exact trivial
        · next hmin =>
          cases h
          simp only [not_or, Nat.not_lt] at hmin
          exact ⟨by omega, by omega⟩
      · cases h
        rw [limit] at hlt
        exact ⟨by omega, by omega⟩
    · exact hsigned h
  · split at h
    · exact hsigned h
    · split at h
      · exact hsigned h
      · split at h
        · cases h
        · cases h
          exact trivial

end Numeral

namespace Tree

theorem itemMeanings?_ofItems {room : Nat} {items : List Value}
    (h : ∀ v ∈ items, meaning? room (ofValue v) = some v) :
    itemMeanings? room (ofItems items) = some items := by
  induction items with
  | nil => rfl
  | cons item items ih =>
    obtain ⟨hitem, hitems⟩ := List.forall_mem_cons.mp h
    simp [ofItems, itemMeanings?, hitem, ih hitems]

theorem memberMeanings?_ofMembers {room : Nat} (found : List (String × Value))
    {members : List (String × Value)} (hk : ((found ++ members).map Prod.fst).Nodup)
    (h : ∀ m ∈ members, meaning? room (ofValue m.2) = some m.2) :
    memberMeanings? room found (ofMembers members) = some (found ++ members) := by
  induction members generalizing found with
  | nil => simp [ofMembers, memberMeanings?]
  | cons m members ih =>
    obtain ⟨key, value⟩ := m
    obtain ⟨hvalue, hmembers⟩ : meaning? room (ofValue value) = some value ∧
        ∀ m ∈ members, meaning? room (ofValue m.2) = some m.2 := List.forall_mem_cons.mp h
    have hput := Value.put_of_not_mem value (Value.not_mem_of_nodup hk)
    have hrest := ih (found ++ [(key, value)]) (by simpa using hk) hmembers
    simp [ofMembers, memberMeanings?, Piece.text?_map_char, hvalue, hput, hrest]

theorem meaning?_ofValue {room : Nat} {v : Value} (hf : v.Fits room) (hi : v.Integral) :
    meaning? room (ofValue v) = some v := by
  induction hf with
  | null => simp [ofValue, meaning?]
  | bool b => simp [ofValue, meaning?]
  | string s => simp [ofValue, meaning?, Piece.text?_map_char]
  | number h =>
    cases hi with
    | int i => simp [ofValue, meaning?, Numeral.number?_ofInt h]
  | array h ih =>
    cases hi with
    | array hi =>
      rw [ofValue, meaning?, itemMeanings?_ofItems fun v hv => ih v hv (hi v hv)]
      rfl
  | object hk h ih =>
    cases hi with
    | object hi =>
      rw [ofValue, meaning?, memberMeanings?_ofMembers [] hk fun m hm => ih m hm (hi m hm)]
      rfl

mutual

theorem fits_of_meaning? (room : Nat) : ∀ (tree : Tree) (v : Value), meaning? room tree = some v →
    v.Fits room
  | .null, v, h => by
    cases h
    exact .null
  | .bool b, v, h => by
    cases h
    exact .bool b
  | .number n, v, h => by
    obtain ⟨number, hnumber, rfl⟩ := Option.map_eq_some_iff.mp h
    exact .number (Numeral.inRange_of_number? hnumber)
  | .string pieces, v, h => by
    obtain ⟨s, -, rfl⟩ := Option.map_eq_some_iff.mp h
    exact .string _
  | .array items, v, h => by
    cases room with
    | zero => cases h
    | succ room =>
      obtain ⟨values, hvalues, rfl⟩ := Option.map_eq_some_iff.mp h
      exact .array (fits_of_itemMeanings? room items values hvalues)
  | .object members, v, h => by
    cases room with
    | zero => cases h
    | succ room =>
      obtain ⟨values, hvalues, rfl⟩ := Option.map_eq_some_iff.mp h
      obtain ⟨hk, hv⟩ := fits_of_memberMeanings? room members [] values (by simp) (by simp) hvalues
      exact .object hk hv

theorem fits_of_itemMeanings? (room : Nat) : ∀ (items : List Tree) (values : List Value),
    itemMeanings? room items = some values → ∀ v ∈ values, v.Fits room
  | [], values, h => by
    cases h
    simp
  | item :: items, values, h => by
    rw [itemMeanings?] at h
    obtain ⟨value, hvalue, h⟩ := Option.bind_eq_some_iff.mp h
    obtain ⟨rest, hrest, h⟩ := Option.bind_eq_some_iff.mp h
    cases h
    exact List.forall_mem_cons.mpr ⟨fits_of_meaning? room item value hvalue,
      fits_of_itemMeanings? room items rest hrest⟩

theorem fits_of_memberMeanings? (room : Nat) : ∀ (members : List (List Piece × Tree))
    (found values : List (String × Value)), (found.map Prod.fst).Nodup →
      (∀ m ∈ found, m.2.Fits room) → memberMeanings? room found members = some values →
        (values.map Prod.fst).Nodup ∧ ∀ m ∈ values, m.2.Fits room
  | [], found, values, hk, hf, h => by
    cases h
    exact ⟨hk, hf⟩
  | (key, tree) :: members, found, values, hk, hf, h => by
    rw [memberMeanings?] at h
    obtain ⟨text, -, h⟩ := Option.bind_eq_some_iff.mp h
    obtain ⟨value, hvalue, h⟩ := Option.bind_eq_some_iff.mp h
    refine fits_of_memberMeanings? room members _ values (Value.nodup_put hk) ?_ h
    intro m hm
    rcases Value.mem_put hm with rfl | hm
    · exact fits_of_meaning? room tree value hvalue
    · exact hf m hm

end

end Tree

end CoreWarden.Json
