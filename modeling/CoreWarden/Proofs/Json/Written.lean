import CoreWarden.Proofs.Json.Digits
import CoreWarden.Proofs.Json.Strings

/-!
Values written as text and read again as trees. Floats are left out: what is read of them need not be
what was written.
-/
namespace CoreWarden.Json

namespace Value

inductive Integral : Value → Prop
  | null : Integral .null
  | bool (b) : Integral (.bool b)
  | int (i) : Integral (.number (.int i))
  | string (s) : Integral (.string s)
  | array {items} (h : ∀ v ∈ items, Integral v) : Integral (.array items)
  | object {members} (h : ∀ m ∈ members, Integral m.2) : Integral (.object members)

end Value

namespace Tree

mutual

def ofValue : Value → Tree
  | .null | .number (.float _) => .null
  | .bool b => .bool b
  | .number (.int i) => .number (.ofInt i)
  | .string s => .string (s.toList.map .char)
  | .array items => .array (ofItems items)
  | .object members => .object (ofMembers members)

def ofItems : List Value → List Tree
  | [] => []
  | item :: items => ofValue item :: ofItems items

def ofMembers : List (String × Value) → List (List Piece × Tree)
  | [] => []
  | (key, value) :: members => (key.toList.map .char, ofValue value) :: ofMembers members

end

theorem ofItems_eq_map (items : List Value) : ofItems items = items.map ofValue := by
  induction items with
  | nil => simp [ofItems]
  | cons item items ih => simp [ofItems, ih]

/-! ### The front of what is written -/

def IsNumeric (c : Char) : Prop := c = '-' ∨ c.isDigit = true

theorem IsNumeric.ne {c d : Char} (h : IsNumeric c) (hm : d ≠ '-') (hd : d.isDigit = false) : c ≠ d := by
  rintro rfl
  rcases h with rfl | h
  · exact hm rfl
  · rw [hd] at h
    cases h

theorem IsNumeric.isSpace {c : Char} (h : IsNumeric c) : isSpace c = false := by
  have hne : c ≠ ' ' ∧ c ≠ '\n' ∧ c ≠ '\t' ∧ c ≠ '\r' :=
    ⟨h.ne (by decide) rfl, h.ne (by decide) rfl, h.ne (by decide) rfl, h.ne (by decide) rfl⟩
  simp [Json.isSpace, hne]

theorem front_of_int (i : Int) : ∃ c tail, (Number.int i).write = c :: tail ∧ IsNumeric c := by
  by_cases hi : i < 0
  · exact ⟨'-', _, if_pos hi, .inl rfl⟩
  · have hwrite : (Number.int i).write = Nat.toDigits 10 i.natAbs := if_neg hi
    cases hds : Nat.toDigits 10 i.natAbs with
    | nil => exact absurd hds Nat.toDigits_ne_nil
    | cons c ds => exact ⟨c, ds, hwrite.trans hds, .inr (isDigit_of_mem_toDigits (hds ▸ List.mem_cons_self))⟩

theorem front_of_write {v : Value} (h : v.Integral) :
    ∃ c tail, v.write = c :: tail ∧ isSpace c = false ∧ c ≠ ']' := by
  cases h with
  | null => exact ⟨_, _, rfl, rfl, by decide⟩
  | bool b => cases b <;> exact ⟨_, _, rfl, rfl, by decide⟩
  | string => exact ⟨_, _, rfl, rfl, by decide⟩
  | array => exact ⟨_, _, by rw [Value.write], rfl, by decide⟩
  | object => exact ⟨_, _, by rw [Value.write], rfl, by decide⟩
  | int i =>
    obtain ⟨c, tail, hwrite, hc⟩ := front_of_int i
    exact ⟨c, tail, by rw [Value.write, hwrite], hc.isSpace, hc.ne (by decide) rfl⟩

theorem skipSpace_cons {c : Char} (h : isSpace c = false) (s : List Char) :
    skipSpace (c :: s) = c :: s := by
  simp [skipSpace, h]

/-! ### Reading what is written -/

/-- What is written of a value is read as its tree, however the text goes on. -/
def Reads (v : Value) : Prop := ∀ fuel rest, 2 * v.write.length ≤ fuel → Numeral.Closed rest →
  value? fuel (v.write ++ rest) = some (ofValue v, rest)

theorem reads_of_succ {v : Value} (hv : v.Integral) (h : ∀ fuel rest, 2 * v.write.length ≤ fuel + 1 →
    Numeral.Closed rest → value? (fuel + 1) (v.write ++ rest) = some (ofValue v, rest)) : Reads v := by
  intro fuel rest hfuel hrest
  obtain ⟨c, tail, hwrite, -⟩ := front_of_write hv
  cases fuel with
  | zero => simp [hwrite] at hfuel
  | succ fuel => exact h fuel rest hfuel hrest

theorem value?_number {c : Char} (hc : IsNumeric c) (fuel : Nat) (s : List Char) :
    value? (fuel + 1) (c :: s) =
      (Numeral.read? (c :: s)).map fun (numeral, rest) => (.number numeral, rest) := by
  rw [value?, skipSpace_cons hc.isSpace]
  split
  case h_1 heq => cases heq
  case h_8 heq => cases heq; rfl
  all_goals
    next heq => exact absurd (List.cons.inj heq).1 (hc.ne (by decide) rfl)

theorem reads_int (i : Int) : Reads (.number (.int i)) := by
  refine reads_of_succ (.int i) fun fuel rest _ hrest => ?_
  obtain ⟨c, tail, hwrite, hc⟩ := front_of_int i
  have hread := Numeral.read?_write i hrest
  rw [Value.write, ofValue]
  rw [hwrite, List.cons_append] at hread ⊢
  rw [value?_number hc, hread]
  rfl

theorem reads_string (s : String) : Reads (.string s) := by
  refine reads_of_succ (.string s) fun fuel rest _ _ => ?_
  have hread := Piece.read?_writeString s rest
  have hwrite : (Value.string s).write ++ rest = '"' :: (s.toList.flatMap writeChar ++ '"' :: rest) := by
    simp [Value.write, writeString]
  rw [hwrite, value?, skipSpace_cons rfl]
  simp only [hread, ofValue]
  rfl

theorem items?_write {items : List Value} (h : ∀ v ∈ items, Reads v) (hne : items ≠ []) (fuel : Nat)
    (rest : List Char) (hfuel : 2 * (Value.writeItems items).length ≤ fuel) :
    items? fuel (Value.writeItems items ++ rest) = some (ofItems items, rest) := by
  induction items generalizing fuel with
  | nil => exact absurd rfl hne
  | cons item items ih =>
    obtain ⟨hitem, hitems⟩ := List.forall_mem_cons.mp h
    cases items with
    | nil =>
      simp only [Value.writeItems, List.length_append, List.length_singleton] at hfuel
      obtain ⟨fuel, rfl⟩ : ∃ n, fuel = n + 1 := ⟨fuel - 1, by omega⟩
      have hread := hitem fuel (']' :: rest) (by omega) (Numeral.closed_cons (by simp))
      simp only [Value.writeItems, List.append_assoc, List.singleton_append, items?, hread]
      rfl
    | cons item' items =>
      simp only [Value.writeItems, List.length_append, List.length_cons] at hfuel
      obtain ⟨fuel, rfl⟩ : ∃ n, fuel = n + 1 := ⟨fuel - 1, by omega⟩
      have hrest := ih hitems (by simp) fuel (by omega)
      have hread := hitem fuel (',' :: (Value.writeItems (item' :: items) ++ rest)) (by omega)
        (Numeral.closed_cons (by simp))
      simp only [Value.writeItems, List.append_assoc, List.cons_append, items?, hread]
      have hcomma : ∀ s, skipSpace (',' :: s) = ',' :: s := fun s => rfl
      simp only [Option.bind_eq_bind, Option.bind_some, hcomma, hrest]
      rfl

theorem members?_write {members : List (String × Value)} (h : ∀ m ∈ members, Reads m.2)
    (hne : members ≠ []) (fuel : Nat) (rest : List Char)
    (hfuel : 2 * (Value.writeMembers members).length ≤ fuel) :
    members? fuel (Value.writeMembers members ++ rest) = some (ofMembers members, rest) := by
  have hquote : ∀ s, skipSpace ('"' :: s) = '"' :: s := fun s => rfl
  have hcolon : ∀ s, skipSpace (':' :: s) = ':' :: s := fun s => rfl
  have hcomma : ∀ s, skipSpace (',' :: s) = ',' :: s := fun s => rfl
  induction members generalizing fuel with
  | nil => exact absurd rfl hne
  | cons m members ih =>
    obtain ⟨key, value⟩ := m
    obtain ⟨hvalue, hmembers⟩ : Reads value ∧ ∀ m ∈ members, Reads m.2 := List.forall_mem_cons.mp h
    cases members with
    | nil =>
      simp only [Value.writeMembers, writeString, List.length_append, List.length_cons] at hfuel
      obtain ⟨fuel, rfl⟩ : ∃ n, fuel = n + 1 := ⟨fuel - 1, by omega⟩
      have hread := hvalue fuel ('}' :: rest) (by omega) (Numeral.closed_cons (by simp))
      have hkey := Piece.read?_writeString key (':' :: (value.write ++ '}' :: rest))
      simp only [Value.writeMembers, writeString, List.append_assoc, List.cons_append,
        List.nil_append, members?, hquote, hkey, Option.bind_eq_bind, Option.bind_some, hcolon, hread]
      rfl
    | cons m' members =>
      simp only [Value.writeMembers, writeString, List.length_append, List.length_cons] at hfuel
      obtain ⟨fuel, rfl⟩ : ∃ n, fuel = n + 1 := ⟨fuel - 1, by omega⟩
      have hrest := ih hmembers (by simp) fuel (by omega)
      have hread := hvalue fuel (',' :: (Value.writeMembers (m' :: members) ++ rest)) (by omega)
        (Numeral.closed_cons (by simp))
      have hkey := Piece.read?_writeString key
        (':' :: (value.write ++ ',' :: (Value.writeMembers (m' :: members) ++ rest)))
      simp only [Value.writeMembers, writeString, List.append_assoc, List.cons_append,
        List.nil_append, members?, hquote, hkey, Option.bind_eq_bind, Option.bind_some, hcolon, hread,
        hcomma, hrest]
      rfl

theorem front_of_writeItems {item : Value} (h : item.Integral) (items : List Value) :
    ∃ c tail, Value.writeItems (item :: items) = c :: tail ∧ isSpace c = false ∧ c ≠ ']' := by
  obtain ⟨c, tail, hwrite, hspace, hclose⟩ := front_of_write h
  cases items with
  | nil => exact ⟨c, _, by rw [Value.writeItems, hwrite, List.cons_append], hspace, hclose⟩
  | cons item' items =>
    refine ⟨c, tail ++ ',' :: Value.writeItems (item' :: items), ?_, hspace, hclose⟩
    simp [Value.writeItems, hwrite]

theorem reads_array {items : List Value} (hi : ∀ v ∈ items, v.Integral) (h : ∀ v ∈ items, Reads v) :
    Reads (.array items) := by
  refine reads_of_succ (.array hi) fun fuel rest hfuel _ => ?_
  simp only [Value.write, List.length_cons] at hfuel
  rw [Value.write, List.cons_append, value?, skipSpace_cons rfl]
  cases items with
  | nil => rfl
  | cons item items =>
    have hread := items?_write h (by simp) fuel rest (by omega)
    obtain ⟨c, tail, hwrite, hspace, hclose⟩ :=
      front_of_writeItems (hi item List.mem_cons_self) items
    rw [hwrite, List.cons_append] at hread ⊢
    simp only [skipSpace_cons hspace]
    split
    · next heq => exact absurd (List.cons.inj heq).1 hclose
    · rw [hread]
      rfl

theorem reads_object {members : List (String × Value)} (hi : ∀ m ∈ members, m.2.Integral)
    (h : ∀ m ∈ members, Reads m.2) : Reads (.object members) := by
  refine reads_of_succ (.object hi) fun fuel rest hfuel _ => ?_
  simp only [Value.write, List.length_cons] at hfuel
  rw [Value.write, List.cons_append, value?, skipSpace_cons rfl]
  cases members with
  | nil => rfl
  | cons m members =>
    have hread := members?_write h (by simp) fuel rest (by omega)
    have hfront : ∃ tail, Value.writeMembers (m :: members) = '"' :: tail := by
      cases members <;> exact ⟨_, rfl⟩
    obtain ⟨tail, hwrite⟩ := hfront
    have hquote : ∀ s, skipSpace ('"' :: s) = '"' :: s := fun s => rfl
    rw [hwrite, List.cons_append] at hread ⊢
    simp only [hquote]
    split
    · next heq => cases heq
    · rw [hread]
      rfl

theorem reads_of_integral {v : Value} (h : v.Integral) : Reads v := by
  induction h with
  | null => exact reads_of_succ .null fun _ _ _ _ => rfl
  | bool b =>
    refine reads_of_succ (.bool b) fun _ _ _ _ => ?_
    cases b <;> rfl
  | int i => exact reads_int i
  | string s => exact reads_string s
  | array hi ih => exact reads_array hi ih
  | object hi ih => exact reads_object hi ih

theorem read?_write {v : Value} (h : v.Integral) : read? v.write = some (ofValue v) := by
  have hread := reads_of_integral h (2 * v.write.length + 2) [] (by omega) Numeral.closed_nil
  rw [List.append_nil] at hread
  rw [read?, hread]
  rfl

end Tree

end CoreWarden.Json
