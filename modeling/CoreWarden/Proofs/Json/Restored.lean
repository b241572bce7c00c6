import CoreWarden.Json.Record
import CoreWarden.Proofs.Json.Meaning

/-!
Values of other types that are written as JSON and read again. What is restored from its tree is restored
from its text; a record is restored if its fields are, inside one more level of nesting.
-/
namespace CoreWarden.Json

variable {α : Type} {room : Nat}

structure Restored [Encode α] [Decode α] (room : Nat) (a : α) : Prop where
  integral : (encode a).Integral
  decode? : decode? room (Tree.ofValue (encode a)) = some a

theorem Restored.ofText? [Encode α] [Decode α] {a : α} (h : Restored maxNesting a) :
    ofText? (encode a).write = some a := by
  rw [Json.ofText?, Tree.read?_write h.integral]
  exact h.decode?

/-! ### Simple types -/

theorem restored_value {v : Value} (hf : v.Fits room) (hi : v.Integral) : Restored room v :=
  ⟨hi, Tree.meaning?_ofValue hf hi⟩

theorem restored_string (room : Nat) (s : String) : Restored room s where
  integral := .string s
  decode? := by simp [encode, decode?, Tree.ofValue, Tree.text?, Piece.text?_map_char]

theorem restored_bool (room : Nat) (b : Bool) : Restored room b where
  integral := .bool b
  decode? := by simp [encode, decode?, Tree.ofValue]

theorem natural?_ofValue {n limit : Nat} (h : n < limit) (hl : limit ≤ Numeral.limit) :
    (Tree.ofValue (.nat n)).natural? limit = some n := by
  have hlt : n < Numeral.limit := Nat.lt_of_lt_of_le h hl
  have hrange : (Number.int n).InRange := by
    rw [Numeral.limit] at hlt
    exact ⟨by omega, by omega⟩
  have hbounds : (0 : Int) ≤ n ∧ (n : Int) ≤ limit - 1 := by omega
  simp [Value.nat, Value.int, Tree.ofValue, Tree.natural?, Tree.integer?,
    Numeral.number?_ofInt hrange, hbounds]

theorem restored_uint16 (room : Nat) (n : UInt16) : Restored room n where
  integral := .int n.toNat
  decode? := by
    have hread := natural?_ofValue n.toNat_lt_size (by decide)
    simp [encode, decode?, hread]

theorem restored_uint32 (room : Nat) (n : UInt32) : Restored room n where
  integral := .int n.toNat
  decode? := by
    have hread := natural?_ofValue n.toNat_lt_size (by decide)
    simp [encode, decode?, hread]

theorem fits_uint32 (room : Nat) (n : UInt32) : (encode n).Fits room := by
  have hlt : n.toNat < 4294967296 := n.toNat_lt_size
  exact .number ⟨by omega, by omega⟩

theorem restored_uint64 (room : Nat) (n : UInt64) : Restored room n where
  integral := .int n.toNat
  decode? := by
    have hread := natural?_ofValue n.toNat_lt_size (by decide)
    simp [encode, decode?, hread]

/-! ### Options and lists -/

theorem mapM_map_eq {β γ : Type} {xs : List α} {f : β → Option γ} {g : α → β} {k : α → γ}
    (h : ∀ a ∈ xs, f (g a) = some (k a)) : (xs.map g).mapM f = some (xs.map k) := by
  induction xs with
  | nil => rfl
  | cons a xs ih =>
    obtain ⟨ha, hxs⟩ := List.forall_mem_cons.mp h
    simp [ha, ih hxs]

theorem Tree.ofValue_ne_null {v : Value} (hi : v.Integral) (h : v ≠ .null) : ofValue v ≠ .null := by
  cases hi with
  | null => exact absurd rfl h
  | bool | int | string | array | object => simp [ofValue]

variable [Encode α] [Decode α]

theorem restored_none : Restored room (none : Option α) where
  integral := .null
  decode? := by simp [encode, Json.decode?, Value.ofOption, Tree.ofValue]

theorem Restored.present {a : α} (h : Restored room a) (hn : encode a ≠ .null) :
    Restored room (some a) where
  integral := h.integral
  decode? := by
    have htree := Tree.ofValue_ne_null h.integral hn
    have hread := h.decode?
    change Json.decode? room (Tree.ofValue (encode a)) = _
    generalize Tree.ofValue (encode a) = tree at htree hread
    simp only [Json.decode?, hread]
    rfl

theorem Restored.option {o : Option α} (h : ∀ a ∈ o, Restored room a)
    (hn : ∀ a : α, encode a ≠ .null) : Restored room o := by
  cases o with
  | none => exact restored_none
  | some a => exact (h a rfl).present (hn a)

theorem Restored.list {xs : List α} (h : ∀ a ∈ xs, Restored room a) : Restored (room + 1) xs where
  integral := by
    refine .array fun v hv => ?_
    obtain ⟨a, ha, rfl⟩ := List.mem_map.mp hv
    exact (h a ha).integral
  decode? := by
    have hread := mapM_map_eq (k := id) fun a ha => (h a ha).decode?
    rw [List.map_id] at hread
    simp only [encode, Tree.ofValue, Tree.ofItems_eq_map, List.map_map]
    exact hread

/-! ### Records -/

namespace Tree

theorem keyed?_ofMembers (members : List (String × Value)) :
    keyed? (ofMembers members) = some (members.map fun m => (m.1, ofValue m.2)) := by
  induction members with
  | nil => rfl
  | cons m members ih =>
    rw [keyed?] at ih
    simp [keyed?, ofMembers, Piece.text?_map_char, ih]

theorem filter_key {β : Type} {members : List (String × β)} {key : String} {v : β}
    (hk : (members.map Prod.fst).Nodup) (hm : (key, v) ∈ members) :
    members.filter (·.1 == key) = [(key, v)] := by
  induction members with
  | nil => cases hm
  | cons m members ih =>
    rw [List.map_cons, List.nodup_cons] at hk
    rcases List.mem_cons.mp hm with rfl | hm
    · have hnone : members.filter (·.1 == key) = [] := by
        rw [List.filter_eq_nil_iff]
        intro m hm heq
        exact hk.1 (List.mem_map.mpr ⟨m, hm, by simpa using heq⟩)
      simp [hnone]
    · have hne : m.1 ≠ key := fun heq => hk.1 (heq ▸ List.mem_map_of_mem (f := Prod.fst) hm)
      simp [hne, ih hk.2 hm]

theorem fields?_ofValue (spec : List (String × Presence)) (values : List Value)
    (hk : (spec.map Prod.fst).Nodup) (hl : values.length = spec.length) :
    fields? spec (ofValue (.object ((spec.map Prod.fst).zip values))) =
      some (values.map fun v => some (ofValue v)) := by
  have hspec : (spec.zip values).map Prod.fst = spec := List.map_fst_zip (Nat.le_of_eq hl.symm)
  have hvalues : (spec.zip values).map Prod.snd = values := List.map_snd_zip (Nat.le_of_eq hl)
  have hnames : ((spec.map Prod.fst).zip values).map (fun m => (m.1, ofValue m.2)) =
      (spec.zip values).map fun p => (p.1.1, ofValue p.2) := by
    rw [List.zip_map_left]
    simp
  have hkeys : (((spec.zip values).map fun p => (p.1.1, ofValue p.2)).map Prod.fst).Nodup := by
    have hfst : ((spec.zip values).map Prod.fst).map Prod.fst = spec.map Prod.fst := by rw [hspec]
    rw [List.map_map] at hfst ⊢
    exact hfst ▸ hk
  -- No name stands twice, so each field finds its own value.
  have hfound : ∀ p ∈ spec.zip values, member? ((spec.zip values).map fun p => (p.1.1, ofValue p.2)) p.1 =
      some (some (ofValue p.2)) := by
    intro p hp
    rw [member?, filter_key hkeys (List.mem_map_of_mem hp)]
  have hread := mapM_map_eq (k := fun p : (String × Presence) × Value => some (ofValue p.2)) hfound
  have hresult : (spec.zip values).map (fun p => some (ofValue p.2)) =
      values.map fun v => some (ofValue v) := by
    conv_rhs => rw [← hvalues]
    rw [List.map_map]
    rfl
  rw [hspec, hresult] at hread
  rw [ofValue, fields?, keyed?_ofMembers, hnames]
  exact hread

end Tree

theorem Restored.record {a : α} {spec : List (String × Presence)}
    {read : Nat → List (Option Tree) → Option α} (values : List Value)
    (hd : ∀ tree, Json.decode? (room + 1) tree = Tree.record? spec read (room + 1) tree)
    (he : encode a = .object ((spec.map Prod.fst).zip values)) (hk : (spec.map Prod.fst).Nodup)
    (hl : values.length = spec.length) (hi : ∀ v ∈ values, v.Integral)
    (hr : read room (values.map fun v => some (Tree.ofValue v)) = some a) :
    Restored (room + 1) a where
  integral := by
    rw [he]
    refine .object fun m hm => hi m.2 ?_
    exact (List.of_mem_zip hm).2
  decode? := by
    rw [hd, he, Tree.record?, Tree.fields?_ofValue spec values hk hl]
    exact hr

/-! ### Choices -/

theorem Restored.named {a : α} {name : String} {ofName? : String → Option α}
    (hd : ∀ tree, Json.decode? room tree = (tree.choice? room).bind ofName?)
    (he : encode a = .string name) (hn : ofName? name = some a) : Restored room a where
  integral := he ▸ .string name
  decode? := by
    rw [hd, he]
    simp [Tree.ofValue, Tree.choice?, Piece.text?_map_char, hn]

theorem Tree.rest_ofMembers {tag : String} {members : List (String × Value)}
    (hk : tag ∉ members.map Prod.fst) :
    (((ofMembers members).zip (members.map fun m => (m.1, ofValue m.2))).filterMap fun p =>
      if p.2.1 == tag then none else some p.1) = ofMembers members := by
  induction members with
  | nil => rfl
  | cons m members ih =>
    rw [List.map_cons, List.mem_cons, not_or] at hk
    have hne : (m.1 == tag) = false := beq_eq_false_iff_ne.mpr (Ne.symm hk.1)
    rw [ofMembers, List.map_cons, List.zip_cons_cons, List.filterMap_cons]
    simp only [hne, Bool.false_eq_true, if_false, ih hk.2]

theorem tagged?_ofValue {tag name : String} {members : List (String × Value)}
    (hf : (Value.object ((tag, .string name) :: members)).Fits room)
    (hi : (Value.object members).Integral) :
    (Tree.ofValue (.object ((tag, .string name) :: members))).tagged? tag room =
      some (name, Tree.ofValue (.object members)) := by
  have hintegral : (Value.object ((tag, .string name) :: members)).Integral := by
    cases hi with
    | object h => exact .object (List.forall_mem_cons.mpr ⟨.string name, h⟩)
  have hk : (((tag, Value.string name) :: members).map Prod.fst).Nodup := by
    cases hf with
    | object hk => exact hk
  have hmeaning := Tree.meaning?_ofValue hf hintegral
  have hkeyed := Tree.keyed?_ofMembers ((tag, .string name) :: members)
  have hkeys : ((((tag, Value.string name) :: members).map fun m => (m.1, Tree.ofValue m.2)).map
      Prod.fst).Nodup := by
    rw [List.map_map]
    exact hk
  have hfound := Tree.filter_key hkeys List.mem_cons_self
  have hname : (Tree.ofValue (.string name)).text? = some name := (restored_string room name).decode?
  have hrest := Tree.rest_ofMembers (List.nodup_cons.mp hk).1
  rw [Tree.ofValue] at hmeaning ⊢
  rw [Tree.tagged?, hmeaning, hkeyed]
  simp only [Option.bind_eq_bind, Option.bind_some, hfound, hname]
  simp only [Tree.ofMembers, List.map_cons, List.zip_cons_cons, List.filterMap_cons, beq_self_eq_true,
    if_true, hrest, Tree.ofValue]
  rfl

theorem Restored.tagged {a : α} {tag name : String} {next : String × Tree → Option α}
    (fields : List String) (values : List Value)
    (hd : ∀ tree, Json.decode? (room + 1) tree = (tree.tagged? tag (room + 1)).bind next)
    (he : encode a = .object ((tag, .string name) :: fields.zip values)) (hk : (tag :: fields).Nodup)
    (hl : values.length = fields.length) (hf : ∀ v ∈ values, v.Fits room)
    (hi : ∀ v ∈ values, v.Integral)
    (hr : next (name, Tree.ofValue (.object (fields.zip values))) = some a) :
    Restored (room + 1) a := by
  have hintegral : (Value.object (fields.zip values)).Integral :=
    .object fun m hm => hi m.2 (List.of_mem_zip hm).2
  have hfits : (Value.object ((tag, .string name) :: fields.zip values)).Fits (room + 1) := by
    refine .object ?_ ?_
    · rwa [List.map_cons, List.map_fst_zip (Nat.le_of_eq hl.symm)]
    · exact List.forall_mem_cons.mpr ⟨.string name, fun m hm => hf m.2 (List.of_mem_zip hm).2⟩
  refine ⟨?_, ?_⟩
  · rw [he]
    exact .object (List.forall_mem_cons.mpr ⟨.string name, fun m hm => hi m.2 (List.of_mem_zip hm).2⟩)
  · rw [hd, he, tagged?_ofValue hfits hintegral]
    exact hr

theorem Restored.taggedRecord {a : α} {tag name : String} {next : String × Tree → Option α}
    {read : List (Option Tree) → Option α} (spec : List (String × Presence)) (values : List Value)
    (hd : ∀ tree, Json.decode? (room + 1) tree = (tree.tagged? tag (room + 1)).bind next)
    (hn : ∀ rest, next (name, rest) = (rest.fields? spec).bind read)
    (he : encode a = .object ((tag, .string name) :: (spec.map Prod.fst).zip values))
    (hk : (tag :: spec.map Prod.fst).Nodup) (hl : values.length = spec.length)
    (hf : ∀ v ∈ values, v.Fits room) (hi : ∀ v ∈ values, v.Integral)
    (hr : read (values.map fun v => some (Tree.ofValue v)) = some a) : Restored (room + 1) a := by
  refine .tagged _ values hd he hk (by rw [hl, List.length_map]) hf hi ?_
  rw [hn, Tree.fields?_ofValue spec values (List.nodup_cons.mp hk).2 hl]
  exact hr

/-! ### What is read -/

section Yields

variable {β : Type} [Decode β] {P : β → Prop}

def Yields (P : β → Prop) : Prop := ∀ room tree b, decode? room tree = some b → P b

theorem Yields.option (h : Yields P) : Yields fun o : Option β => ∀ a ∈ o, P a := by
  intro room tree o hread a ha
  obtain rfl : o = some a := ha
  cases tree with
  | null => cases hread
  | bool | number | string | array | object =>
    obtain ⟨b, hb, hsome⟩ := Option.map_eq_some_iff.mp hread
    cases hsome
    exact h room _ a hb

theorem Yields.list (h : Yields P) : Yields fun xs : List β => ∀ a ∈ xs, P a := by
  intro room tree xs hread
  cases tree with
  | null | bool | number | string | object => cases hread
  | array items =>
    cases room with
    | zero => cases hread
    | succ room =>
      change items.mapM (decode? room) = some xs at hread
      induction items generalizing xs with
      | nil =>
        cases hread
        simp
      | cons item items ih =>
        simp only [List.mapM_cons, Option.bind_eq_bind, Option.bind_eq_some_iff] at hread
        obtain ⟨a, ha, rest, hrest, hread⟩ := hread
        cases hread
        exact List.forall_mem_cons.mpr ⟨h room item a ha, ih rest hrest⟩

theorem Yields.field (h : Yields P) {tree : Option Tree} {a : β} (hread : field? room tree = some a) :
    P a := by
  cases tree with
  | none => cases hread
  | some tree => exact h room tree a hread

theorem Yields.fieldOr (h : Yields P) {absent : β} (habsent : P absent) {tree : Option Tree} {a : β}
    (hread : fieldOr? room absent tree = some a) : P a := by
  cases tree with
  | none =>
    cases hread
    exact habsent
  | some tree => exact h room tree a hread

theorem Tree.exists_of_record? {γ : Type} {spec : List (String × Presence)}
    {read : Nat → List (Option Tree) → Option γ} {tree : Tree} {c : γ}
    (h : record? spec read room tree = some c) :
    ∃ inner fields, room = inner + 1 ∧ read inner fields = some c := by
  cases room with
  | zero => cases h
  | succ inner =>
    obtain ⟨fields, -, hread⟩ := Option.bind_eq_some_iff.mp h
    exact ⟨inner, fields, rfl, hread⟩

end Yields

end CoreWarden.Json
