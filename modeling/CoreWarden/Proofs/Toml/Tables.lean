import CoreWarden.Proofs.Json.Meaning
import CoreWarden.Proofs.Toml.Lines

/-!
The tables that sections open and the keys that they set. A way to a table is told by what it makes of
the table's members: whatever is done to the table is done to them, and all else stays.
-/
namespace CoreWarden.Toml

open Json (Tree Value)
open Json.Value (lookup put)

/-! ### Members under their keys -/

section

variable {α : Type} {key : String} {members : List (String × α)}

theorem lookup_of_not_mem (h : key ∉ members.map Prod.fst) : lookup key members = none := by
  induction members with
  | nil => rfl
  | cons m members ih =>
    rw [List.map_cons, List.mem_cons, not_or] at h
    rw [lookup, if_neg (Ne.symm h.1), ih h.2]

theorem lookup_append_self (h : key ∉ members.map Prod.fst) (value : α) :
    lookup key (members ++ [(key, value)]) = some value := by
  rw [← Json.Value.put_of_not_mem value h, Json.Value.lookup_put_self]

theorem put_append_self (h : key ∉ members.map Prod.fst) (old new : α) :
    put key new (members ++ [(key, old)]) = members ++ [(key, new)] := by
  induction members with
  | nil => simp [put]
  | cons m members ih =>
    rw [List.map_cons, List.mem_cons, not_or] at h
    rw [List.cons_append, put, if_neg (Ne.symm h.1), ih h.2, List.cons_append]

end

/-! ### Ways to a table -/

namespace Members

/-- The members of the table that the path leads to make up all members by `whole`. -/
def Leads (path : List String) (whole : Members → Members) : Prop :=
  ∀ (f : Members → Option Members) inner, modify path f (whole inner) = (f inner).map whole

theorem modify_append (path path' : List String) (f : Members → Option Members) (members : Members) :
    modify (path ++ path') f members = modify path (modify path' f) members := by
  induction path generalizing members with
  | nil => rfl
  | cons key path ih => simp only [List.cons_append, modify, ih]

theorem Leads.append {path path' : List String} {whole whole' : Members → Members} (h : Leads path whole)
    (h' : Leads path' whole') : Leads (path ++ path') (whole ∘ whole') := by
  intro f inner
  rw [modify_append, Function.comp_apply, h, h', Option.map_map]

variable {key : String} {front : Members}

theorem leads_table (hk : key ∉ front.map Prod.fst) (origin : Origin) :
    Leads [key] fun inner => front ++ [(key, .table origin inner)] := by
  intro f inner
  rw [modify, lookup_append_self hk]
  simp only [modify]
  cases f inner with
  | none => rfl
  | some found => simp [put_append_self hk]

theorem leads_tables (hk : key ∉ front.map Prod.fst) (closed : List Tree) :
    Leads [key] fun inner => front ++ [(key, .tables closed inner)] := by
  intro f inner
  rw [modify, lookup_append_self hk]
  simp only [modify]
  cases f inner with
  | none => rfl
  | some found => simp [put_append_self hk]

theorem define_new (hk : key ∉ front.map Prod.fst) (item : Item) :
    define [key] item front = some (front ++ [(key, item)]) := by
  simp [define, lookup_of_not_mem hk, Json.Value.put_of_not_mem item hk]

theorem openTable_new (hk : key ∉ front.map Prod.fst) :
    openTable key front = some (front ++ [(key, .table .header [])]) := by
  simp [openTable, lookup_of_not_mem hk, Json.Value.put_of_not_mem _ hk]

theorem openNext_new (hk : key ∉ front.map Prod.fst) :
    openNext key front = some (front ++ [(key, .tables [] [])]) := by
  simp [openNext, lookup_of_not_mem hk, Json.Value.put_of_not_mem _ hk]

theorem openNext_last (hk : key ∉ front.map Prod.fst) (closed : List Tree) (last : Members) :
    openNext key (front ++ [(key, .tables closed last)]) =
      some (front ++ [(key, .tables (closed ++ [tree last]) [])]) := by
  simp [openNext, lookup_append_self hk, put_append_self hk]

end Members

/-! ### Sections -/

def settings (fields : List (String × Field)) : Members :=
  fields.map fun f => (f.1, .value (Tree.ofValue f.2.value))

theorem keys_settings (fields : List (String × Field)) :
    (settings fields).map Prod.fst = fields.map Prod.fst := by
  simp [settings]

namespace Progress

open Members (Leads)

theorem set_fields {path : List String} {whole : Members → Members} (h : Leads path whole)
    {fields : List (String × Field)} {inner : Members}
    (hk : (inner.map Prod.fst ++ fields.map Prod.fst).Nodup) :
    fields.foldlM set? ⟨whole inner, path⟩ = some ⟨whole (inner ++ settings fields), path⟩ := by
  induction fields generalizing inner with
  | nil => simp [settings]
  | cons f fields ih =>
    have hnew : f.1 ∉ inner.map Prod.fst := by
      intro hmem
      exact (List.nodup_append.mp hk).2.2 f.1 hmem f.1 List.mem_cons_self rfl
    have hset : set? ⟨whole inner, path⟩ f =
        some ⟨whole (inner ++ [(f.1, .value (Tree.ofValue f.2.value))]), path⟩ := by
      rw [set?, h, Members.define_new hnew]
      rfl
    rw [List.foldlM_cons, hset]
    have hkeys : ((inner ++ [(f.1, Item.value (Tree.ofValue f.2.value))]).map Prod.fst ++
        fields.map Prod.fst).Nodup := by
      simpa using hk
    simp only [Option.bind_eq_bind, Option.bind_some, ih hkeys]
    simp [settings]

theorem perform_table {key : String} {root : Members} (hroot : key ∉ root.map Prod.fst)
    {fields : List (String × Field)} (hk : (fields.map Prod.fst).Nodup) (path : List String) :
    perform? ⟨root, path⟩ ⟨[key], false, fields⟩ =
      some ⟨root ++ [(key, .table .header (settings fields))], [key]⟩ := by
  have hopen : enter? ⟨root, path⟩ [key] Members.openTable =
      some ⟨root ++ [(key, .table .header [])], [key]⟩ := by
    simp [enter?, Members.modify, Members.openTable_new hroot]
  have hkeys : (([] : Members).map Prod.fst ++ fields.map Prod.fst).Nodup := by simpa using hk
  have hset := set_fields (Members.leads_table hroot .header) hkeys
  simp only [perform?, Bool.false_eq_true, if_false, hopen, Option.bind_some, hset, List.nil_append]

def headed (tables : List (String × List (String × Field))) : Members :=
  tables.map fun t => (t.1, .table .header (settings t.2))

theorem perform_tables {tables : List (String × List (String × Field))} {root : Members}
    (hk : (root.map Prod.fst ++ tables.map Prod.fst).Nodup)
    (hfields : ∀ t ∈ tables, (t.2.map Prod.fst).Nodup) (before : List String) :
    ∃ after, (tables.map fun t => (⟨[t.1], false, t.2⟩ : Section)).foldlM perform? ⟨root, before⟩ =
      some ⟨root ++ headed tables, after⟩ := by
  induction tables generalizing root before with
  | nil => exact ⟨before, by simp [headed]⟩
  | cons t tables ih =>
    obtain ⟨ht, htables⟩ := List.forall_mem_cons.mp hfields
    have hnew : t.1 ∉ root.map Prod.fst := by
      intro hmem
      exact (List.nodup_append.mp hk).2.2 t.1 hmem t.1 List.mem_cons_self rfl
    have hkeys : ((root ++ [(t.1, Item.table .header (settings t.2))]).map Prod.fst ++
        tables.map Prod.fst).Nodup := by
      simpa using hk
    obtain ⟨after, hfold⟩ := ih hkeys htables [t.1]
    refine ⟨after, ?_⟩
    rw [List.map_cons, List.foldlM_cons, perform_table hnew ht before]
    simp only [Option.bind_eq_bind, Option.bind_some, hfold]
    simp [headed]

/-- A repeated section that opens the next table of an array whose members make up all members by
`whole`. -/
theorem perform_repeated {path : List String} {key : String} {whole : Members → Members}
    {root found front : Members} {closed : List Tree} (hl : Leads path whole) (hk : key ∉ front.map Prod.fst)
    (hopen : root.modify path (Members.openNext key) = some (whole (front ++ [(key, .tables closed found)])))
    {fields : List (String × Field)} (hkeys : (found.map Prod.fst ++ fields.map Prod.fst).Nodup)
    (before : List String) :
    perform? ⟨root, before⟩ ⟨path ++ [key], true, fields⟩ =
      some ⟨whole (front ++ [(key, .tables closed (found ++ settings fields))]), path ++ [key]⟩ := by
  have henter : enter? ⟨root, before⟩ (path ++ [key]) Members.openNext =
      some ⟨whole (front ++ [(key, .tables closed found)]), path ++ [key]⟩ := by
    simp [enter?, hopen]
  have hset := set_fields (hl.append (Members.leads_tables hk closed)) hkeys
  simp only [perform?, if_true, henter, Option.bind_some]
  exact hset

theorem perform_rows {path : List String} {key : String} {whole : Members → Members} {front : Members}
    (hl : Leads path whole) (hk : key ∉ front.map Prod.fst) (rows : List (List (String × Field)))
    (hkeys : ∀ fields ∈ rows, (fields.map Prod.fst).Nodup) (closed : List Tree) (last : Members)
    (before : List String) :
    ∃ (closed' : List Tree) (last' : Members) (after : List String),
      (rows.map fun fields => (⟨path ++ [key], true, fields⟩ : Section)).foldlM perform?
          ⟨whole (front ++ [(key, .tables closed last)]), before⟩ =
        some ⟨whole (front ++ [(key, .tables closed' last')]), after⟩ ∧
      closed' ++ [last'.tree] = closed ++ last.tree :: rows.map fun fields => (settings fields).tree := by
  induction rows generalizing closed last before with
  | nil => exact ⟨closed, last, before, rfl, rfl⟩
  | cons fields rows ih =>
    obtain ⟨hfields, hrows⟩ := List.forall_mem_cons.mp hkeys
    have hopen : Members.modify path (Members.openNext key) (whole (front ++ [(key, .tables closed last)])) =
        some (whole (front ++ [(key, .tables (closed ++ [last.tree]) [])])) := by
      rw [hl, Members.openNext_last hk]
      rfl
    have hsingle : (([] : Members).map Prod.fst ++ fields.map Prod.fst).Nodup := by simpa using hfields
    have hfirst := perform_repeated hl hk hopen hsingle before
    obtain ⟨closed', last', after, hfold, heq⟩ := ih hrows (closed ++ [last.tree]) (settings fields)
      (path ++ [key])
    refine ⟨closed', last', after, ?_, ?_⟩
    · rw [List.map_cons, List.foldlM_cons, hfirst]
      exact hfold
    · rw [heq]
      simp

end Progress

/-! ### Trees -/

theorem memberTrees_append (members members' : Members) :
    memberTrees (members ++ members') = memberTrees members ++ memberTrees members' := by
  induction members with
  | nil => rfl
  | cons m members ih => rw [List.cons_append, memberTrees, memberTrees, ih, List.cons_append]

def Field.members (fields : List (String × Field)) : List (String × Value) :=
  fields.map fun f => (f.1, f.2.value)

theorem memberTrees_settings (fields : List (String × Field)) :
    memberTrees (settings fields) = Tree.ofMembers (Field.members fields) := by
  induction fields with
  | nil => rfl
  | cons f fields ih =>
    rw [settings, List.map_cons, memberTrees, Field.members, List.map_cons, Tree.ofMembers, Item.tree]
    exact congrArg _ ih

theorem tree_settings (fields : List (String × Field)) :
    (settings fields).tree = Tree.ofValue (.object (Field.members fields)) := by
  rw [Members.tree, memberTrees_settings, Tree.ofValue]

end CoreWarden.Toml
