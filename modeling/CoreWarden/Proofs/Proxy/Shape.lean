import CoreWarden.Proofs.Exchange.Models

/-!
What the shape of the proxy groups tells. A shape has one place for each name, where the group stays that
was enumerated last under it. So shapes tell the groups as long as groups of one name have the same
members; where two of them do not, the order of the enumeration decides which one shows.
-/
namespace CoreWarden

namespace GroupShape

variable {shape shape' : GroupShape} {name other : String} {members : List String}

def Ordered (shape : GroupShape) : Prop := shape.Pairwise (·.1 < ·.1)

theorem lookup_cons (g : String × List String) (shape : GroupShape) (name : String) :
    List.lookup name (g :: shape) = if name = g.1 then some g.2 else shape.lookup name := by
  rw [List.lookup_cons]
  by_cases h : name = g.1
  · rw [beq_iff_eq.mpr h, if_pos h]
  · rw [beq_eq_false_iff_ne.mpr h, if_neg h]

theorem lookup_insert (name other : String) (members : List String) (shape : GroupShape) :
    (insert name members shape).lookup other =
      if other = name then some members else shape.lookup other := by
  induction shape with
  | nil => exact lookup_cons _ _ _
  | cons g shape ih =>
    unfold insert
    split
    · exact lookup_cons _ _ _
    · split
      · next heq =>
        rw [lookup_cons, lookup_cons, ← heq]
        split <;> rfl
      · next hne =>
        rw [lookup_cons, lookup_cons, ih]
        by_cases h : other = name
        · simp [h, hne]
        · simp [h]

theorem mem_insert {g : String × List String} (h : g ∈ insert name members shape) :
    g = (name, members) ∨ g ∈ shape := by
  induction shape with
  | nil => exact .inl (List.mem_singleton.mp h)
  | cons g' shape ih =>
    unfold insert at h
    split at h
    · exact List.mem_cons.mp h
    · split at h
      · exact (List.mem_cons.mp h).imp_right (List.mem_cons_of_mem _)
      · rcases List.mem_cons.mp h with rfl | h
        · exact .inr List.mem_cons_self
        · exact (ih h).imp_right (List.mem_cons_of_mem _)

theorem Ordered.insert (h : Ordered shape) (name : String) (members : List String) :
    Ordered (GroupShape.insert name members shape) := by
  induction shape with
  | nil => exact List.pairwise_singleton _ _
  | cons g shape ih =>
    obtain ⟨hfirst, hrest⟩ := List.pairwise_cons.mp h
    unfold GroupShape.insert
    split
    · next hlt =>
      refine List.pairwise_cons.mpr ⟨List.forall_mem_cons.mpr ⟨hlt, fun g' hg' => ?_⟩, h⟩
      exact String.lt_trans hlt (hfirst g' hg')
    · split
      · next heq => exact List.pairwise_cons.mpr ⟨heq ▸ hfirst, hrest⟩
      · next hnlt hne =>
        have hle : g.1 ≤ name := String.not_lt.mp hnlt
        have hlt : g.1 < name := Decidable.byContradiction fun hge =>
          hne (String.le_antisymm (String.not_lt.mp hge) hle)
        refine List.pairwise_cons.mpr ⟨fun g' hg' => ?_, ih hrest⟩
        rcases mem_insert hg' with rfl | hg'
        · exact hlt
        · exact hfirst g' hg'

theorem ordered_foldl (h : Ordered shape) (groups : List (String × List String)) :
    Ordered (groups.foldl (fun shape g => insert g.1 g.2 shape) shape) := by
  induction groups generalizing shape with
  | nil => exact h
  | cons g groups ih => exact ih (h.insert g.1 g.2)

theorem ordered_ofGroups (groups : List (String × List String)) : Ordered (ofGroups groups) :=
  ordered_foldl .nil groups

/-- What was inserted last under a name stays. -/
theorem lookup_ofGroups (groups : List (String × List String)) (name : String) :
    (ofGroups groups).lookup name = groups.reverse.lookup name := by
  suffices h : ∀ shape : GroupShape,
      (groups.foldl (fun shape g => insert g.1 g.2 shape) shape).lookup name =
        (groups.reverse.lookup name).or (shape.lookup name) by
    rw [ofGroups, h [], List.lookup_nil, Option.or_none]
  intro shape
  induction groups generalizing shape with
  | nil => rfl
  | cons g groups ih =>
    rw [List.foldl_cons, ih, lookup_insert, List.reverse_cons, List.lookup_append, Option.or_assoc,
      lookup_cons, List.lookup_nil]
    by_cases h : name = g.1 <;> simp [h]

theorem Ordered.mem_iff (h : Ordered shape) :
    (name, members) ∈ shape ↔ shape.lookup name = some members := by
  induction shape with
  | nil => simp
  | cons g shape ih =>
    obtain ⟨hfirst, hrest⟩ := List.pairwise_cons.mp h
    rw [lookup_cons, List.mem_cons, Prod.ext_iff]
    by_cases heq : name = g.1
    · have hnot : (name, members) ∉ shape := by
        intro hmem
        have hlt : g.1 < name := hfirst _ hmem
        exact String.lt_irrefl _ (heq ▸ hlt)
      simp [heq, heq ▸ hnot, eq_comm]
    · simp [heq, ih hrest]

theorem Ordered.nodup (h : Ordered shape) : shape.Nodup := by
  refine List.Pairwise.imp ?_ h
  rintro g _ hlt rfl
  exact String.lt_irrefl _ hlt

theorem Ordered.eq_of_lookup (h : Ordered shape) (h' : Ordered shape')
    (hsame : ∀ name, shape.lookup name = shape'.lookup name) : shape = shape' := by
  have hperm : shape.Perm shape' := by
    refine (List.perm_ext_iff_of_nodup h.nodup h'.nodup).mpr fun g => ?_
    rw [h.mem_iff, h'.mem_iff, hsame]
  refine hperm.eq_of_pairwise (fun g g' _ _ hlt hgt => ?_) h h'
  exact absurd hgt (String.lt_asymm hlt)

end GroupShape

namespace ProxySnapshot

variable {s t u : ProxySnapshot} {name : String} {members : List String}

/-- An entry is a group with this name and these members. -/
def HasGroup (s : ProxySnapshot) (name : String) (members : List String) : Prop :=
  ∃ e ∈ s.proxies.entries, e.2.name = name ∧ e.2.members = some members

/-- Groups of one name have the same members. -/
def Unambiguous (s : ProxySnapshot) : Prop :=
  ∀ name members members', s.HasGroup name members → s.HasGroup name members' → members = members'

/-- The same entries, enumerated in any order. -/
def Reorders (s t : ProxySnapshot) : Prop := s.proxies.entries.Perm t.proxies.entries

/-- The members of the group that is enumerated last under a name. -/
def lastMembers? (s : ProxySnapshot) (name : String) : Option (List String) :=
  s.groups.reverse.lookup name

theorem mem_groups : (name, members) ∈ s.groups ↔ s.HasGroup name members := by
  simp only [groups, List.mem_filterMap, Option.map_eq_some_iff, Prod.mk.injEq, HasGroup]
  refine exists_congr fun e => and_congr_right fun _ => ?_
  constructor
  · rintro ⟨ms, hms, hname, rfl⟩
    exact ⟨hname, hms⟩
  · rintro ⟨hname, hms⟩
    exact ⟨members, hms, hname, rfl⟩

theorem lookup_groupShape (s : ProxySnapshot) (name : String) :
    s.groupShape.lookup name = s.lastMembers? name :=
  GroupShape.lookup_ofGroups s.groups name

theorem groupShape_eq_iff :
    s.groupShape = t.groupShape ↔ ∀ name, s.lastMembers? name = t.lastMembers? name := by
  constructor
  · intro h name
    rw [← lookup_groupShape, ← lookup_groupShape, h]
  · intro h
    refine (GroupShape.ordered_ofGroups _).eq_of_lookup (GroupShape.ordered_ofGroups _) fun name => ?_
    exact ((lookup_groupShape s name).trans (h name)).trans (lookup_groupShape t name).symm

theorem HasGroup.of_lastMembers? (h : s.lastMembers? name = some members) :
    s.HasGroup name members := by
  obtain ⟨later, earlier, hsplit, -⟩ := List.lookup_eq_some_iff.mp h
  refine mem_groups.mp (List.mem_reverse.mp ?_)
  rw [hsplit]
  exact List.mem_append_right _ List.mem_cons_self

theorem HasGroup.exists_lastMembers? (h : s.HasGroup name members) :
    ∃ members', s.lastMembers? name = some members' := by
  refine Option.isSome_iff_exists.mp (Option.isSome_iff_ne_none.mpr fun hnone => ?_)
  have hall := List.lookup_eq_none_iff.mp hnone (name, members) (List.mem_reverse.mpr (mem_groups.mpr h))
  simp at hall

theorem Unambiguous.lastMembers?_eq_some_iff (h : s.Unambiguous) :
    s.lastMembers? name = some members ↔ s.HasGroup name members := by
  refine ⟨.of_lastMembers?, fun hgroup => ?_⟩
  obtain ⟨members', hlast⟩ := hgroup.exists_lastMembers?
  rw [hlast, h name members' members (.of_lastMembers? hlast) hgroup]

theorem Reorders.hasGroup_iff (h : u.Reorders s) :
    u.HasGroup name members ↔ s.HasGroup name members :=
  exists_congr fun _ => and_congr_left fun _ => h.mem_iff

theorem Reorders.unambiguous (h : u.Reorders s) (hs : s.Unambiguous) : u.Unambiguous :=
  fun name members members' hgroup hgroup' =>
    hs name members members' (h.hasGroup_iff.mp hgroup) (h.hasGroup_iff.mp hgroup')

/-- Entries that stand under their own names are unambiguous. -/
theorem unambiguous_of_named (hs : s.proxies.Distinct) (hnamed : ∀ e ∈ s.proxies.entries, e.2.name = e.1) :
    s.Unambiguous := by
  rintro name members members' ⟨e, he, hname, hmembers⟩ ⟨e', he', hname', hmembers'⟩
  have hkey : e.1 = e'.1 :=
    ((hnamed e he).symm.trans hname).trans (hname'.symm.trans (hnamed e' he'))
  obtain rfl : e = e' := List.inj_on_of_nodup_map hs he he' hkey
  exact Option.some.inj (hmembers.symm.trans hmembers')

/-- Whichever group of a name is enumerated last shows. -/
theorem HasGroup.exists_reorders (h : s.HasGroup name members) :
    ∃ u : ProxySnapshot, u.Reorders s ∧ u.groupShape.lookup name = some members := by
  obtain ⟨e, he, hname, hmembers⟩ := h
  obtain ⟨before, after, hsplit⟩ := List.append_of_mem he
  refine ⟨⟨⟨before ++ after ++ [e]⟩⟩, ?_, ?_⟩
  · rw [Reorders, hsplit, List.append_assoc]
    exact (List.perm_append_singleton e after).append_left before
  · rw [lookup_groupShape]
    simp [lastMembers?, groups, hname, hmembers]

theorem groupShape_reorders_iff :
    (∀ u : ProxySnapshot, u.Reorders s → u.groupShape = s.groupShape) ↔ s.Unambiguous := by
  constructor
  · intro h name members members' hgroup hgroup'
    obtain ⟨u, hu, hlookup⟩ := hgroup.exists_reorders
    obtain ⟨u', hu', hlookup'⟩ := hgroup'.exists_reorders
    rw [h u hu] at hlookup
    rw [h u' hu', hlookup] at hlookup'
    exact Option.some.inj hlookup'
  · intro h u hu
    refine groupShape_eq_iff.mpr fun name => Option.ext fun members => ?_
    rw [(hu.unambiguous h).lastMembers?_eq_some_iff, h.lastMembers?_eq_some_iff, hu.hasGroup_iff]

theorem Unambiguous.groupShape_eq_iff (hs : s.Unambiguous) (ht : t.Unambiguous) :
    s.groupShape = t.groupShape ↔ ∀ name members, s.HasGroup name members ↔ t.HasGroup name members := by
  rw [ProxySnapshot.groupShape_eq_iff]
  refine forall_congr' fun name => ?_
  simp only [Option.ext_iff, hs.lastMembers?_eq_some_iff, ht.lastMembers?_eq_some_iff]

/-- Two shapes are equal exactly if every name has the same members where it is enumerated last. Every
group shows in some order of the enumeration; the order matters exactly if two groups of one name differ in
their members. Where none do, in any orders: the shapes are equal exactly if the groups are the same, with
the same members. -/
theorem shape_tells_groups (s t : ProxySnapshot) :
    (s.groupShape = t.groupShape ↔ ∀ name, s.lastMembers? name = t.lastMembers? name) ∧
    (∀ name members, s.HasGroup name members ↔
      ∃ u : ProxySnapshot, u.Reorders s ∧ u.groupShape.lookup name = some members) ∧
    ((∀ u : ProxySnapshot, u.Reorders s → u.groupShape = s.groupShape) ↔ s.Unambiguous) ∧
    (s.Unambiguous → t.Unambiguous → ∀ u v : ProxySnapshot, u.Reorders s → v.Reorders t →
      (u.groupShape = v.groupShape ↔
        ∀ name members, s.HasGroup name members ↔ t.HasGroup name members)) := by
  refine ⟨groupShape_eq_iff, fun name members => ⟨HasGroup.exists_reorders, ?_⟩,
    groupShape_reorders_iff, ?_⟩
  · rintro ⟨u, hu, hlookup⟩
    rw [lookup_groupShape] at hlookup
    exact hu.hasGroup_iff.mp (.of_lastMembers? hlookup)
  · intro hs ht u v hu hv
    rw [groupShape_reorders_iff.mpr hs u hu, groupShape_reorders_iff.mpr ht v hv]
    exact hs.groupShape_eq_iff ht

/-- A group with two members, one of them a plain proxy. -/
def selected : ProxySnapshot :=
  ⟨⟨[("auto", ⟨"auto", "Selector", some "hk", some ["hk", "jp"]⟩), ("hk", ⟨"hk", "Trojan", none, none⟩)]⟩⟩

/-- The same group under another key, of another kind and with another choice, and another plain proxy in
front of it. -/
def reselected : ProxySnapshot :=
  ⟨⟨[("jp", ⟨"jp", "Trojan", none, none⟩), ("1", ⟨"auto", "URLTest", some "jp", some ["hk", "jp"]⟩)]⟩⟩

theorem shape_tells_groups_reselected :
    selected.Unambiguous ∧ reselected.Unambiguous ∧ selected.groupShape = reselected.groupShape := by
  have hselected : selected.Unambiguous :=
    unambiguous_of_named (by simp [selected, Keyed.Distinct]) (by simp [selected])
  have hreselected : reselected.Unambiguous := by
    rintro name members members' ⟨e, he, -, hmembers⟩ ⟨e', he', -, hmembers'⟩
    simp only [reselected, List.mem_cons, List.not_mem_nil, or_false] at he he'
    rcases he with rfl | rfl <;> rcases he' with rfl | rfl <;> grind
  refine ⟨hselected, hreselected, ?_⟩
  refine ((shape_tells_groups selected reselected).2.2.2 hselected hreselected selected reselected
    (List.Perm.refl _) (List.Perm.refl _)).mpr fun name members => ?_
  simp [HasGroup, selected, reselected]

/-- Two groups of one name with different members. -/
def twins : ProxySnapshot :=
  ⟨⟨[("1", ⟨"g", "Selector", none, some ["a"]⟩), ("2", ⟨"g", "Selector", none, some ["b"]⟩)]⟩⟩

/-- Of two groups of one name only one shows, and which one depends on the order of the enumeration: the
same entries may have another shape, and to lose a group may change nothing. -/
theorem shape_overlooks_twin :
    let swapped : ProxySnapshot := ⟨⟨twins.proxies.entries.reverse⟩⟩
    let only : ProxySnapshot := ⟨⟨twins.proxies.entries.drop 1⟩⟩
    Json.ofText? (Json.encode twins).write = some twins ∧
    swapped.Reorders twins ∧ swapped.groupShape ≠ twins.groupShape ∧
    only.groupShape = twins.groupShape ∧ twins.HasGroup "g" ["a"] ∧ ¬ only.HasGroup "g" ["a"] := by
  refine ⟨by decide +kernel, List.reverse_perm _, by decide, by decide, ?_, ?_⟩
  · exact ⟨_, .head _, rfl, rfl⟩
  · simp [HasGroup, twins]

end ProxySnapshot

end CoreWarden
