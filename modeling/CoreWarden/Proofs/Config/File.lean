import CoreWarden.Config.File
import CoreWarden.Proofs.Exchange.Models
import CoreWarden.Proofs.Text.Utf8
import CoreWarden.Proofs.Toml.Tables

/-!
A configuration saved to a file and loaded again. What is read of the file has a table for each part of
the configuration, and each part is found in its table, whether an option is written or left out, and
whether the profiles are written as an empty list or as one table each.
-/
namespace CoreWarden

open Json (Tree Value)
open Toml (Field Progress settings)

namespace Shape

open Json (Piece)

/-- The shape that a member is laid along is that of the field with its name. -/
theorem fitMember_eq (fields : List (String × Shape)) (key : String) (tree : Tree) :
    fitMember fields (key.toList.map .char) tree =
      match Value.lookup key fields with
      | some shape => shape.fit tree
      | none => tree := by
  have hinj : Function.Injective fun name : String => name.toList.map Piece.char :=
    (List.map_injective_iff.mpr fun _ _ h => by cases h; rfl).comp fun _ _ h => String.toList_inj.mp h
  induction fields with
  | nil => rfl
  | cons f fields ih =>
    rw [fitMember, Value.lookup]
    by_cases h : f.1 = key
    · rw [if_pos (by rw [h]), if_pos h]
    · rw [if_neg fun heq => h (hinj heq).symm, if_neg h, ih]

theorem fit_members {fields : List (String × Shape)} {members : List (String × Value)}
    (h : ∀ m ∈ members, ∀ shape, Value.lookup m.1 fields = some shape →
      shape.fit (Tree.ofValue m.2) = Tree.ofValue m.2) :
    (record fields).fit (Tree.ofValue (.object members)) = Tree.ofValue (.object members) := by
  have hmembers : ∀ members : List (String × Value), (∀ m ∈ members, ∀ shape,
      Value.lookup m.1 fields = some shape → shape.fit (Tree.ofValue m.2) = Tree.ofValue m.2) →
      (Tree.ofMembers members).map (fun m => (m.1, fitMember fields m.1 m.2)) = Tree.ofMembers members := by
    intro members h
    induction members with
    | nil => rfl
    | cons m members ih =>
      obtain ⟨hm, hrest⟩ := List.forall_mem_cons.mp h
      rw [Tree.ofMembers, List.map_cons, ih hrest, fitMember_eq]
      cases hshape : Value.lookup m.1 fields with
      | none => rfl
      | some shape => simp only [hm shape hshape]
  rw [Tree.ofValue, fit]
  exact congrArg Tree.object (hmembers members h)

theorem fit_ofNames (names : List String) (members : List (String × Value)) :
    (ofNames names).fit (Tree.ofValue (.object members)) = Tree.ofValue (.object members) := by
  refine fit_members fun m _ shape hshape => ?_
  have hfield : shape = .field := by
    induction names with
    | nil => cases hshape
    | cons name names ih =>
      rw [List.map_cons, Value.lookup] at hshape
      split at hshape
      · exact (Option.some.inj hshape).symm
      · exact ih hshape
  rw [hfield, fit]

end Shape

namespace Config

/-! ### The tables of a file -/

def tableOf (fields : List (String × Field)) : Value := .object (Field.members fields)

/-- The table of the profiles. Each of them has a table of its own. -/
def profilesTable (s : ProfileSettings) : Value :=
  .object (Field.members (optional "initial" s.initial) ++
    [("items", .array (s.items.map fun p => tableOf (profileSection p).fields))])

/-- A configuration as it stands in a file. -/
def table (c : Config) : Value :=
  .object [("server", tableOf (serverSection c.server).fields), ("core", tableOf (coreSection c.core).fields),
    ("supervisor", tableOf (supervisorSection c.supervisor).fields),
    ("sync", tableOf (syncSection c.sync).fields), ("profile_store", profilesTable c.profiles)]

/-! ### Reading the tables -/

variable (room : Nat)

theorem decode?_server (s : ServerSettings) :
    Json.decode? (room + 1) (Tree.ofValue (tableOf (serverSection s).fields)) = some s :=
  (restored_serverSettings room s).decode?

theorem fieldOr?_optional (o : Option String) :
    Json.fieldOr? room none (o.map fun s => Tree.ofValue (.string s)) = some o := by
  cases o with
  | none => rfl
  | some s => exact (restored_optionString room (some s)).decode?

theorem decode?_core (s : CoreSettings) :
    Json.decode? (room + 1) (Tree.ofValue (tableOf (coreSection s).fields)) = some s := by
  have hfields : Tree.fields?
      [("base_url", .nullable), ("secret", .nullable), ("request_timeout_secs", .required)]
      (Tree.ofValue (tableOf (coreSection s).fields)) =
        some [s.baseUrl.map fun s => Tree.ofValue (.string s), s.secret.map fun s => Tree.ofValue (.string s),
          some (Tree.ofValue (.nat s.requestTimeout.toNat))] := by
    cases hurl : s.baseUrl <;> cases hsecret : s.secret <;>
      simp [Tree.fields?, tableOf, coreSection, optional, Field.members, Field.value, Tree.ofValue,
        Tree.keyed?_ofMembers, Tree.member?, hurl, hsecret]
  have htimeout : Json.field? room (some (Tree.ofValue (.nat s.requestTimeout.toNat))) =
      some s.requestTimeout := (Json.restored_uint64 room s.requestTimeout).decode?
  change Tree.record? _ _ (room + 1) _ = _
  rw [Tree.record?, hfields]
  simp [fieldOr?_optional, htimeout]

theorem decode?_supervisor (c : Commands) :
    Json.decode? (room + 2) (Tree.ofValue (tableOf (supervisorSection c).fields)) = some c :=
  (restored_commands room c).decode?

theorem decode?_sync (t : Timings) :
    Json.decode? (room + 1) (Tree.ofValue (tableOf (syncSection t).fields)) = some t :=
  (restored_timings room t).decode?

theorem decode?_profile (p : Profile) :
    Json.decode? (room + 1) (Tree.ofValue (tableOf (profileSection p).fields)) = some p :=
  (restored_profile room p).decode?

theorem decode?_profiles (s : ProfileSettings) :
    Json.decode? (room + 3) (Tree.ofValue (profilesTable s)) = some s := by
  have hfields : Tree.fields? [("initial", .nullable), ("items", .defaulted)] (Tree.ofValue (profilesTable s)) =
      some [s.initial.map fun s => Tree.ofValue (.string s),
        some (Tree.ofValue (.array (s.items.map fun p => tableOf (profileSection p).fields)))] := by
    cases hinitial : s.initial <;>
      simp [Tree.fields?, profilesTable, optional, Field.members, Field.value, Tree.ofValue,
        Tree.keyed?_ofMembers, Tree.member?, hinitial]
  have hitems : Json.fieldOr? (room + 2) []
      (some (Tree.ofValue (.array (s.items.map fun p => tableOf (profileSection p).fields)))) =
        some s.items := by
    have hread := Json.mapM_map_eq (k := id) fun p (_ : p ∈ s.items) => decode?_profile room p
    rw [List.map_id] at hread
    simp only [Json.fieldOr?, Tree.ofValue, Tree.ofItems_eq_map, List.map_map]
    exact hread
  change Tree.record? _ _ (room + 3) _ = _
  rw [Tree.record?, hfields]
  simp [fieldOr?_optional, hitems]

theorem decode?_table (c : Config) : Json.decode? (room + 4) (Tree.ofValue c.table) = some c := by
  have hfields := Tree.fields?_ofValue
    [("server", .required), ("core", .required), ("supervisor", .defaulted), ("sync", .defaulted),
      ("profile_store", .defaulted)]
    [tableOf (serverSection c.server).fields, tableOf (coreSection c.core).fields,
      tableOf (supervisorSection c.supervisor).fields, tableOf (syncSection c.sync).fields,
      profilesTable c.profiles] (by decide) rfl
  change Tree.record? _ _ (room + 4) _ = _
  rw [Tree.record?, show Tree.fields? _ (Tree.ofValue c.table) = _ from hfields]
  simp [Json.field?, Json.fieldOr?, decode?_server, decode?_core, decode?_supervisor, decode?_sync,
    decode?_profiles]

theorem fit_profilesTable (s : ProfileSettings) :
    (Shape.record [("initial", .field), ("items", .list (.ofNames ["id", "name"]))]).fit
      (Tree.ofValue (profilesTable s)) = Tree.ofValue (profilesTable s) := by
  have hinitial : Value.lookup "initial" [("initial", Shape.field), ("items", .list (.ofNames ["id", "name"]))] =
      some .field := rfl
  have hlist : Value.lookup "items" [("initial", Shape.field), ("items", .list (.ofNames ["id", "name"]))] =
      some (.list (.ofNames ["id", "name"])) := rfl
  refine Shape.fit_members fun m hm shape hshape => ?_
  rcases List.mem_append.mp hm with hm | hm
  · obtain ⟨f, hf, rfl⟩ := List.mem_map.mp hm
    obtain ⟨name, -, rfl⟩ := List.mem_map.mp hf
    rw [hinitial] at hshape
    cases hshape
    rw [Shape.fit]
  · obtain rfl := List.mem_singleton.mp hm
    rw [hlist] at hshape
    cases hshape
    rw [Tree.ofValue, Shape.fit, Tree.ofItems_eq_map, List.map_map, List.map_map, List.map_map]
    refine congrArg Tree.array (List.map_congr_left fun p _ => ?_)
    exact Shape.fit_ofNames _ _

theorem fit_table (c : Config) : shape.fit (Tree.ofValue c.table) = Tree.ofValue c.table := by
  refine Shape.fit_members fun m hm shape hshape => ?_
  simp only [List.mem_cons, List.not_mem_nil, or_false] at hm
  rcases hm with rfl | rfl | rfl | rfl | rfl <;> cases hshape
  · exact Shape.fit_ofNames _ _
  · exact Shape.fit_ofNames _ _
  · exact Shape.fit_ofNames _ _
  · exact Shape.fit_ofNames _ _
  · exact fit_profilesTable c.profiles

/-! ### Writing the tables -/

theorem eq_of_mem_optional {name : String} {value : Option String} {f : String × Field}
    (h : f ∈ optional name value) : f.1 = name := by
  obtain ⟨s, -, rfl⟩ := List.mem_map.mp h
  rfl

def profileFields (s : ProfileSettings) : List (String × Field) :=
  optional "initial" s.initial ++ if s.items.isEmpty then [("items", .texts [])] else []

theorem profileSections_eq (s : ProfileSettings) : profileSections s =
    (if (profileFields s).isEmpty then [] else [⟨["profile_store"], false, profileFields s⟩]) ++
      s.items.map profileSection := rfl

def names : List String :=
  ["server", "host", "port", "core", "base_url", "secret", "request_timeout_secs", "supervisor",
    "restart_command", "status_command", "sync", "conflict_resolution_wait_ms", "switch_grace_ms",
    "restart_wait_ms", "health_probe_interval_ms", "health_probe_max_wait_ms", "attempt_reset_ms",
    "reconcile_interval_ms", "visibility_delay_ms", "conflict_poll_interval_ms", "invalidate_debounce_ms",
    "max_recovery_attempts", "history_limit", "profile_store", "initial", "items", "id", "name"]

theorem isBareKey_names : ∀ name ∈ names, Toml.IsBareKey name := by decide +kernel

theorem isNamed_sections {c : Config} {s : Toml.Section} (h : s ∈ c.sections) : s.IsNamed := by
  have hkeys : s.path ≠ [] ∧ s.path.length ≤ 2 ∧ (∀ key ∈ s.path, key ∈ names) ∧
      ∀ f ∈ s.fields, f.1 ∈ names := by
    have hoptional : ∀ {name value}, name ∈ names → ∀ f ∈ optional name value, f.1 ∈ names := by
      intro name value hname f hf
      rwa [eq_of_mem_optional hf]
    rw [sections, profileSections_eq, List.mem_append, List.mem_append] at h
    rcases h with h | h | h
    · simp only [List.mem_cons, List.not_mem_nil, or_false] at h
      rcases h with rfl | rfl | rfl | rfl
      · simp [serverSection, names]
      · refine ⟨by simp [coreSection], by simp [coreSection], by simp [coreSection, names], ?_⟩
        simp only [coreSection, List.forall_mem_append]
        exact ⟨⟨hoptional (by simp [names]), hoptional (by simp [names])⟩, by simp [names]⟩
      · simp [supervisorSection, names]
      · simp [syncSection, names]
    · by_cases hempty : (profileFields c.profiles).isEmpty = true
      · rw [if_pos hempty] at h
        cases h
      · rw [if_neg hempty] at h
        obtain rfl := List.mem_singleton.mp h
        refine ⟨by simp, by simp, by simp [names], ?_⟩
        simp only [profileFields, List.forall_mem_append]
        refine ⟨hoptional (by simp [names]), ?_⟩
        split <;> simp [names]
    · obtain ⟨p, -, rfl⟩ := List.mem_map.mp h
      simp [profileSection, names]
  obtain ⟨hne, hlength, hpath, hfields⟩ := hkeys
  exact ⟨hne, Nat.le_trans hlength (by decide), fun key hk => isBareKey_names key (hpath key hk),
    fun f hf => isBareKey_names f.1 (hfields f hf)⟩

def firstTables (c : Config) : List (String × List (String × Field)) :=
  [("server", (serverSection c.server).fields), ("core", (coreSection c.core).fields),
    ("supervisor", (supervisorSection c.supervisor).fields), ("sync", (syncSection c.sync).fields)]

theorem sections_eq (c : Config) : c.sections =
    c.firstTables.map (fun t => ⟨[t.1], false, t.2⟩) ++ profileSections c.profiles := rfl

theorem nodup_firstTables (c : Config) : ∀ t ∈ c.firstTables, (t.2.map Prod.fst).Nodup := by
  simp only [firstTables, List.forall_mem_cons]
  refine ⟨by simp [serverSection], ?_, by simp [supervisorSection], by simp [syncSection], nofun⟩
  obtain ⟨baseUrl, secret, timeout⟩ := c.core
  cases baseUrl <;> cases secret <;> simp [coreSection, optional]

theorem nodup_profileFields (s : ProfileSettings) : ((profileFields s).map Prod.fst).Nodup := by
  obtain ⟨initial, items⟩ := s
  cases initial <;> cases items <;> simp [profileFields, optional]

theorem perform_profileHeader {front : Toml.Members} (hfront : "profile_store" ∉ front.map Prod.fst)
    (before : List String) {s : ProfileSettings} (hitems : s.items.isEmpty = false) :
    ∃ origin root after,
      (if (profileFields s).isEmpty then []
          else [(⟨["profile_store"], false, profileFields s⟩ : Toml.Section)]).foldlM
        Progress.perform? ⟨front, before⟩ = some ⟨root, after⟩ ∧
      root.modify ["profile_store"] (Toml.Members.openNext "items") =
        some (front ++ [("profile_store",
          .table origin (settings (profileFields s) ++ [("items", .tables [] [])]))]) := by
  cases hinitial : s.initial with
  | none =>
    have hfields : profileFields s = [] := by simp [profileFields, optional, hinitial, hitems]
    rw [hfields]
    refine ⟨.passed, front, before, rfl, ?_⟩
    simp [Toml.Members.modify, Toml.lookup_of_not_mem hfront, Json.Value.put_of_not_mem _ hfront,
      Toml.Members.openNext, settings, Value.lookup, Value.put]
  | some id =>
    have hfields : profileFields s = [("initial", .text id)] := by
      simp [profileFields, optional, hinitial, hitems]
    have htable := Progress.perform_table hfront (nodup_profileFields s) before
    have hnew : "items" ∉ (settings (profileFields s)).map Prod.fst := by simp [hfields, settings]
    have hleads := Toml.Members.leads_table hfront .header
    have hopen := hleads (Toml.Members.openNext "items") (settings (profileFields s))
    rw [Toml.Members.openNext_new hnew] at hopen
    refine ⟨.header, _, ["profile_store"], ?_, hopen⟩
    rw [if_neg (by simp [hfields]), List.foldlM_cons, htable]
    rfl

theorem ofMembers_append (members members' : List (String × Value)) :
    Tree.ofMembers (members ++ members') = Tree.ofMembers members ++ Tree.ofMembers members' := by
  induction members with
  | nil => rfl
  | cons m members ih => rw [List.cons_append, Tree.ofMembers, Tree.ofMembers, ih, List.cons_append]

theorem tree_profiles (s : ProfileSettings) (hitems : s.items.isEmpty = false) {origin : Toml.Origin}
    {closed : List Tree} {last : Toml.Members}
    (h : closed ++ [last.tree] = s.items.map fun p => (settings (profileSection p).fields).tree) :
    (Toml.Item.table origin (settings (profileFields s) ++ [("items", .tables closed last)])).tree =
      Tree.ofValue (profilesTable s) := by
  have hfields : profileFields s = optional "initial" s.initial := by simp [profileFields, hitems]
  have harray : Tree.array (closed ++ [last.tree]) =
      Tree.ofValue (.array (s.items.map fun p => tableOf (profileSection p).fields)) := by
    rw [h, Tree.ofValue, Tree.ofItems_eq_map, List.map_map]
    refine congrArg Tree.array (List.map_congr_left fun p _ => ?_)
    exact Toml.tree_settings _
  rw [Toml.Item.tree, Toml.memberTrees_append, Toml.memberTrees_settings, hfields, Toml.memberTrees,
    Toml.Item.tree, Toml.memberTrees, profilesTable, Tree.ofValue, ofMembers_append, Tree.ofMembers,
    Tree.ofMembers, ← harray]
  rfl

theorem perform_profiles {front : Toml.Members} (hfront : "profile_store" ∉ front.map Prod.fst)
    (before : List String) (s : ProfileSettings) :
    ∃ item path, (profileSections s).foldlM Progress.perform? ⟨front, before⟩ =
        some ⟨front ++ [("profile_store", item)], path⟩ ∧ item.tree = Tree.ofValue (profilesTable s) := by
  rw [profileSections_eq]
  cases hitems : s.items with
  | nil =>
    have htable := Progress.perform_table hfront (nodup_profileFields s) before
    have hfields : profileFields s = optional "initial" s.initial ++ [("items", .texts [])] := by
      simp [profileFields, hitems]
    refine ⟨.table .header (settings (profileFields s)), ["profile_store"], ?_, ?_⟩
    · rw [if_neg (by simp [hfields]), List.map_nil, List.append_nil, List.foldlM_cons, htable]
      rfl
    · rw [Toml.Item.tree, Toml.memberTrees_settings, hfields, profilesTable, hitems, Field.members,
        List.map_append]
      rfl
  | cons p ps =>
    have hsome : s.items.isEmpty = false := by rw [hitems]; rfl
    obtain ⟨origin, root, after, hheader, hopen⟩ := perform_profileHeader hfront before hsome
    have hfields : profileFields s = optional "initial" s.initial := by simp [profileFields, hitems]
    have hnew : "items" ∉ (settings (profileFields s)).map Prod.fst := by
      rw [Toml.keys_settings, hfields]
      intro hmem
      obtain ⟨f, hf, hname⟩ := List.mem_map.mp hmem
      rw [eq_of_mem_optional hf] at hname
      revert hname
      decide
    have hnodup : ∀ p : Profile, ((profileSection p).fields.map Prod.fst).Nodup := by
      simp [profileSection]
    have hleads := Toml.Members.leads_table hfront origin
    have hfirst : Progress.perform? ⟨root, after⟩ (profileSection p) = some ⟨_, _⟩ :=
      Progress.perform_repeated hleads hnew hopen (by simp) after
    obtain ⟨closed, last, path, hrest, heq⟩ := Progress.perform_rows hleads hnew
      (ps.map fun p => (profileSection p).fields) (by simp [hnodup]) []
      ([] ++ settings (profileSection p).fields) (["profile_store"] ++ ["items"])
    refine ⟨.table origin (settings (profileFields s) ++ [("items", .tables closed last)]), path, ?_, ?_⟩
    · rw [List.map_map] at hrest
      rw [List.foldlM_append, hheader, List.map_cons]
      change (Progress.perform? ⟨root, after⟩ (profileSection p)).bind _ = _
      rw [hfirst]
      exact hrest
    · refine tree_profiles s hsome ?_
      rw [heq, hitems, List.map_map]
      rfl

theorem perform_sections (c : Config) : ∃ p, c.sections.foldlM Progress.perform? .start = some p ∧
    p.root.tree = Tree.ofValue c.table := by
  have hkeys : (([] : Toml.Members).map Prod.fst ++ c.firstTables.map Prod.fst).Nodup := by
    simp [firstTables]
  obtain ⟨before, hfirst⟩ := Progress.perform_tables hkeys c.nodup_firstTables []
  have hnew : "profile_store" ∉ (([] : Toml.Members) ++ Progress.headed c.firstTables).map Prod.fst := by
    simp [firstTables, Progress.headed]
  obtain ⟨item, path, hprofiles, htree⟩ := perform_profiles hnew before c.profiles
  refine ⟨⟨[] ++ Progress.headed c.firstTables ++ [("profile_store", item)], path⟩, ?_, ?_⟩
  · rw [sections_eq, List.foldlM_append, Progress.start, hfirst]
    exact hprofiles
  · simp [Toml.Members.tree, firstTables, Progress.headed, Toml.memberTrees, Toml.Item.tree,
      Toml.memberTrees_settings, table, tableOf, Tree.ofValue, Tree.ofMembers, htree]

theorem ofToml?_save {c : Config} {text : String} (h : c.save = .ok text) :
    ofToml? text.toList = some c := by
  unfold save at h
  split at h
  · next chars hwrite =>
    obtain rfl : String.ofList chars = text := Except.ok.inj h
    obtain ⟨p, hp, htree⟩ := perform_sections c
    have hread := Toml.read?_write hwrite (fun s => isNamed_sections) hp
    rw [String.toList_ofList, ofToml?, hread, htree, Option.bind_some, fit_table]
    exact decode?_table 123 c
  · cases h

/-- **What was saved is loaded again.** Whatever the texts, the lists and the options of a configuration
are, its file is read as the configuration that it was; it is refused only for a fault of its own. -/
theorem load_what_was_saved (c : Config) (text : String) (h : c.save = .ok text) :
    ofToml? text.toList = some c ∧
      load (some (Text.Utf8.encode text)) =
        match c.validate with
        | .ok () => .ok c
        | .error fault => .error fault.error := by
  have hread := ofToml?_save h
  have hbytes := Text.Utf8.decode?_encode text
  refine ⟨hread, ?_⟩
  simp only [load, hbytes, hread]
  cases c.validate <;> rfl

/-- Quotes, backslashes, line breaks, control characters and others in the texts, lists of every length
and options left out: loaded if that is valid, and refused with its own fault if it is not. -/
theorem load_what_was_saved_of_odd_texts :
    let c (port : UInt16) : Config :=
      { server := ⟨"\"\"\" ''' \\ \n \r\n \t", port⟩
        core := ⟨none, some "'\x00\x1b\x7f\u4e2d\u6587\"", 1⟩
        supervisor := ⟨["it's", "\"a\" \\ 'b'\nc"], [""]⟩
        profiles := ⟨none, [⟨"\n", ""⟩, ⟨"\\", "\\n"⟩]⟩ }
    (∃ text, (c 80).save = .ok text ∧ load (some (Text.Utf8.encode text)) = .ok (c 80)) ∧
      ∃ text, (c 0).save = .ok text ∧
        load (some (Text.Utf8.encode text)) = .error (.config "服务器端口不能为0") := by
  intro c
  exact ⟨⟨_, rfl, (load_what_was_saved (c 80) _ rfl).2⟩, _, rfl, (load_what_was_saved (c 0) _ rfl).2⟩

end Config

end CoreWarden
