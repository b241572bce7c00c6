import CoreWarden.Json.Record

/-!
Proxies and proxy groups as the core lists them, and their shape: the groups with their members,
without the choice that is made in them. A shape has every group name once, in order, so that it
does not show in which order the groups were enumerated.
-/
namespace CoreWarden

open Json (Encode Decode encode field? fieldOr? Tree Value)

structure Version where
  version : String
  isMeta : Bool
  deriving DecidableEq, Inhabited

instance : Encode Version where
  encode v := .object [("version", encode v.version), ("meta", encode v.isMeta)]

instance : Decode Version where
  decode? := Tree.record? [("version", .required), ("meta", .defaulted)] fun room fields => do
    let [version, isMeta] := fields | none
    return ⟨← field? room version, ← fieldOr? room false isMeta⟩

/-- A proxy, or a group of proxies if it has members. -/
structure Proxy where
  name : String
  kind : String
  /-- The member chosen in a group. -/
  now : Option String
  members : Option (List String)
  deriving DecidableEq, Inhabited

instance : Encode Proxy where
  encode p := .object [("name", encode p.name), ("type", encode p.kind), ("now", encode p.now),
    ("all", encode p.members)]

instance : Decode Proxy where
  decode? := Tree.record?
    [("name", .required), ("type", .required), ("now", .defaulted), ("all", .defaulted)]
    fun room fields => do
      let [name, kind, now, members] := fields | none
      return ⟨← field? room name, ← field? room kind, ← fieldOr? room none now,
        ← fieldOr? room none members⟩

/-- A map: members of an object, of which the last counts where keys are equal. -/
structure Keyed (α : Type) where
  entries : List (String × α)
  deriving DecidableEq

namespace Keyed

def insertAll (found : List (String × α)) : List (String × α) → List (String × α)
  | [] => found
  | (k, v) :: rest => insertAll (Value.put k v found) rest

instance [Encode α] : Encode (Keyed α) := ⟨fun m => .object (m.entries.map fun e => (e.1, encode e.2))⟩

instance [Decode α] : Decode (Keyed α) where
  decode? room
    | .object members =>
      match room with
      | 0 => none
      | room + 1 => do
        let found ← Tree.keyed? members
        let entries ← found.mapM fun e => (Json.decode? room e.2).map fun v => (e.1, v)
        return ⟨insertAll [] entries⟩
    | _ => none

end Keyed

structure ProxySnapshot where
  proxies : Keyed Proxy
  deriving DecidableEq

instance : Inhabited ProxySnapshot := ⟨⟨⟨[]⟩⟩⟩

instance : Encode ProxySnapshot where
  encode s := .object [("proxies", encode s.proxies)]

instance : Decode ProxySnapshot where
  decode? := Tree.record? [("proxies", .defaulted)] fun room fields => do
    let [proxies] := fields | none
    return ⟨← fieldOr? room ⟨[]⟩ proxies⟩

/-- Groups with their members, in the order of the group names. -/
abbrev GroupShape := List (String × List String)

namespace GroupShape

/-- Sets the members of a group; the names stay in order and each stands once. -/
def insert (name : String) (members : List String) : GroupShape → GroupShape
  | [] => [(name, members)]
  | (n, ms) :: rest =>
    if name < n then (name, members) :: (n, ms) :: rest
    else if name = n then (name, members) :: rest
    else (n, ms) :: insert name members rest

def ofGroups (groups : List (String × List String)) : GroupShape :=
  groups.foldl (fun shape g => insert g.1 g.2 shape) []

end GroupShape

namespace ProxySnapshot

/-- The groups among the entries, under their own names. -/
def groups (s : ProxySnapshot) : List (String × List String) :=
  s.proxies.entries.filterMap fun e => e.2.members.map fun ms => (e.2.name, ms)

def groupShape (s : ProxySnapshot) : GroupShape := GroupShape.ofGroups s.groups

end ProxySnapshot

end CoreWarden
