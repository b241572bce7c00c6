import CoreWarden.Error

/-!
Profiles the core can be switched to, and the store that lists them and remembers the current one.
Main statements: setting the current profile succeeds exactly for a listed id, and never changes
the list.
-/
namespace CoreWarden

open Json (Encode Decode encode field? fieldOr? Tree)

structure Profile where
  id : String
  name : String
  deriving DecidableEq, Inhabited

instance : Encode Profile where
  encode p := .object [("id", encode p.id), ("name", encode p.name)]

instance : Decode Profile where
  decode? := Tree.record? [("id", .required), ("name", .required)] fun room fields => do
    let [id, name] := fields | none
    return ⟨← field? room id, ← field? room name⟩

/-- The profiles of a store, and the one it takes for active. -/
structure ProfileList where
  current : Option String
  items : List Profile
  deriving DecidableEq, Inhabited

instance : Encode ProfileList where
  encode l := .object [("current", encode l.current), ("items", encode l.items)]

instance : Decode ProfileList where
  decode? := Tree.record? [("current", .nullable), ("items", .required)] fun room fields => do
    let [current, items] := fields | none
    return ⟨← fieldOr? room none current, ← field? room items⟩

namespace ProfileList

def contains (l : ProfileList) (id : String) : Bool := l.items.any (·.id == id)

def setCurrent (l : ProfileList) (id : String) : Except Error ProfileList :=
  if l.contains id then .ok { l with current := some id }
  else .error (.notFound ("配置档案 " ++ id))

theorem setCurrent_ok_iff {l l' : ProfileList} {id : String} :
    l.setCurrent id = .ok l' ↔ l.contains id ∧ l' = { l with current := some id } := by
  by_cases h : l.contains id <;> simp [setCurrent, h, eq_comm]

theorem items_of_setCurrent {l l' : ProfileList} {id : String} (h : l.setCurrent id = .ok l') :
    l'.items = l.items := by
  rw [(setCurrent_ok_iff.1 h).2]

end ProfileList

end CoreWarden
