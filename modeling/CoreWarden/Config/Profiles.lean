import CoreWarden.Profile

/-!
The profiles that a configuration lists, and the one to begin with. They are valid when every id is
written out, no id stands twice, and the first one is listed.
-/
namespace CoreWarden

open Json (Encode Decode encode fieldOr? Tree)

structure ProfileSettings where
  initial : Option String := none
  items : List Profile := []
  deriving DecidableEq, Inhabited

namespace ProfileSettings

inductive Fault where
  | emptyId
  | repeatedId (id : String)
  | unknownInitial (id : String)
  deriving DecidableEq

def Fault.message : Fault → String
  | emptyId => "配置档案ID不能为空"
  | repeatedId id => "配置档案ID重复: " ++ id
  | unknownInitial id => "初始配置档案不存在: " ++ id

/-- Looks for the first profile whose id is empty or was seen before. -/
def checkIds (seen : List String) : List Profile → Except Fault Unit
  | [] => .ok ()
  | p :: rest =>
    if p.id = "" then .error .emptyId
    else if p.id ∈ seen then .error (.repeatedId p.id)
    else checkIds (p.id :: seen) rest

def checkInitial (s : ProfileSettings) : Except Fault Unit :=
  match s.initial with
  | none => .ok ()
  | some id => if s.items.any (·.id == id) then .ok () else .error (.unknownInitial id)

def validate (s : ProfileSettings) : Except Fault Unit := do
  checkIds [] s.items
  s.checkInitial

def store (s : ProfileSettings) : ProfileList := ⟨s.initial, s.items⟩

end ProfileSettings

instance : Encode ProfileSettings where
  encode s := .object [("initial", encode s.initial), ("items", encode s.items)]

instance : Decode ProfileSettings where
  decode? := Tree.record? [("initial", .nullable), ("items", .defaulted)] fun room fields => do
    let [initial, items] := fields | none
    return ⟨← fieldOr? room none initial, ← fieldOr? room [] items⟩

end CoreWarden
