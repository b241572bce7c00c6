import CoreWarden.Json.Record

/-! What clients send along with a request to act. -/
namespace CoreWarden.Http

open Json (Encode Decode encode field? Tree)

/-- The profile to switch to. -/
structure SwitchPayload where
  configId : String
  deriving DecidableEq

instance : Encode SwitchPayload where
  encode p := .object [("config_id", encode p.configId)]

instance : Decode SwitchPayload where
  decode? := Tree.record? [("config_id", .required)] fun room fields => do
    let [configId] := fields | none
    return ⟨← field? room configId⟩

structure VisibilityPayload where
  visible : Bool
  deriving DecidableEq

instance : Encode VisibilityPayload where
  encode p := .object [("visible", encode p.visible)]

instance : Decode VisibilityPayload where
  decode? := Tree.record? [("visible", .required)] fun room fields => do
    let [visible] := fields | none
    return ⟨← field? room visible⟩

end CoreWarden.Http
