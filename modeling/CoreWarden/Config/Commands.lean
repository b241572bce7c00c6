import CoreWarden.Json.Record

/-! The commands of the process manager, each as the name of a program and its arguments. -/
namespace CoreWarden

open Json (Encode Decode encode fieldOr? Tree)

structure Commands where
  restart : List String := []
  /-- Writes the state of the core as JSON. -/
  status : List String := []
  deriving DecidableEq, Inhabited

instance : Encode Commands where
  encode c := .object [("restart_command", encode c.restart), ("status_command", encode c.status)]

instance : Decode Commands where
  decode? := Tree.record? [("restart_command", .defaulted), ("status_command", .defaulted)]
    fun room fields => do
      let [restart, status] := fields | none
      return ⟨← fieldOr? room [] restart, ← fieldOr? room [] status⟩

end CoreWarden
