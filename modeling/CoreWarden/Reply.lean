import CoreWarden.Json.Record

/-!
The uniform reply of the service: a business code, a message and optional data, and the transport
status that goes with the code.
-/
namespace CoreWarden

structure Reply where
  code : Int32
  message : String
  data : Option Json.Value

namespace Reply

def successCode : Int32 := 200

def success (data : Json.Value) (message : String := "操作成功") : Reply :=
  ⟨successCode, message, some data⟩

def failure (code : Int32) (message : String) : Reply := ⟨code, message, none⟩

def status (code : Int32) : Nat :=
  match code.toInt with
  | 200 => 200
  | 400 => 400
  | 404 => 404
  | 409 => 409
  | 422 => 422
  | 502 | 503 | 504 => 503
  | _ => 500

instance : Json.Encode Reply where
  encode r := .object
    [("code", Json.encode r.code), ("msg", .string r.message), ("data", Json.encode r.data)]

instance : Json.Decode Reply where
  decode? := Json.Tree.record? [("code", .required), ("msg", .required), ("data", .nullable)]
    fun room fields => do
      let [code, message, data] := fields | none
      return ⟨← Json.field? room code, ← Json.field? room message, ← Json.fieldOr? room none data⟩

end Reply

end CoreWarden
