import CoreWarden.Json.Record

/-! How switches, recoveries and reconciliations end when they do not fail. -/
namespace CoreWarden

open Json (Encode Decode encode field? fieldOr? Tree)

inductive SwitchOutcome where
  /-- The profile was current already; the core was not called. -/
  | unchanged (configId : String)
  | switched (configId : String) (conflictRemaining : Bool)
  deriving DecidableEq

instance : Encode SwitchOutcome where
  encode
    | .unchanged id => .object [("result", .string "unchanged"), ("config_id", encode id)]
    | .switched id remaining => .object [("result", .string "switched"), ("config_id", encode id),
        ("conflict_remaining", encode remaining)]

instance : Decode SwitchOutcome where
  decode? room tree := do
    let (result, rest) ← tree.tagged? "result" room
    match result with
    | "unchanged" =>
      let [id] ← rest.fields? [("config_id", .required)] | none
      return .unchanged (← field? room id)
    | "switched" =>
      let [id, remaining] ←
        rest.fields? [("config_id", .required), ("conflict_remaining", .required)] | none
      return .switched (← field? room id) (← field? room remaining)
    | _ => none

inductive RecoveryOutcome where
  | recovered (attempt : UInt32) (reloaded : Bool)
  /-- Another recovery is going on; this one did nothing. -/
  | alreadyRecovering
  deriving DecidableEq

instance : Encode RecoveryOutcome where
  encode
    | .recovered attempt reloaded => .object [("result", .string "recovered"),
        ("attempt", encode attempt), ("reloaded", encode reloaded)]
    | .alreadyRecovering => .object [("result", .string "already_recovering")]

instance : Decode RecoveryOutcome where
  decode? room tree := do
    let (result, rest) ← tree.tagged? "result" room
    match result with
    | "recovered" =>
      let [attempt, reloaded] ←
        rest.fields? [("attempt", .required), ("reloaded", .required)] | none
      return .recovered (← field? room attempt) (← field? room reloaded)
    | "already_recovering" => if rest.endsChoice then return .alreadyRecovering else none
    | _ => none

inductive TickOutcome where
  /-- Another activity was going on. -/
  | skipped
  | unchanged
  /-- The current profile or the shape of the groups has changed. -/
  | changed
  | fetchFailed
  deriving DecidableEq

def TickOutcome.name : TickOutcome → String
  | skipped => "Skipped"
  | unchanged => "Unchanged"
  | changed => "Changed"
  | fetchFailed => "FetchFailed"

end CoreWarden
