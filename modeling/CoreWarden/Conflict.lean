import CoreWarden.Error
import CoreWarden.Instance

/-!
Whether several core processes run at once. A status query that fails leaves the question open,
which never blocks anything.
-/
namespace CoreWarden

open Json (Encode Decode encode field? fieldOr? Tree)

inductive Conflict where
  | conflict
  | noConflict
  | unknown (reason : String)
  deriving DecidableEq

instance : Inhabited Conflict := ⟨.noConflict⟩

instance : Encode Conflict where
  encode
    | .conflict => .object [("state", .string "conflict")]
    | .noConflict => .object [("state", .string "no_conflict")]
    | .unknown reason => .object [("state", .string "unknown"), ("reason", .string reason)]

instance : Decode Conflict where
  decode? room tree := do
    let (state, rest) ← tree.tagged? "state" room
    match state with
    | "conflict" => if rest.endsChoice then return .conflict else none
    | "no_conflict" => if rest.endsChoice then return .noConflict else none
    | "unknown" =>
      let [reason] ← rest.fields? [("reason", .required)] | none
      return .unknown (← field? room reason)
    | _ => none

/-- The result of a check: the verdict and the processes that were found alive. -/
structure ConflictReport where
  status : Conflict
  instances : List Instance
  deriving DecidableEq, Inhabited

namespace ConflictReport

def hasConflict (r : ConflictReport) : Bool := r.status = .conflict

/-- Two or more live processes are in conflict; no answer means nobody knows. -/
def ofStatus : Except Error StatusReport → ConflictReport
  | .ok report =>
    ⟨if 1 < report.running.length then .conflict else .noConflict, report.running⟩
  | .error e => ⟨.unknown e.message, []⟩

theorem hasConflict_ofStatus_ok (r : StatusReport) :
    (ofStatus (.ok r)).hasConflict = decide (1 < r.runningCount) := by
  by_cases h : 1 < r.running.length <;> simp [ofStatus, hasConflict, StatusReport.runningCount, h]

end ConflictReport

instance : Encode ConflictReport where
  encode r := .object [("status", encode r.status), ("instances", encode r.instances)]

instance : Decode ConflictReport where
  decode? := Tree.record? [("status", .required), ("instances", .required)]
    fun room fields => do
      let [status, instances] := fields | none
      return ⟨← field? room status, ← field? room instances⟩

end CoreWarden
