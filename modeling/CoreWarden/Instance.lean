import CoreWarden.Json.Record

/-! Core processes as the process manager reports them. -/
namespace CoreWarden

open Json (Encode Decode encode field? fieldOr? Tree Value)

/-- How the core is run. A mode that is not known counts as `unknown`. -/
inductive RunMode where
  | sidecar
  | service
  | notRunning
  | unknown
  deriving DecidableEq, Inhabited

namespace RunMode

def name : RunMode → String
  | sidecar => "Sidecar"
  | service => "Service"
  | notRunning => "NotRunning"
  | unknown => "Unknown"

def label : RunMode → String
  | sidecar => "sidecar"
  | service => "service"
  | notRunning => "not_running"
  | unknown => "unknown"

def ofName (s : String) : RunMode :=
  ([sidecar, service, notRunning].find? (·.name == s)).getD unknown

end RunMode

instance : Encode RunMode := ⟨fun m => .string m.name⟩

instance : Decode RunMode := ⟨fun room tree => (tree.choice? room).map RunMode.ofName⟩

structure Instance where
  pid : UInt32
  name : String
  path : Option String
  running : Bool
  deriving DecidableEq, Inhabited

instance : Encode Instance where
  encode i := .object [("pid", encode i.pid), ("name", encode i.name), ("path", encode i.path),
    ("running", encode i.running)]

instance : Decode Instance where
  decode? := Tree.record?
    [("pid", .required), ("name", .required), ("path", .defaulted), ("running", .defaulted)]
    fun room fields => do
      let [pid, name, path, running] := fields | none
      return ⟨← field? room pid, ← field? room name, ← fieldOr? room none path,
        ← fieldOr? room true running⟩

structure StatusReport where
  instances : List Instance
  extra : Value
  runMode : RunMode

namespace StatusReport

/-- The processes that are alive, in the order of the report. -/
def running (r : StatusReport) : List Instance := r.instances.filter (·.running)

def runningCount (r : StatusReport) : Nat := r.running.length

end StatusReport

instance : Inhabited StatusReport := ⟨⟨[], .null, .unknown⟩⟩

instance : Encode StatusReport where
  encode r := .object [("instances", encode r.instances), ("extra", r.extra),
    ("run_mode", encode r.runMode)]

instance : Decode StatusReport where
  decode? := Tree.record?
    [("instances", .defaulted), ("extra", .defaulted), ("run_mode", .defaulted)]
    fun room fields => do
      let [instances, extra, runMode] := fields | none
      return ⟨← fieldOr? room [] instances, ← fieldOr? room .null extra,
        ← fieldOr? room .unknown runMode⟩

end CoreWarden
