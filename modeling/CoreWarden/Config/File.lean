import CoreWarden.Config.Basic
import CoreWarden.Text.Utf8
import CoreWarden.Toml.Layout
import CoreWarden.Toml.Reader

/-!
The configuration as a file. What is loaded has been validated; what is saved need not be valid.
-/
namespace CoreWarden

open Json (Piece Tree)

/-- Where records may stand in a tree. In a file an array that stands for a record may be longer than
the record: `fit` leaves out what is beyond its fields. -/
inductive Shape where
  | field
  | list (item : Shape)
  | record (fields : List (String × Shape))

namespace Shape

mutual

def fit : Shape → Tree → Tree
  | .field, tree => tree
  | .list item, .array items => .array (items.map item.fit)
  | .list _, tree => tree
  | .record fields, .array items => .array (fitItems fields items)
  | .record fields, .object members =>
    .object (members.map fun (key, tree) => (key, fitMember fields key tree))
  | .record _, tree => tree

def fitItems : List (String × Shape) → List Tree → List Tree
  | (_, shape) :: fields, item :: items => shape.fit item :: fitItems fields items
  | _, _ => []

def fitMember : List (String × Shape) → List Piece → Tree → Tree
  | [], _, tree => tree
  | (name, shape) :: fields, key, tree =>
    if key = name.toList.map .char then shape.fit tree else fitMember fields key tree

end

def ofNames (names : List String) : Shape := .record (names.map fun name => (name, .field))

end Shape

namespace Config

def shape : Shape := .record
  [("server", .ofNames ["host", "port"]),
    ("core", .ofNames ["base_url", "secret", "request_timeout_secs"]),
    ("supervisor", .ofNames ["restart_command", "status_command"]),
    ("sync", .ofNames ["conflict_resolution_wait_ms", "switch_grace_ms", "restart_wait_ms",
      "health_probe_interval_ms", "health_probe_max_wait_ms", "attempt_reset_ms",
      "reconcile_interval_ms", "visibility_delay_ms", "conflict_poll_interval_ms",
      "invalidate_debounce_ms", "max_recovery_attempts", "history_limit"]),
    ("profile_store", .record [("initial", .field), ("items", .list (.ofNames ["id", "name"]))])]

def ofToml? (text : List Char) : Option Config :=
  (Toml.read? text).bind fun tree => Json.decode? Json.maxNesting (shape.fit tree)

def load (file : Option (List UInt8)) : Except Error Config := do
  let some bytes := file | throw (.io "文件不存在")
  let some text := Text.Utf8.decode? bytes | throw (.io "文件不是UTF-8文本")
  let some config := ofToml? text | throw (.config "解析配置文件失败")
  config.validate.mapError Fault.error
  return config

/-! ### Saving -/

def optional (name : String) (value : Option String) : List (String × Toml.Field) :=
  value.toList.map fun s => (name, .text s)

def serverSection (s : ServerSettings) : Toml.Section :=
  ⟨["server"], false, [("host", .text s.host), ("port", .natural s.port.toNat)]⟩

def coreSection (s : CoreSettings) : Toml.Section :=
  ⟨["core"], false, optional "base_url" s.baseUrl ++ optional "secret" s.secret ++
    [("request_timeout_secs", .natural s.requestTimeout.toNat)]⟩

def supervisorSection (c : Commands) : Toml.Section :=
  ⟨["supervisor"], false, [("restart_command", .texts c.restart), ("status_command", .texts c.status)]⟩

def syncSection (t : Timings) : Toml.Section :=
  ⟨["sync"], false,
    [("conflict_resolution_wait_ms", .natural t.conflictResolutionWait.toNat),
      ("switch_grace_ms", .natural t.switchGrace.toNat),
      ("restart_wait_ms", .natural t.restartWait.toNat),
      ("health_probe_interval_ms", .natural t.healthProbeInterval.toNat),
      ("health_probe_max_wait_ms", .natural t.healthProbeMaxWait.toNat),
      ("attempt_reset_ms", .natural t.attemptReset.toNat),
      ("reconcile_interval_ms", .natural t.reconcileInterval.toNat),
      ("visibility_delay_ms", .natural t.visibilityDelay.toNat),
      ("conflict_poll_interval_ms", .natural t.conflictPollInterval.toNat),
      ("invalidate_debounce_ms", .natural t.invalidateDebounce.toNat),
      ("max_recovery_attempts", .natural t.maxRecoveryAttempts.toNat),
      ("history_limit", .natural t.historyLimit.toNat)]⟩

def profileSection (p : Profile) : Toml.Section :=
  ⟨["profile_store", "items"], true, [("id", .text p.id), ("name", .text p.name)]⟩

/-- Without profiles the list is written out as empty. A header that would have nothing below it but
other headers is left out. -/
def profileSections (s : ProfileSettings) : List Toml.Section :=
  let fields := optional "initial" s.initial ++ if s.items.isEmpty then [("items", .texts [])] else []
  (if fields.isEmpty then [] else [⟨["profile_store"], false, fields⟩]) ++ s.items.map profileSection

def sections (c : Config) : List Toml.Section :=
  [serverSection c.server, coreSection c.core, supervisorSection c.supervisor, syncSection c.sync] ++
    profileSections c.profiles

def save (c : Config) : Except Error String :=
  match Toml.write? c.sections with
  | some text => .ok (String.ofList text)
  | none => .error (.config "序列化配置失败")

end Config

end CoreWarden
