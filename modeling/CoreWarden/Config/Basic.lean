import CoreWarden.Config.Commands
import CoreWarden.Config.Core
import CoreWarden.Config.Profiles
import CoreWarden.Error
import CoreWarden.Timings

/-! The configuration of the service, and what makes it invalid. -/
namespace CoreWarden

open Json (Encode Decode encode field? fieldOr? Tree)

structure ServerSettings where
  host : String := "127.0.0.1"
  port : UInt16 := 8080
  deriving DecidableEq, Inhabited

def ServerSettings.address (s : ServerSettings) : String := s.host ++ ":" ++ toString s.port.toNat

instance : Encode ServerSettings where
  encode s := .object [("host", encode s.host), ("port", encode s.port)]

instance : Decode ServerSettings where
  decode? := Tree.record? [("host", .required), ("port", .required)] fun room fields => do
    let [host, port] := fields | none
    return ⟨← field? room host, ← field? room port⟩

structure Config where
  server : ServerSettings := {}
  core : CoreSettings := {}
  supervisor : Commands := {}
  sync : Timings := {}
  profiles : ProfileSettings := {}
  deriving DecidableEq, Inhabited

namespace Config

def standard : Config := {}

inductive Fault where
  | noPort
  | core (fault : CoreSettings.Fault)
  | sync (fault : Timings.Fault)
  | profiles (fault : ProfileSettings.Fault)
  deriving DecidableEq

def Fault.message : Fault → String
  | noPort => "服务器端口不能为0"
  | core fault => "内核配置无效: " ++ fault.message
  | sync fault => "同步配置无效: " ++ fault.message
  | profiles fault => "配置档案无效: " ++ fault.message

def Fault.error (fault : Fault) : Error := .config fault.message

def validate (c : Config) : Except Fault Unit := do
  if c.server.port = 0 then throw .noPort
  c.core.validate.mapError .core
  c.sync.validate.mapError .sync
  c.profiles.validate.mapError .profiles

end Config

instance : Encode Config where
  encode c := .object [("server", encode c.server), ("core", encode c.core),
    ("supervisor", encode c.supervisor), ("sync", encode c.sync),
    ("profile_store", encode c.profiles)]

instance : Decode Config where
  decode? := Tree.record?
    [("server", .required), ("core", .required), ("supervisor", .defaulted), ("sync", .defaulted),
      ("profile_store", .defaulted)]
    fun room fields => do
      let [server, core, supervisor, sync, profiles] := fields | none
      return ⟨← field? room server, ← field? room core, ← fieldOr? room {} supervisor,
        ← fieldOr? room .standard sync, ← fieldOr? room {} profiles⟩

end CoreWarden
