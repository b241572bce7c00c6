import CoreWarden.Json.Record

/-! What the controller is doing. At most one activity other than `idle` goes on at a time. -/
namespace CoreWarden

inductive Activity where
  | idle
  | switching
  | reloading
  | recovering
  | reconciling
  deriving DecidableEq, Inhabited

namespace Activity

def all : List Activity := [idle, switching, reloading, recovering, reconciling]

def name : Activity → String
  | idle => "idle"
  | switching => "switching"
  | reloading => "reloading"
  | recovering => "recovering"
  | reconciling => "reconciling"

def label : Activity → String
  | idle => "空闲"
  | switching => "切换配置"
  | reloading => "重载内核"
  | recovering => "错误恢复"
  | reconciling => "后台对账"

def ofName? (s : String) : Option Activity := all.find? (·.name == s)

end Activity

instance : Json.Encode Activity := ⟨fun a => .string a.name⟩

instance : Json.Decode Activity := ⟨fun room tree => (tree.choice? room).bind Activity.ofName?⟩

end CoreWarden
