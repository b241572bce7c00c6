import CoreWarden.Json.Complaint
import CoreWarden.Reply

/-!
What can go wrong, by cause. `Error.message` is the one place that words the causes;
`Error.reply` says what a client of the service is told.
-/
namespace CoreWarden

inductive Error where
  /-- No control address of the core is known. -/
  | notConfigured
  | network (detail : String)
  | switchRejected (reason : String)
  /-- The core did not recover within the health wait. -/
  | timeout (waited : Nat)
  | recoveryExhausted (attempts : UInt32)
  | busy (activity : String)
  | supervisor (detail : String)
  | serialization (complaint : Json.Complaint)
  | io (detail : String)
  | config (detail : String)
  | internal (detail : String)
  | badRequest (detail : String)
  | notFound (resource : String)
  deriving DecidableEq, Inhabited

namespace Error

def message : Error → String
  | notConfigured => "内核控制地址未配置"
  | network detail => "网络错误: " ++ detail
  | switchRejected reason => "内核拒绝切换配置: " ++ reason
  | timeout waited => "等待内核恢复超时: 已等待 " ++ toString waited ++ " 毫秒"
  | recoveryExhausted attempts =>
    "自动恢复已失败 " ++ toString attempts.toNat ++ " 次，请手动重启应用"
  | busy activity => "已有操作正在进行: " ++ activity
  | supervisor detail => "进程管理器错误: " ++ detail
  | serialization complaint => "序列化错误: " ++ complaint.text
  | io detail => "IO错误: " ++ detail
  | config detail => "配置错误: " ++ detail
  | internal detail => "内部错误: " ++ detail
  | badRequest detail => "请求参数错误: " ++ detail
  | notFound resource => "资源不存在: " ++ resource

/-- Failures of the connection may pass by themselves; a health wait goes on after them quietly. -/
def isTransient : Error → Bool
  | network _ | timeout _ => true
  | _ => false

def code : Error → Int32
  | notConfigured => 503
  | network _ | timeout _ => 502
  | switchRejected _ => 422
  | recoveryExhausted _ => 504
  | busy _ => 409
  | supervisor _ => 501
  | badRequest _ => 400
  | notFound _ => 404
  | serialization _ | io _ | config _ | internal _ => 500

/-- What a client is told: failures inside the service are not explained. -/
def publicMessage : Error → String
  | serialization _ => "数据序列化错误"
  | io _ => "文件IO错误"
  | internal _ => "服务器内部错误"
  | e => e.message

def reply (e : Error) : Reply := .failure e.code e.publicMessage

end Error

end CoreWarden
