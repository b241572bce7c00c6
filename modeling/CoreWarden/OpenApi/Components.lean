import CoreWarden.OpenApi.Schema

/-! The named descriptions: states, requests, results, cache entries and the reply. -/
namespace CoreWarden.OpenApi

structure Named where
  name : String
  description : Option String := none
  component : Component

namespace Components

open Property

def activity : Named where
  name := "Activity"
  description := some ("控制器当前正在执行的操作\n\n同一时刻只允许一个非 Idle 状态，" ++
    "状态迁移只能经由 \x60SyncState::try_enter\x60。")
  component := .names ["idle", "switching", "reloading", "recovering", "reconciling"]

def snapshot : Named where
  name := "SyncSnapshot"
  description := some "对外可观察的同步状态"
  component := .record
    [plain "activity" (.reference "Activity"), plain "is_switching" .boolean,
      plain "is_recovering" .boolean, plain "switch_error" (.nullable .string),
      plain "multi_core_warning" .boolean,
      plain "conflict" (.reference "ConflictStatus"),
      plain "running_cores" (.list (.reference "CoreInstanceInfo")),
      plain "current_config_name" (.nullable .string),
      plain "recovery_attempts" (.natural 32),
      plain "last_success_time" (.nullable .dateTime),
      plain "switch_history" (.list (.reference "SwitchHistoryEntry")),
      plain "last_reconcile_time" (.nullable .dateTime),
      plain "skipped_ticks" (.natural 64)]

def historyEntry : Named where
  name := "SwitchHistoryEntry"
  description := some "切换历史记录"
  component := .record [plain "config_id" .string, plain "timestamp" .dateTime,
    plain "success" .boolean]

def conflict : Named where
  name := "ConflictStatus"
  description := some "多内核检测结果"
  component := .choice "state"
    [⟨"conflict", [], none⟩, ⟨"no_conflict", [], none⟩,
      ⟨"unknown", [plain "reason" .string], some "进程管理器查询失败，状态未知；不阻塞切换"⟩]

def conflictReport : Named where
  name := "ConflictReport"
  component := .record [plain "status" (.reference "ConflictStatus"),
    plain "instances" (.list (.reference "CoreInstanceInfo"))]

def coreInstance : Named where
  name := "CoreInstanceInfo"
  description := some "一个正在运行的内核进程"
  component := .record [plain "pid" (.natural 32), plain "name" .string,
    plain "path" (.nullable .string), defaulted "running" .boolean]

def runMode : Named where
  name := "RunMode"
  description := some "内核运行模式"
  component := .names ["Sidecar", "Service", "NotRunning", "Unknown"]

def profile : Named where
  name := "ConfigProfile"
  description := some "可切换的配置档案"
  component := .record [plain "id" .string, plain "name" .string]

def switchRequest : Named where
  name := "SwitchConfigRequest"
  description := some "切换配置请求"
  component := .record [described "config_id" .string "目标配置档案ID"]

def visibilityRequest : Named where
  name := "VisibilityRequest"
  description := some "窗口可见性变化"
  component := .record [plain "visible" .boolean]

def switchOutcome : Named where
  name := "SwitchOutcome"
  component := .choice "result"
    [⟨"unchanged", [plain "config_id" .string], some "目标即当前配置，未调用内核"⟩,
      ⟨"switched",
        [plain "config_id" .string,
          described "conflict_remaining" .boolean "切换后仍检测到多个内核"],
        none⟩]

def recoveryOutcome : Named where
  name := "RecoveryOutcome"
  component := .choice "result"
    [⟨"recovered", [plain "attempt" (.natural 32), plain "reloaded" .boolean], none⟩,
      ⟨"already_recovering", [], none⟩]

def cacheKey : Named where
  name := "CacheKey"
  description := some "派生缓存的键"
  component := .names ["profiles", "proxies", "clash-config"]

def cacheEntry : Named where
  name := "CacheEntry"
  component := .record [plain "value" .free, plain "updated_at" .dateTime,
    described "stale" .boolean "已失效、等待重新拉取"]

/-- The reply carries data of a type that depends on the operation. -/
def reply : Named where
  name := "ApiResponse"
  description := some "统一API响应格式"
  component := .record [described "code" (.integer 32) "业务响应码",
    described "msg" .string "响应消息（中文）",
    plain "data" (.nullable (.reference "T"))]

def all : List Named :=
  [activity, snapshot, historyEntry, conflict, conflictReport, coreInstance, runMode, profile,
    switchRequest, visibilityRequest, switchOutcome, recoveryOutcome, cacheKey, cacheEntry, reply]

end Components

end CoreWarden.OpenApi
