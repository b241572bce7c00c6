import CoreWarden.OpenApi.Components

/-! The description of the whole service in the form of OpenAPI. -/
namespace CoreWarden.OpenApi

open Json (Value)

structure Operation where
  path : String
  method : String
  id : String
  /-- The name of the description of the body. -/
  body : Option String := none
  /-- The name and the description of a text in the path. -/
  parameter : Option (String × String) := none
  good : String
  failures : List (Nat × String) := []

namespace Operation

def tag : String := "配置同步"

def content (name : String) : String × Value :=
  ("content", .object [("application/json", .object [("schema", (Schema.reference name).value)])])

def parameterValue (name description : String) : Value :=
  .object [("name", .string name), ("in", .string "path"), ("description", .string description),
    ("required", .bool true), ("schema", Schema.string.value)]

def bodyValue (name : String) : Value := .object [content name, ("required", .bool true)]

def responses (o : Operation) : List (String × Value) :=
  ("200", .object [("description", .string o.good), content "ApiResponse"]) ::
    o.failures.map fun (status, words) => (toString status, .object [("description", .string words)])

def value (o : Operation) : Value :=
  .object ([("tags", .array [.string tag]), ("operationId", .string o.id)] ++
    (o.parameter.toList.map fun (name, words) => ("parameters", .array [parameterValue name words])) ++
    (o.body.toList.map fun name => ("requestBody", bodyValue name)) ++
    [("responses", .object o.responses)])

def all : List Operation :=
  [{ path := "/api/sync/status", method := "get", id := "get_sync_status", good := "当前同步状态" },
    { path := "/api/sync/switch", method := "post", id := "switch_config"
      body := some "SwitchConfigRequest", good := "切换完成或无需切换"
      failures := [(409, "已有其他操作在进行"), (422, "内核拒绝切换"), (503, "内核未配置或未在期限内恢复")] },
    { path := "/api/sync/reload", method := "post", id := "reload_core", good := "内核已重载"
      failures := [(409, "已有其他操作在进行"), (500, "进程管理器执行失败")] },
    { path := "/api/sync/recover", method := "post", id := "recover_from_error"
      good := "恢复完成或已在恢复中", failures := [(503, "恢复次数已用尽，需要手动重启")] },
    { path := "/api/sync/cores", method := "get", id := "check_running_cores", good := "内核进程检测结果" },
    { path := "/api/sync/visibility", method := "post", id := "set_visibility"
      body := some "VisibilityRequest", good := "已记录可见性变化" },
    { path := "/api/sync/cache/\x7bkey\x7d", method := "get", id := "get_cache_entry"
      parameter := some ("key", "缓存键：profiles、proxies 或 clash-config"), good := "缓存值"
      failures := [(400, "未知的缓存键"), (404, "尚未缓存")] }]

end Operation

def texts (members : List (String × String)) : Value :=
  .object (members.map fun (name, text) => (name, .string text))

namespace Document

def info : Value := .object
  [("title", .string "CoreSync API"),
    ("description", .string "代理内核配置同步与恢复控制器 REST API 文档"),
    ("license", texts [("name", "MIT"), ("url", "https://opensource.org/licenses/MIT")]),
    ("version", .string "1.0.0")]

def servers : Value := .array [texts [("url", "http://localhost:8080"), ("description", "开发环境")]]

def tags : Value := .array
  [texts [("name", Operation.tag), ("description", "配置切换、内核重载、错误恢复与多内核检测")],
    texts [("name", "系统监控"), ("description", "服务健康状态")]]

def value : Value := .object
  [("openapi", .string "3.0.3"), ("info", info), ("servers", servers),
    ("paths", .object (Operation.all.map fun o => (o.path, .object [(o.method, o.value)]))),
    ("components", .object [("schemas", .object (Components.all.map fun c =>
      (c.name, c.component.value c.description)))]),
    ("tags", tags)]

end Document

end CoreWarden.OpenApi
