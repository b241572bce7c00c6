import CoreWarden.Client.Message
import CoreWarden.Config.Core
import CoreWarden.Error
import CoreWarden.Proxy

/-!
Talking to the core. A query says what to send and what a response means; performing it uses the
transport once, or not at all while no endpoint is known. Whether to ask again is for the caller to
decide.
-/
namespace CoreWarden

open Json (Decode Value)

namespace Client

structure Query (α : Type) where
  method : Method
  path : String
  body : Option Value
  /-- The words for having no response. -/
  failure : String
  meaning : Response → Except Error α

structure Exchange (α : Type) where
  attempts : List (Request × Delivery)
  result : Except Error α

def Exchange.received (e : Exchange α) : List Request :=
  e.attempts.filterMap fun
    | (_, .unsent) => none
    | (request, _) => some request

/-- Whether a secret may stand in a header field: control characters but the tab may not. -/
def isPresentable (secret : String) : Bool :=
  secret.all fun c => c == '\t' || (' ' ≤ c && c != '\x7f')

namespace Query

/-- The request to an endpoint, which shows its secret if it has one. -/
def request? (q : Query α) (e : Endpoint) : Option Request :=
  if e.secret.all isPresentable then
    some ⟨q.method, e.url q.path, e.secret.map ("Bearer " ++ ·), q.body⟩
  else none

def outcome (q : Query α) : Delivery → Except Error α
  | .answered response => q.meaning response
  | .unsent | .unanswered => .error (.network q.failure)

def perform (q : Query α) (endpoint : Option Endpoint) (transport : Transport) : Exchange α :=
  match endpoint with
  | none => ⟨[], .error .notConfigured⟩
  | some e =>
    match q.request? e with
    | none => ⟨[], .error (.network q.failure)⟩
    | some request =>
      let delivery := transport request
      ⟨[(request, delivery)], q.outcome delivery⟩

@[simp] theorem perform_none (q : Query α) (transport : Transport) :
    q.perform none transport = ⟨[], .error .notConfigured⟩ := rfl

theorem length_attempts_le (q : Query α) (endpoint : Option Endpoint) (transport : Transport) :
    (q.perform endpoint transport).attempts.length ≤ 1 := by
  unfold perform
  split
  · simp
  · split <;> simp

end Query

/-- Reads a resource: a successful response shows it in JSON. -/
def lookUp (α : Type) [Decode α] (path : String) : Query α where
  method := .get
  path
  body := none
  failure := "请求内核 " ++ path ++ " 失败"
  meaning r :=
    if r.isSuccess then
      match Json.ofText? r.text with
      | some a => .ok a
      | none => .error (.serialization ⟨"内核 " ++ path, 0, 0⟩)
    else .error (.network ("内核 " ++ path ++ " 返回异常: status=" ++
      Http.StatusCode.describe "<unknown status code>" r.status ++ ", body_preview=" ++ r.preview))

def version : Query Version := lookUp Version "/version"

def proxies : Query ProxySnapshot := lookUp ProxySnapshot "/proxies"

def config : Query Value := lookUp Value "/configs"

def rejection (r : Response) : String :=
  let status := Http.StatusCode.describe "unknown" r.status
  if r.preview.isEmpty then status else status ++ ": " ++ r.preview

/-- Tells the core to switch to a configuration: any successful response confirms it. -/
def switch (configId : String) : Query Unit where
  method := .post
  path := "/configs/switch"
  body := some (.object [("name", .string configId)])
  failure := "提交配置切换失败"
  meaning r := if r.isSuccess then .ok () else .error (.switchRejected (rejection r))

end Client

/-- A client talks to the endpoint that it was told last. -/
structure Client where
  endpoint : Option Endpoint
  deriving DecidableEq

namespace Client

def ofSettings (s : CoreSettings) : Client := ⟨s.endpoint⟩

def isConfigured (c : Client) : Bool := c.endpoint.isSome

inductive Action where
  | setEndpoint (endpoint : Option Endpoint)
  | version
  | proxies
  | config
  | switch (configId : String)
  deriving DecidableEq

inductive Outcome where
  | none
  | version (exchange : Exchange Version)
  | proxies (exchange : Exchange ProxySnapshot)
  | config (exchange : Exchange Value)
  | switch (exchange : Exchange Unit)

def Outcome.attempts : Outcome → List (Request × Delivery)
  | none => []
  | version e => e.attempts
  | proxies e => e.attempts
  | config e => e.attempts
  | switch e => e.attempts

def Outcome.received : Outcome → List Request
  | none => []
  | version e => e.received
  | proxies e => e.received
  | config e => e.received
  | switch e => e.received

def act (c : Client) (transport : Transport) : Action → Outcome × Client
  | .setEndpoint endpoint => (.none, ⟨endpoint⟩)
  | .version => (.version (Client.version.perform c.endpoint transport), c)
  | .proxies => (.proxies (Client.proxies.perform c.endpoint transport), c)
  | .config => (.config (Client.config.perform c.endpoint transport), c)
  | .switch id => (.switch ((Client.switch id).perform c.endpoint transport), c)

def run (c : Client) : List (Transport × Action) → List Outcome
  | [] => []
  | (transport, action) :: rest =>
    let (outcome, c) := c.act transport action
    outcome :: c.run rest

end Client

end CoreWarden
