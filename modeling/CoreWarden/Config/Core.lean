import CoreWarden.Endpoint
import CoreWarden.Json.Record

/-! The settings for talking to the core. -/
namespace CoreWarden

open Json (Encode Decode encode field? fieldOr? Tree)

structure CoreSettings where
  /-- Not known when absent: every call to the core then fails at once. -/
  baseUrl : Option String := some "http://127.0.0.1:9097"
  secret : Option String := none
  /-- In seconds. -/
  requestTimeout : UInt64 := 5
  deriving DecidableEq, Inhabited

namespace CoreSettings

inductive Fault where
  | emptyUrl
  | unknownScheme
  | noTimeout
  deriving DecidableEq

def Fault.message : Fault → String
  | emptyUrl => "内核 base_url 不能为空字符串，未知时请省略"
  | unknownScheme => "内核 base_url 必须以 http:// 或 https:// 开头"
  | noTimeout => "请求超时必须大于0"

def schemes : List String := ["http://", "https://"]

def hasScheme (url : String) : Bool := schemes.any fun s => s.toList.isPrefixOf url.toList

/-- The first fault in the order of `Fault`. -/
def validate (s : CoreSettings) : Except Fault Unit :=
  if s.baseUrl = some "" then .error .emptyUrl
  else if s.baseUrl.any (!hasScheme ·) then .error .unknownScheme
  else if s.requestTimeout = 0 then .error .noTimeout
  else .ok ()

/-- The endpoint of a known address; an empty secret is none. -/
def endpoint (s : CoreSettings) : Option Endpoint :=
  s.baseUrl.map fun url => ⟨url, s.secret.filter (· ≠ "")⟩

end CoreSettings

instance : Encode CoreSettings where
  encode s := .object [("base_url", encode s.baseUrl), ("secret", encode s.secret),
    ("request_timeout_secs", encode s.requestTimeout)]

instance : Decode CoreSettings where
  decode? := Tree.record?
    [("base_url", .nullable), ("secret", .nullable), ("request_timeout_secs", .required)]
    fun room fields => do
      let [baseUrl, secret, requestTimeout] := fields | none
      return ⟨← fieldOr? room none baseUrl, ← fieldOr? room none secret,
        ← field? room requestTimeout⟩

end CoreWarden
