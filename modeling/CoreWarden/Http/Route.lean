import CoreWarden.Controller.Step
import CoreWarden.Http.Body
import CoreWarden.Http.MediaType
import CoreWarden.Http.Target

/-!
The routes of the service. A request leads to a route or is rejected with a bare status; a route may
need a call to the controller, and has a reply.
-/
namespace CoreWarden.Http

open Json (Value encode)

structure Request where
  method : String
  target : Target
  contentType : Option String
  body : String

def isFieldChar (c : Char) : Bool := c == '\t' || 32 ≤ c.toNat && c.toNat != 127

/-- There is no request with a method that is not a word, a target that cannot be read, or a header
field that cannot be sent. -/
def Request.of? (method target : String) (contentType : Option String) (body : String) :
    Option Request :=
  if !method.isEmpty && method.toList.all MediaType.isToken &&
      contentType.all (·.toList.all isFieldChar) then
    (Target.parse? target).map fun target => { method, target, contentType, body }
  else none

/-- The media type of the body. A header field with characters that ASCII does not have cannot be
read. -/
def Request.mediaType? (r : Request) : Option MediaType :=
  (r.contentType.filter (·.toList.all (·.toNat < 128))).bind MediaType.parse?

inductive Route where
  | health (detail : Bool)
  | status
  | switch (configId : String)
  | reload
  | recover
  | cores
  | visibility (visible : Bool)
  | cacheEntry (key : String)
  deriving DecidableEq

inductive Resource where
  | health
  | status
  | switch
  | reload
  | recover
  | cores
  | visibility
  | cache (key : List Char)

def Resource.ofPath? (path : List Char) : Option Resource :=
  match (Target.splitOn '/' path).map String.ofList with
  | ["", "health"] => some .health
  | ["", "api", "sync", "status"] => some .status
  | ["", "api", "sync", "switch"] => some .switch
  | ["", "api", "sync", "reload"] => some .reload
  | ["", "api", "sync", "recover"] => some .recover
  | ["", "api", "sync", "cores"] => some .cores
  | ["", "api", "sync", "visibility"] => some .visibility
  | ["", "api", "sync", "cache", key] => if key = "" then none else some (.cache key.toList)
  | _ => none

/-- Whether a resource is read; the others are told to act. -/
def Resource.isRead : Resource → Bool
  | .health | .status | .cores | .cache _ => true
  | _ => false

/-- What is read can also be asked for without its body. -/
def Resource.allows (r : Resource) (method : String) : Bool :=
  if r.isRead then method == "GET" || method == "HEAD" else method == "POST"

namespace Route

def detail? (t : Target) : Option Bool :=
  match (t.pairs.filter fun p => String.ofList p.1 == "detail").map fun p => String.ofList p.2 with
  | [] => some false
  | ["true"] => some true
  | ["false"] => some false
  | _ => none

/-- A JSON body with one field, or the status of the rejection. -/
def body (r : Request) (name : String) (value : Body.Read α) : Except Nat α :=
  if r.mediaType?.any MediaType.isJson then
    match Body.read name value r.body.toList with
    | .ok a => .ok a
    | .error .malformed => .error 400
    | .error .unfitting => .error 422
  else .error 415

def ofRequest (r : Request) : Except Nat Route :=
  match Resource.ofPath? r.target.path with
  | none => .error 404
  | some resource =>
    if resource.allows r.method then
      match resource with
      | .health =>
        match detail? r.target with
        | some detail => .ok (.health detail)
        | none => .error 400
      | .status => .ok .status
      | .switch => (body r "config_id" Body.string).map .switch
      | .reload => .ok .reload
      | .recover => .ok .recover
      | .cores => .ok .cores
      | .visibility => (body r "visible" Body.bool).map .visibility
      | .cache key =>
        match Text.Utf8.decode? (Target.bytes key) with
        | some key => .ok (.cacheEntry (String.ofList key))
        | none => .error 400
    else .error 405

def event? : Route → Option Event
  | switch id => some (.call (.switch id))
  | reload => some (.call .reload)
  | recover => some (.call .recover)
  | cores => some (.call .check)
  | visibility visible => some (.visibility visible)
  | health _ | status | cacheEntry _ => none

def awaitsResult : Route → Bool
  | switch _ | reload | recover | cores => true
  | _ => false

def version : String := "0.1.0"

def healthReply (c : Controller) (detail : Bool) : Reply :=
  if detail then .success (.object
    [("status", .string "healthy"), ("version", .string version),
      ("timestamp", encode c.shared.wall), ("activity", encode c.snapshot.activity),
      ("current_config", encode c.snapshot.currentConfig),
      ("multi_core_warning", encode c.snapshot.multiCoreWarning)])
  else .success (.object [("status", .string "ok")])

def cacheReply (c : Controller) (name : String) : Reply :=
  match CacheKey.ofName? name with
  | none => (Error.badRequest (CacheKey.invalidMessage name)).reply
  | some key =>
    match c.cache.find? key with
    | none => (Error.notFound ("缓存 " ++ key.name)).reply
    | some entry => .success (encode entry)

def reply (c : Controller) : Route → Reply
  | health detail => healthReply c detail
  | status => .success (encode c.snapshot)
  | visibility true => .success (.bool true) "已安排对账"
  | visibility false => .success (.bool false) "已取消待执行的对账"
  | cacheEntry key => cacheReply c key
  | _ => .success .null

def resultReply? (c : Controller) : Result → Option Reply
  | .switch (.ok outcome) => some (.success (encode outcome))
  | .reload (.ok ()) => some (.success (encode c.snapshot) "内核重载完成")
  | .recover (.ok outcome) => some (.success (encode outcome))
  | .check report => some (.success (encode report))
  | .switch (.error e) | .reload (.error e) | .recover (.error e) => some e.reply
  | _ => none

end Route

structure Response where
  status : Nat
  body : Option Value

def Response.ofReply (method : String) (r : Reply) : Response :=
  ⟨Reply.status r.code, if method == "HEAD" then none else some (encode r)⟩

end CoreWarden.Http
