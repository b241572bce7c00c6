import CoreWarden.Client
import CoreWarden.Proofs.Json.Restored
import CoreWarden.Proofs.Text.Utf8
import Mathlib.Data.List.DropRight

/-!
What a client asks of the core, and what it makes of the answer. A call concerns the endpoint that was told
last and no other one: without an endpoint it fails at once, and with one it makes a single request.
-/
namespace CoreWarden

open Json (Decode Value)
open Text

namespace Endpoint

def extend (e : Endpoint) (slashes : Nat) : Endpoint :=
  { e with baseUrl := e.baseUrl ++ String.ofList (List.replicate slashes '/') }

theorem url_extend (e : Endpoint) (slashes : Nat) (path : String) :
    (e.extend slashes).url path = e.url path := by
  simp [url, extend, List.dropWhile_append_of_pos]

/-- An address is the base without the slashes at its end, followed by the path. -/
def Locates (e : Endpoint) (path address : String) : Prop :=
  ∃ (base : List Char) (slashes : Nat), e.baseUrl.toList = base ++ List.replicate slashes '/' ∧
    base.getLast? ≠ some '/' ∧ address.toList = base ++ path.toList

theorem locates_url (e : Endpoint) (path : String) : e.Locates path (e.url path) := by
  let base := e.baseUrl.toList.rdropWhile (· == '/')
  let rest := e.baseUrl.toList.rtakeWhile (· == '/')
  have hrest : rest = List.replicate rest.length '/' := List.eq_replicate_of_mem fun c hc => by
    simpa using List.mem_rtakeWhile_imp hc
  have hlast : ∀ hne : base ≠ [], base.getLast hne ≠ '/' := fun hne => by
    simpa using List.rdropWhile_last_not (· == '/') e.baseUrl.toList hne
  refine ⟨base, rest.length, ?_, fun h => ?_, by simp [url, base, List.rdropWhile]⟩
  · rw [← hrest, List.rdropWhile_append_rtakeWhile]
  · have hne : base ≠ [] := List.ne_nil_of_mem (List.mem_of_getLast? h)
    rw [List.getLast?_eq_some_getLast hne] at h
    exact hlast hne (Option.some.inj h)

end Endpoint

namespace Client

/-! ### Requests -/

structure Addressed (e : Endpoint) (method : Method) (path : String) (request : Request) : Prop where
  method_eq : request.method = method
  locates : e.Locates path request.url
  authorization_eq : request.authorization = e.secret.map ("Bearer " ++ ·)

/-- What the core reads in the bytes that are sent with a request. -/
def Request.content? (request : Request) : Option Value :=
  request.body.bind fun v => (Utf8.decode? (Utf8.encode (String.ofList v.write))).bind Json.ofText?

def Reads (path : String) (e : Endpoint) (request : Request) : Prop :=
  Addressed e .get path request ∧ request.body = none

/-- The request of a switch: its content names the configuration. -/
def Names (configId : String) (e : Endpoint) (request : Request) : Prop :=
  Addressed e .post "/configs/switch" request ∧
    ∃ v, request.content? = some v ∧ v.get? "name" = some (.string configId)

/-! ### Responses -/

/-- What comes of a response to a call that reads a resource. -/
def Shows [Decode α] (r : Response) (result : Except Error α) : Prop :=
  if 200 ≤ r.status ∧ r.status < 300 then ∀ a, result = .ok a ↔ Json.ofText? r.text = some a
  else ∃ message, result = .error (.network message)

/-- What a refusal quotes of a response: its first characters, after a colon, if it has any. -/
def Quotes (r : Response) (quote : String) : Prop :=
  r.text = [] ∧ quote = "" ∨ r.text ≠ [] ∧ quote = ": " ++ String.ofList (r.text.take 200)

/-- What comes of a response to a switch. -/
def Confirms (r : Response) (result : Except Error Unit) : Prop :=
  if 200 ≤ r.status ∧ r.status < 300 then result = .ok ()
  else ∃ quote, Quotes r quote ∧ result = .error (.switchRejected
    (toString r.status ++ " " ++ (Http.StatusCode.reason? r.status).getD "unknown" ++ quote))

theorem isSuccess_iff (r : Response) : r.isSuccess = true ↔ 200 ≤ r.status ∧ r.status < 300 := by
  simp [Response.isSuccess, Http.StatusCode.isSuccess]

theorem shows_meaning [Decode α] (path : String) (r : Response) :
    Shows r ((lookUp α path).meaning r) := by
  by_cases hs : r.isSuccess = true
  · have hread : ∀ a, (lookUp α path).meaning r = .ok a ↔ Json.ofText? r.text = some a := by
      intro a
      cases h : Json.ofText? (α := α) r.text <;> simp [lookUp, hs, h]
    simpa only [Shows, if_pos ((isSuccess_iff r).mp hs)] using hread
  · rw [Shows, if_neg (mt (isSuccess_iff r).mpr hs), lookUp]
    exact ⟨_, if_neg hs⟩

theorem rejection_eq (r : Response) : ∃ quote, Quotes r quote ∧ rejection r =
    toString r.status ++ " " ++ (Http.StatusCode.reason? r.status).getD "unknown" ++ quote := by
  have hempty : r.preview.isEmpty = true ↔ r.text = [] := by simp [Response.preview]
  by_cases ht : r.text = []
  · have hreason : rejection r = Http.StatusCode.describe "unknown" r.status := if_pos (hempty.mpr ht)
    exact ⟨"", .inl ⟨ht, rfl⟩, by rw [hreason, Http.StatusCode.describe, String.append_empty]⟩
  · have hreason : rejection r = Http.StatusCode.describe "unknown" r.status ++ ": " ++ r.preview :=
      if_neg (mt hempty.mp ht)
    refine ⟨": " ++ r.preview, .inr ⟨ht, rfl⟩, ?_⟩
    rw [hreason, Http.StatusCode.describe, String.append_assoc]

theorem confirms_meaning (configId : String) (r : Response) :
    Confirms r ((switch configId).meaning r) := by
  by_cases hs : r.isSuccess = true
  · rw [Confirms, if_pos ((isSuccess_iff r).mp hs), switch]
    exact if_pos hs
  · rw [Confirms, if_neg (mt (isSuccess_iff r).mpr hs), switch]
    obtain ⟨quote, hquote, hreason⟩ := rejection_eq r
    exact ⟨quote, hquote, (if_neg hs).trans (by rw [hreason])⟩

/-! ### Calls -/

/-- A call that asks what it should ask, if there is an endpoint to ask it, and takes the answer as it
should be taken. -/
structure Performed (endpoint : Option Endpoint) (transport : Transport)
    (asks : Endpoint → Request → Prop) (takes : Response → Except Error α → Prop)
    (exchange : Exchange α) : Prop where
  of_none : endpoint = none → exchange.attempts = [] ∧ exchange.result = .error .notConfigured
  of_some : ∀ e, endpoint = some e → e.secret.all isPresentable = true →
    ∃ request, asks e request ∧ exchange.attempts = [(request, transport request)] ∧
      ∀ r, transport request = .answered r → takes r exchange.result

theorem addressed_request (q : Query α) (e : Endpoint) :
    Addressed e q.method q.path ⟨q.method, e.url q.path, e.secret.map ("Bearer " ++ ·), q.body⟩ :=
  ⟨rfl, e.locates_url q.path, rfl⟩

theorem performed_perform (q : Query α) {asks : Endpoint → Request → Prop}
    {takes : Response → Except Error α → Prop}
    (hasks : ∀ e request, Addressed e q.method q.path request → request.body = q.body → asks e request)
    (htakes : ∀ r, takes r (q.meaning r)) (endpoint : Option Endpoint) (transport : Transport) :
    Performed endpoint transport asks takes (q.perform endpoint transport) where
  of_none h := by
    subst h
    exact ⟨rfl, rfl⟩
  of_some e h hsecret := by
    subst h
    simp only [Query.perform, Query.request?, if_pos hsecret]
    refine ⟨_, hasks e _ (addressed_request q e) rfl, rfl, fun r hr => ?_⟩
    rw [hr]
    exact htakes r

theorem performed_lookUp [Decode α] (path : String) (endpoint : Option Endpoint)
    (transport : Transport) : Performed endpoint transport (Reads path) Shows
      ((lookUp α path).perform endpoint transport) :=
  performed_perform _ (fun _ _ haddressed hbody => ⟨haddressed, hbody⟩) (shows_meaning path) _ _

theorem content?_name {request : Request} {configId : String}
    (h : request.body = some (.object [("name", .string configId)])) :
    request.content? = some (.object [("name", .string configId)]) := by
  let v : Value := .object [("name", .string configId)]
  have hfits : v.Fits Json.maxNesting := .object (by simp) (by simpa using .string configId)
  have hintegral : v.Integral := .object (by simpa using .string configId)
  have hread : Json.ofText? v.write = some v := (Json.restored_value hfits hintegral).ofText?
  rw [Request.content?, h, Option.bind_some, Utf8.decode?_encode, Option.bind_some,
    String.toList_ofList, hread]

theorem performed_switch (configId : String) (endpoint : Option Endpoint) (transport : Transport) :
    Performed endpoint transport (Names configId) Confirms
      ((switch configId).perform endpoint transport) :=
  performed_perform _ (fun _ _ haddressed hbody => ⟨haddressed, _, content?_name hbody, rfl⟩)
    (confirms_meaning configId) _ _

/-- What is to be expected of an action while a client has some endpoint. -/
inductive Lawful (endpoint : Option Endpoint) (transport : Transport) : Action → Outcome → Prop
  | setEndpoint (e : Option Endpoint) : Lawful endpoint transport (.setEndpoint e) .none
  | version {x} (h : Performed endpoint transport (Reads "/version") Shows x) :
      Lawful endpoint transport .version (.version x)
  | proxies {x} (h : Performed endpoint transport (Reads "/proxies") Shows x) :
      Lawful endpoint transport .proxies (.proxies x)
  | config {x} (h : Performed endpoint transport (Reads "/configs") Shows x) :
      Lawful endpoint transport .config (.config x)
  | switch {id x} (h : Performed endpoint transport (Names id) Confirms x) :
      Lawful endpoint transport (.switch id) (.switch x)

theorem lawful_act (c : Client) (transport : Transport) (action : Action) :
    Lawful c.endpoint transport action (c.act transport action).1 := by
  cases action with
  | setEndpoint e => exact .setEndpoint e
  | version => exact .version (performed_lookUp ..)
  | proxies => exact .proxies (performed_lookUp ..)
  | config => exact .config (performed_lookUp ..)
  | switch id => exact .switch (performed_switch ..)

theorem request?_extend (q : Query α) (e : Endpoint) (slashes : Nat) :
    q.request? (e.extend slashes) = q.request? e := by
  simp only [Query.request?, e.url_extend]
  rfl

theorem perform_extend (q : Query α) (endpoint : Option Endpoint) (slashes : Nat)
    (transport : Transport) :
    q.perform (endpoint.map (·.extend slashes)) transport = q.perform endpoint transport := by
  cases endpoint with
  | none => rfl
  | some e => simp only [Option.map_some, Query.perform, request?_extend]

theorem act_extend (endpoint : Option Endpoint) (slashes : Nat) (transport : Transport)
    (action : Action) : ((Client.mk (endpoint.map (·.extend slashes))).act transport action).1 =
      ((Client.mk endpoint).act transport action).1 := by
  cases action <;> simp only [act, perform_extend]

/-! ### One action after another -/

def Action.endpoint? : Action → Option (Option Endpoint)
  | .setEndpoint endpoint => some endpoint
  | _ => none

/-- The endpoint that a client was told last. -/
def told (c : Client) (script : List (Transport × Action)) : Option Endpoint :=
  (script.filterMap (·.2.endpoint?)).getLast?.getD c.endpoint

theorem told_cons (c : Client) (transport : Transport) (action : Action)
    (script : List (Transport × Action)) :
    c.told ((transport, action) :: script) = (c.act transport action).2.told script := by
  cases action <;> simp [told, act, Action.endpoint?, List.getLast?_cons]

theorem getElem?_run (c : Client) (script : List (Transport × Action)) (i : Nat) :
    (c.run script)[i]? =
      script[i]?.map fun (transport, action) =>
        ((Client.mk (c.told (script.take i))).act transport action).1 := by
  induction script generalizing c i with
  | nil => rfl
  | cons first script ih =>
    obtain ⟨transport, action⟩ := first
    cases i with
    | zero => rfl
    | succ i =>
      simp only [run, List.getElem?_cons_succ, List.take_succ_cons, told_cons]
      exact ih _ i

/-- Every action has its outcome. It is the one that is to be expected with the endpoint told last, and with
the one that has any number of slashes more. -/
theorem requests_follow_law (c : Client) (script : List (Transport × Action)) (i : Nat)
    (transport : Transport) (action : Action) (h : script[i]? = some (transport, action)) :
    ∃ outcome, (c.run script)[i]? = some outcome ∧
      Lawful (c.told (script.take i)) transport action outcome ∧
      ∀ slashes, let extended := (c.told (script.take i)).map (·.extend slashes)
        ((Client.mk extended).act transport action).1 = outcome :=
  ⟨_, by rw [getElem?_run, h]; rfl, lawful_act .., fun slashes => act_extend ..⟩

/-- The core refuses a switch to a name that no header could have, by a client that knew no endpoint at
first. -/
theorem requests_follow_law_refused :
    let e : Endpoint := ⟨"http://127.0.0.1:9090//", some "s3cret"⟩
    let refusal : Response := ⟨400, none, some (Utf8.encode "no such profile"), fun _ => none⟩
    let refuses : Transport := fun _ => .answered refusal
    let script : List (Transport × Action) :=
      [(refuses, .version), (refuses, .setEndpoint (some e)), (refuses, .switch "日本\n\"2\"")]
    let outcomes := (Client.mk none).run script
    (∃ x, outcomes[0]? = some (.version x) ∧ x.attempts = [] ∧ x.result = .error .notConfigured) ∧
      e.secret.all isPresentable = true ∧
      ∃ x request, outcomes[2]? = some (.switch x) ∧ Names "日本\n\"2\"" e request ∧
        x.attempts = [(request, .answered refusal)] ∧
        x.result = .error (.switchRejected "400 Bad Request: no such profile") := by
  intro e refusal refuses script outcomes
  have hpresentable : e.secret.all isPresentable = true := by
    rw [Option.all_some, isPresentable, String.all_bool_eq]
    decide
  have hquoted : refusal.text = "no such profile".toList := by
    simp only [refusal, Utf8.encode_eq]
    decide +kernel
  refine ⟨?_, hpresentable, ?_⟩
  · obtain ⟨_, hrun, hlawful, -⟩ := requests_follow_law ⟨none⟩ script 0 _ _ rfl
    cases hlawful with
    | version h => exact ⟨_, hrun, h.of_none rfl⟩
  · obtain ⟨_, hrun, hlawful, -⟩ := requests_follow_law ⟨none⟩ script 2 _ _ rfl
    cases hlawful with
    | switch h =>
      obtain ⟨request, hnames, hattempts, htakes⟩ := h.of_some _ rfl hpresentable
      refine ⟨_, request, hrun, hnames, hattempts, ?_⟩
      have hconfirms := htakes _ rfl
      rw [Confirms, if_neg (by decide)] at hconfirms
      obtain ⟨quote, ⟨htext, -⟩ | ⟨-, hquote⟩, hresult⟩ := hconfirms
      · exact absurd (hquoted.symm.trans htext) (by decide)
      · rw [hresult, hquote, hquoted]
        decide +kernel

end Client

end CoreWarden
