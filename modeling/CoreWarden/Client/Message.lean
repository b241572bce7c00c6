import CoreWarden.Http.MediaType
import CoreWarden.Http.StatusCode
import CoreWarden.Json.Value
import CoreWarden.Process
import CoreWarden.Text.Charset

/-! What goes to the core and what comes back from it. -/
namespace CoreWarden.Client

inductive Method where
  | get
  | post
  deriving DecidableEq

def Method.name : Method → String
  | get => "GET"
  | post => "POST"

structure Request where
  method : Method
  url : String
  authorization : Option String
  /-- Sent as JSON. -/
  body : Option Json.Value

structure Response where
  status : Nat
  contentType : Option String := none
  /-- Not known when the connection breaks off within it. -/
  body : Option Bytes
  /-- How the transport reads texts in further character sets. -/
  decoders : Text.Decoders

namespace Response

/-- The character set that the content type names; UTF-8 if it names none that is known. -/
def charset (r : Response) : Text.Charset :=
  (((r.contentType.bind Http.MediaType.parse?).bind Http.MediaType.charset?).bind
    (Text.Charset.ofLabel? r.decoders)).getD .utf8

/-- The body as a text. One that did not arrive whole is not looked at. -/
def text (r : Response) : List Char :=
  if Http.StatusCode.isBodyless r.status then [] else r.charset.text (r.body.getD [])

def isSuccess (r : Response) : Bool := Http.StatusCode.isSuccess r.status

def preview (r : Response) : String := String.ofList (r.text.take 200)

end Response

inductive Delivery where
  /-- It did not reach the core. -/
  | unsent
  /-- It reached the core, and the connection ended without a response. -/
  | unanswered
  | answered (response : Response)

abbrev Transport := Request → Delivery

end CoreWarden.Client
