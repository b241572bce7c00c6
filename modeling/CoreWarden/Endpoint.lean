import CoreWarden.Json.Value

/-! Where the core is controlled, and with which secret. -/
namespace CoreWarden

open Json (Encode encode)

structure Endpoint where
  baseUrl : String
  secret : Option String
  deriving DecidableEq, Inhabited

instance : Encode Endpoint where
  encode e := .object [("base_url", encode e.baseUrl), ("secret", encode e.secret)]

namespace Endpoint

/-- The address of a resource: slashes at the end of the base are left out. -/
def url (e : Endpoint) (path : String) : String :=
  String.ofList (e.baseUrl.toList.reverse.dropWhile (· == '/')).reverse ++ path

theorem url_push_slash (e : Endpoint) (path : String) :
    url { e with baseUrl := e.baseUrl ++ "/" } path = e.url path := by
  simp [url]

end Endpoint

end CoreWarden
