import ScimBridge.Http.Message
import ScimBridge.Service.Error

/-!
# Requests without a result

A request is refused by the service, denied before it reaches the service, or it fails for a reason
that nobody is told. On the paths of the service all three are answered as error messages of the
protocol, elsewhere as small objects.
-/

namespace ScimBridge

namespace Gateway

/-- Why a request is denied. -/
inductive Denial where
  | badRequest (description : String)
  | unreadable
  | unauthorized
  | forbidden
  | notFound
  | methodNotAllowed
  deriving DecidableEq, Repr

namespace Denial

/-- The status of a denial. -/
def status : Denial → Int
  | .badRequest _ | .unreadable => 400
  | .unauthorized => 401
  | .forbidden => 403
  | .notFound => 404
  | .methodNotAllowed => 405

/-- The name of a denial. -/
def name : Denial → String
  | .badRequest _ | .unreadable => "Bad Request"
  | .unauthorized => "Unauthorized"
  | .forbidden => "Forbidden"
  | .notFound => "Not Found"
  | .methodNotAllowed => "Method Not Allowed"

/-- The explanation of a denial. -/
def description : Denial → String
  | .badRequest description => description
  | .unreadable => "The browser (or proxy) sent a request that this server could not understand."
  | .unauthorized =>
    "The server could not verify that you are authorized to access the URL requested. You either "
      ++ "supplied the wrong credentials (e.g. a bad password), or your browser doesn't understand "
      ++ "how to supply the credentials required."
  | .forbidden =>
    "You don't have the permission to access the requested resource. It is either read-protected "
      ++ "or not readable by the server."
  | .notFound =>
    "The requested URL was not found on the server. If you entered the URL manually please check "
      ++ "your spelling and try again."
  | .methodNotAllowed => "The method is not allowed for the requested URL."

end Denial

/-- Why a request has no result. -/
inductive Fault where
  | refused (e : ScimError)
  | denied (d : Denial)
  | unexpected
  deriving DecidableEq, Repr

namespace Fault

/-- The fault for an error of the service. -/
def ofService : ServiceError → Fault
  | .scim e => .refused e
  | .misfit => .unexpected

/-- A refusal. -/
def refusal (status : Int) (detail scimType : String) : Fault :=
  .refused ⟨status, detail, some scimType⟩

/-- What is said about a failure. -/
def unexpectedText : String := "An unexpected error occurred"

/-- Whether a path belongs to the service. -/
def onService (path : String) : Bool := beginsWith "/scim/v2" path

/-- A small object about an error. -/
def notice (name description : String) : Value :=
  .object [("error", .string name), ("message", .string description)]

/-- The response to a request without a result. -/
def response (path : String) : Fault → Http.Response
  | .refused e => ⟨e.status, .json, .document e.toValue, none, none⟩
  | .denied d =>
    let body := if onService path then (ScimError.mk d.status d.description none).toValue
      else notice d.name d.description
    ⟨d.status, .json, .document body, none, none⟩
  | .unexpected =>
    let body := if onService path then (ScimError.mk 500 unexpectedText none).toValue
      else notice "Internal Server Error" unexpectedText
    ⟨500, .json, .document body, none, none⟩

end Fault

end Gateway

end ScimBridge
