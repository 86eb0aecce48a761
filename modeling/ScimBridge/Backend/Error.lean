import ScimBridge.Backend.Clock
import ScimBridge.Json.Shape

/-!
# Errors of the backend
-/

namespace ScimBridge

/-- Why an answer of the token server gives no token that could be used. -/
inductive TokenFault where
  /-- There is a value of this kind in place of an object. -/
  | notAnObject (kind : String)
  | noToken
  | lifetime (fault : WholeFault)
  | deadline (fault : Instant.SpanFault)
  deriving DecidableEq, Repr

/-- The member of the token server's answer that holds the token. -/
def TokenFault.tokenName : String := "access_token"

/-- The wording of an answer without a token. -/
def TokenFault.message : TokenFault → String
  | .notAnObject kind =>
    if kind = "list" then "list indices must be integers or slices, not str"
    else if kind = "str" then "string indices must be integers, not 'str'"
    else "'" ++ kind ++ "' object is not subscriptable"
  | .noToken => Text.quoted tokenName
  | .lifetime fault => fault.message
  | .deadline fault => fault.message

/-- Why a call of the backend gave no result. -/
inductive BackendError where
  /-- An answer with an error status, or status 0 where there was no answer. -/
  | api (status : Int) (endpoint text : String)
  /-- The object does not exist. -/
  | missing (object id : String)
  /-- The token server's answer is of no use. -/
  | token (fault : TokenFault)
  /-- The answer is no document; a reader has this to say. -/
  | unreadable (complaint : String)
  /-- The answer has a shape that cannot be used. -/
  | misfit
  deriving DecidableEq, Repr

/-- The wording of an error. -/
def BackendError.message : BackendError → String
  | .api status endpoint text =>
    "[" ++ toString status ++ "] " ++ endpoint ++ ": " ++ text
  | .missing object id => "managed/" ++ object ++ "/" ++ id ++ " not found"
  | .token fault => fault.message
  | .unreadable complaint => complaint
  | .misfit => ""

end ScimBridge
