import ScimBridge.Gateway.Fault
import ScimBridge.Text.Classes

/-!
# Access

Callers of the service name themselves by a bearer token, operators by a token of the deployment.
Where an issuer is configured, the tokens of callers are validated as well; what the validation says
is taken as given.
-/

namespace ScimBridge

namespace Gateway

/-- The scheme of an authorization header in lower case, and what stands behind its first blank,
trimmed. -/
def authorization (header : String) : String × String :=
  let (scheme, rest) := Uri.around ' ' header.toList
  (String.ofList (lowerText scheme), trimText (String.ofList rest))

/-- The refusal of a caller. -/
def callerRefusal (detail : String) : Fault := .refusal 401 detail "unauthorized"

/-- The bearer token of an authorization header. -/
def bearerToken (header : String) : Except Fault String :=
  if header = "" then
    .error (callerRefusal
      "Authorization header missing. Provide 'Authorization: Bearer <token>'.")
  else
    let (scheme, token) := authorization header
    if scheme ≠ "bearer" then
      .error (callerRefusal "Authorization header must use Bearer token scheme.")
    else if token = "" then .error (callerRefusal "Bearer token is empty.")
    else .ok token

/-- What the validation of a token says. -/
inductive Verdict where
  /-- The token is valid and makes these claims. -/
  | valid (claims : Value)
  | expired
  | wrongIssuer (text : String)
  | wrongSignature
  | malformed (text : String)
  | invalid (text : String)
  /-- The validation itself failed. -/
  | broken

/-- The fault of a token that is not valid; claims have to be an object. -/
def Verdict.fault? : Verdict → Option Fault
  | .valid (.object _) => none
  | .valid _ => some .unexpected
  | .expired => some (callerRefusal "Token expired (exp claim)")
  | .wrongIssuer text => some (callerRefusal ("Invalid issuer: " ++ text))
  | .wrongSignature =>
    some (callerRefusal "Invalid signature (token tampered or wrong key)")
  | .malformed text =>
    some (callerRefusal ("Token decode error (malformed JWT): " ++ text))
  | .invalid text => some (callerRefusal ("Token validation failed: " ++ text))
  | .broken => some .unexpected

/-- Why an operator is denied: without a configured token there is nothing to see. -/
def operatorDenial? (adminToken header : String) : Option Denial :=
  if adminToken = "" then some .notFound
  else
    let (scheme, token) := authorization header
    if scheme ≠ "bearer" ∨ token = "" then some .unauthorized
    else if token ≠ adminToken then some .forbidden
    else none

/-- The text without some characters at both ends. -/
def stripped (c : Char) (s : String) : String := dropEnd c (dropFront c s)

/-- The revision that a header makes a change depend on: without quotes around it and without the
mark of a weak comparison, if anything is left. -/
def revisionOf (header : String) : Option String :=
  let raw := trimText header
  let revision := stripped '"' ((textAfter? "W/" raw).getD raw)
  if revision = "" then none else some revision

end Gateway

end ScimBridge
