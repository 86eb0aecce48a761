import ScimBridge.Text.Blank
import ScimBridge.Text.Classes
import ScimBridge.Json.Fields
import ScimBridge.Text.Split

/-!
# Names of schemas, messages and resource types
-/

namespace ScimBridge

namespace Urn

/-- The core schema of users. -/
def coreUser : String := "urn:ietf:params:scim:schemas:core:2.0:User"

/-- The core schema of groups. -/
def coreGroup : String := "urn:ietf:params:scim:schemas:core:2.0:Group"

/-- The enterprise extension of users. -/
def enterpriseUser : String := "urn:ietf:params:scim:schemas:extension:enterprise:2.0:User"

/-- The schema of schemas. -/
def schema : String := "urn:ietf:params:scim:schemas:core:2.0:Schema"

/-- The schema of resource types. -/
def resourceType : String := "urn:ietf:params:scim:schemas:core:2.0:ResourceType"

/-- The schema of the service provider's configuration. -/
def serviceProviderConfig : String :=
  "urn:ietf:params:scim:schemas:core:2.0:ServiceProviderConfig"

/-- The message that lists resources. -/
def listResponse : String := "urn:ietf:params:scim:api:messages:2.0:ListResponse"

/-- The message that asks for a list. -/
def searchRequest : String := "urn:ietf:params:scim:api:messages:2.0:SearchRequest"

/-- The message that asks for changes. -/
def patchOp : String := "urn:ietf:params:scim:api:messages:2.0:PatchOp"

/-- The message that reports an error. -/
def error : String := "urn:ietf:params:scim:api:messages:2.0:Error"

/-- Short names of schemas, in lower case. -/
def shortNames : Fields String :=
  [("user", coreUser), ("group", coreGroup), ("enterpriseuser", enterpriseUser)]

/-- The schema that an identifier in an address means: a short name in any case, a full name, or a
full name without its first part. -/
def ofIdentifier (id : Option String) : String :=
  let candidate := trimText (id.getD "")
  match Fields.get? shortNames (lowered candidate) with
  | some urn => urn
  | none =>
    if candidate ≠ "" ∧ beginsWith "urn:" (lowered candidate) = false then "urn:" ++ candidate
    else candidate

end Urn

/-- What a resource is: a user, a group, or something that this service does not know. -/
inductive ResourceType where
  | user
  | group
  | other
  deriving DecidableEq, Repr

namespace ResourceType

/-- The resource type of a name. -/
def ofName (name : String) : ResourceType :=
  if name = "User" then .user else if name = "Group" then .group else .other

end ResourceType

end ScimBridge
