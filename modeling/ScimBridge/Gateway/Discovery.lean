import ScimBridge.Gateway.Fault
import ScimBridge.Schema.Cache
import ScimBridge.Service.Paging

/-!
# Discovery

What the service says about itself: its abilities, its resource types and its schemas, the latter
two page by page.
-/

namespace ScimBridge

namespace Gateway

namespace Discovery

/-- A flag that says whether something is supported. -/
def supported (b : Bool) : Value := .object [("supported", .bool b)]

/-- The metadata of a document at an address. -/
def metadata (type location : String) : Value :=
  .object [("resourceType", .string type), ("location", .string location)]

/-- How callers name themselves. -/
def bearerScheme : Value :=
  .object
    [("type", .string "oauthbearertoken"),
     ("name", .string "OAuth Bearer Token"),
     ("description", .string "Authentication scheme using the OAuth Bearer Token Standard"),
     ("specUri", .string "https://www.rfc-editor.org/info/rfc6750"),
     ("primary", .bool true)]

/-- The abilities of the service. -/
def providerConfig (base : String) : Value :=
  .object
    [("schemas", .texts [Urn.serviceProviderConfig]),
     ("patch", supported true),
     ("bulk", .object
       [("supported", .bool false), ("maxOperations", .int 0), ("maxPayloadSize", .int 0)]),
     ("filter", .object [("supported", .bool true), ("maxResults", .int Paging.maxCount)]),
     ("changePassword", supported false),
     ("sort", supported false),
     ("etag", supported false),
     ("authenticationSchemes", .array [bearerScheme]),
     ("meta", metadata "ServiceProviderConfig" (base ++ "/ServiceProviderConfig"))]

/-- A resource type, by its name. -/
structure TypeEntry where
  name : String
  document : Value

/-- The entry of a resource type. -/
def typeEntry (base name endpoint description schema : String) (more : Fields Value) : TypeEntry :=
  { name
    document := .object
      ([("schemas", .texts [Urn.resourceType]),
        ("id", .string name),
        ("name", .string name),
        ("endpoint", .string endpoint),
        ("description", .string description),
        ("schema", .string schema),
        ("meta", metadata "ResourceType" (base ++ "/ResourceTypes/" ++ name))] ++ more) }

/-- The resource types. Users have the enterprise extension if it is published. -/
def resourceTypes (base : String) (hasEnterprise : Bool) : List TypeEntry :=
  let extensions : Fields Value :=
    if hasEnterprise then
      [("schemaExtensions", .array
        [.object [("schema", .string Urn.enterpriseUser), ("required", .bool false)]])]
    else []
  [typeEntry base "User" "/Users" "User Account" Urn.coreUser extensions,
   typeEntry base "Group" "/Groups" "Group" Urn.coreGroup []]

/-- The resource type of a name in any case. -/
def resourceType (base : String) (hasEnterprise : Bool) (name : String) : Except Fault Value :=
  match (resourceTypes base hasEnterprise).find? fun e => lowered e.name == lowered name with
  | some e => .ok e.document
  | none => .error (.refused ⟨404, "ResourceType " ++ name ++ " not found", none⟩)

/-- A number of a query that is a whole number. -/
def wholeText? (v : Value) : Option Int := v.toWhole.toOption

/-- Where a list starts and, if that is asked for, how many items it holds. -/
def pageOf? (query : Fields Value) : Option (Int × Option Int) := do
  let start ← wholeText? ((Value.filled? query "startIndex").getD (.int 1))
  match Value.filled? query "count" with
  | none => return (max 1 start, none)
  | some v => return (max 1 start, some (max 0 (← wholeText? v)))

/-- One page of documents. -/
def pageOf (documents : List Value) (query : Fields Value) : Except Fault Value :=
  match pageOf? query with
  | none => .error (.refusal 400 "startIndex and count must be integers" "invalidValue")
  | some (start, count) =>
    let rest := documents.drop (start - 1).toNat
    let page := match count with
      | none => rest
      | some n => rest.take n.toNat
    .ok (Paging.listMessage page (.int documents.length) start)

/-- The schemas that are published, unless none have been compiled yet. -/
def published (s : Schema.Snapshot) : Except Fault Schema.Snapshot :=
  if s.initialized then .ok s
  else .error (.refused ⟨503, "Schemas are not available yet", none⟩)

/-- The fault of a schema that is not published. -/
def missingSchema (id : String) : Fault :=
  .refused ⟨404, "Schema " ++ id ++ " not found", none⟩

end Discovery

end Gateway

end ScimBridge
