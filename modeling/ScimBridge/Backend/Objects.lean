import ScimBridge.Backend.Client

/-!
# Managed objects

Users and roles are managed objects of the backend: they are queried page by page, read, created,
replaced, patched and deleted, each with the token of the caller. Filters, places, sizes, lists of
fields and revisions go to the backend as they were given; one that is not filled in counts as not
given.
-/

namespace ScimBridge

namespace Backend

namespace Objects

/-- The query that every object meets. -/
def matchAll : String := "true"

/-- The address of a collection. -/
def collectionPath (object : String) : String := "/openidm/managed/" ++ object

/-- The address of an object. -/
def objectPath (object id : String) : String := collectionPath object ++ "/" ++ id

/-- A number that may be a total: a truth value counts as a number. -/
def isTotal : Value → Bool
  | .int n => decide (0 ≤ n)
  | .bool _ => true
  | _ => false

/-- The total that an answer gives; a negative number means that there is none. -/
def totalOf (answer : Fields Value) : Value :=
  let named (name : String) : Option Value := (answer.get? name).filter isTotal
  match named "totalPagedResults" with
  | some v => v
  | none => (named "resultCount").getD (.int 0)

/-- The parameter that a query filter goes into. -/
def filterParam (filter : Value) : String × Value :=
  ("_queryFilter", if filter.filled then filter else .string matchAll)

/-- The parameter that asks for exact totals. -/
def exactParam : String × Value := ("_totalPagedResultsPolicy", .string "EXACT")

/-- The members of an answer, which are needed here. -/
def membersOf (v : Value) : Action (Fields Value) :=
  match v with
  | .object members => pure members
  | _ => throw .misfit

/-- How many objects meet a filter. -/
def count (object : String) (filter : Value) (token : Option String) : Action Value := do
  let params := [filterParam filter, ("_countOnly", .string "true"), exactParam]
  let answer ← requestDocument "GET" (collectionPath object)
    { params := some (.object params) } token
  return totalOf (← membersOf answer)

/-- How many items a value has. -/
def sizeOf? : Value → Option Nat
  | .array items => some items.length
  | .object members => some members.length
  | .table entries => some entries.length
  | .string s => some (CodePoint.points s.toList).length
  | _ => none

/-- One page of objects and the total over all pages. -/
structure Page where
  total : Value
  results : Value

/-- Which page of which objects is asked for; `start` counts from 1. -/
structure Query where
  filter : Value := .string ""
  start : Value := .int 1
  count : Value := .int 100
  fields : Option Value := none

/-- The parameter that asks for some fields only. -/
def fieldsParam (fields : Option Value) : Fields Value :=
  (fields.filter Value.filled).toList.map fun v => ("_fields", v)

/-- How many objects are in front of a page, whose beginning has to be a number. -/
def offsetOf (start : Value) : Action Value :=
  match start.whole?, start with
  | some n, _ => pure (.int (max n 1 - 1))
  | none, .double x => pure (if x.isBelowOne then .int 0 else .double x.less1)
  | none, _ => throw .misfit

/-- The total of a page: the one that was counted, unless it is zero. -/
def pageTotal (counted results : Value) : Action Value :=
  if counted.filled then pure counted
  else match sizeOf? results with
    | some n => pure (.int n)
    | none => throw .misfit

/-- One page of the objects that meet a filter. The total is asked for first; a page of size zero is
not asked for at all. -/
def query (object : String) (q : Query) (token : Option String) : Action Page := do
  let counted ← count object q.filter token
  if q.count == .int 0 then return ⟨counted, .array []⟩
  let offset ← offsetOf q.start
  let params : Fields Value :=
    [filterParam q.filter,
     ("_pagedResultsOffset", offset),
     ("_pageSize", q.count),
     exactParam]
  let answer ← requestDocument "GET" (collectionPath object)
    { params := some (.object (params ++ fieldsParam q.fields)) } token
  let results := (Value.filled? (← membersOf answer) "result").getD (.array [])
  return ⟨← pageTotal counted results, results⟩

/-- An object that is not there is reported by its name. -/
def namingMissing {α : Type} (object id : String) (action : Action α) : Action α :=
  tryCatch action fun e =>
    match e with
    | .api status _ _ => throw (if status = 404 then .missing object id else e)
    | _ => throw e

/-- Read an object. -/
def read (object id : String) (fields : Option Value) (token : Option String) :
    Action Value := do
  let params := match fieldsParam fields with
    | [] => none
    | wanted => some (Value.object wanted)
  let (_, text) ← namingMissing object id
    (request "GET" (objectPath object id) { params } token)
  readDocument text

/-- Create an object whose identifier the backend chooses. -/
def create (object : String) (body : Value) (token : Option String) : Action (Fields Value) := do
  let answer ← requestDocument "POST" (collectionPath object)
    { json := some body, params := some (.object [("_action", .string "create")]) } token
  membersOf answer

/-- The header that makes a change depend on a revision. -/
def revisionHeader (revision : Value) : Fields Value := [("If-Match", revision)]

/-- Replace an object that exists: without a revision, any one will do. -/
def replace (object id : String) (body : Value) (revision : Option Value)
    (token : Option String) : Action Value := do
  let headers := revisionHeader ((revision.filter Value.filled).getD (.string "*"))
  let (_, text) ← namingMissing object id
    (request "PUT" (objectPath object id) { json := some body, headers } token)
  readDocument text

/-- The headers of a change that may depend on a revision. -/
def optionalRevision (revision : Option Value) : Fields Value :=
  ((revision.filter Value.filled).map revisionHeader).getD []

/-- Apply patch operations to an object. -/
def patch (object id : String) (operations : Value) (revision : Option Value)
    (token : Option String) : Action Value := do
  let (_, text) ← namingMissing object id
    (request "PATCH" (objectPath object id)
      { json := some operations, headers := optionalRevision revision } token)
  readDocument text

/-- Delete an object. -/
def delete (object id : String) (revision : Option Value) (token : Option String) :
    Action Unit := do
  let _ ← namingMissing object id
    (request "DELETE" (objectPath object id) { headers := optionalRevision revision } token)

end Objects

end Backend

end ScimBridge
