import ScimBridge.Http.Uri
import ScimBridge.Json.Reader
import ScimBridge.Text.Encoding
import ScimBridge.Text.Integer

/-!
# Requests and responses

Names of headers are compared without regard to case, and the values of a name that is given several
times are one list. A query gives its parameters in order; the first of several of one name counts.
-/

namespace ScimBridge

namespace Http

/-- The methods that the service knows. -/
inductive Method where
  | get
  | head
  | post
  | put
  | patch
  | delete
  | other
  deriving DecidableEq, Repr

/-- The method of a word, in any case. -/
def Method.ofWord (word : String) : Method :=
  match String.ofList (word.toList.map Char.toUpper) with
  | "GET" => .get
  | "HEAD" => .head
  | "POST" => .post
  | "PUT" => .put
  | "PATCH" => .patch
  | "DELETE" => .delete
  | _ => .other

/-- A request: the target is the raw path with its query, the peer the network address of whoever
sent it. -/
structure Request where
  method : String
  target : String
  headers : List (String × String) := []
  body : String := ""
  peer : String := ""

/-- A header name in its common form. -/
def headerKey (name : String) : List Char :=
  name.toList.map fun c => if c = '-' then '_' else c.toUpper

/-- The value of a header. -/
def Request.header? (r : Request) (name : String) : Option String :=
  match r.headers.filter fun p => headerKey p.1 == headerKey name with
  | [] => none
  | found => some (", ".intercalate (found.map Prod.snd))

/-- The value of a header, empty where it is absent. -/
def Request.header (r : Request) (name : String) : String := (r.header? name).getD ""

/-- Whether a text goes on over a line end. The value of a header may not. -/
def breaksLine (s : String) : Bool := s.toList.any fun c => c == '\n' || c == '\r'

/-- Whether the headers of a request can be sent. -/
def Request.isSendable (r : Request) : Bool := r.headers.all fun p => !breaksLine p.2

/-- Whether a request comes in pieces. -/
def Request.isChunked (r : Request) : Bool := r.header "Transfer-Encoding" == "chunked"

/-- The body of a request as far as it is read: a body that comes in pieces has no known end and
counts as empty. -/
def Request.content (r : Request) : String := if r.isChunked then "" else r.body

/-- Whether a request announces a body and then brings none. -/
def Request.isCutShort (r : Request) : Bool :=
  match readWhole (r.header "Content-Length") with
  | .ok length => decide (0 < length) && !r.isChunked && r.body == ""
  | .error _ => false

/-- The document in the body of a request, in the encoding that its bytes show. A mark of the byte
order in front does not count. -/
def Request.document (r : Request) : Except DocumentFault Value :=
  let bytes := Percent.bytesOfChars r.content.toList
  let text := (textAfter? "\uFEFF" r.content).getD r.content
  match (Encoding.ofFirstBytes bytes).decode? bytes text with
  | some text => Value.ofDocument text
  | none => .error .malformed

/-- A target: the scheme and the host that it names or that are usual, its path behind the percent
signs, and the parameters of its query. -/
structure Target where
  scheme : String
  host : String
  path : String
  query : Fields Value

/-- The name or the value of a parameter. A plus sign is a blank. -/
def parameterText (cs : List Char) : String :=
  String.ofList
    (Percent.decode Percent.keeping (cs.map fun c => if c = '+' then ' ' else c))

/-- The parameters of a query in order. -/
def parameters (query : String) : List (String × String) :=
  ((cutAt '&' query.toList).filter (· ≠ [])).map fun piece =>
    let (name, value) := Uri.around '=' piece
    (parameterText name, parameterText value)

/-- The parameters by name; the first of several of one name counts. -/
def queryOf (query : String) : Fields Value :=
  (parameters query).foldl (fun found p => found.putNew p.1 (.string p.2)) []

/-- The path behind percent signs, with one slash in front. -/
def pathOf (raw : String) : String :=
  "/" ++ dropFront '/' (String.ofList (Percent.decode Percent.replacing raw.toList))

/-- A text where it is not empty. -/
def orWhenEmpty (s other : String) : String := if s = "" then other else s

/-- The target of a text, if that is an address whose parts can be sent. What stands behind the host
is taken for an address once more. -/
def Target.ofText? (s : String) : Option Target := do
  let given ← Uri.ofText? s
  let origin := orWhenEmpty given.scheme "http" ++ "://" ++ orWhenEmpty given.authority "localhost"
  let server ← Uri.ofText? (← Uri.sent? (origin ++ "/"))
  let below ← Uri.ofText? (given.path ++ Uri.marked "?" given.query)
  let path ← Uri.sent? below.path
  return { scheme := server.scheme, host := server.authority
           path := pathOf path, query := queryOf below.query }

/-- The kinds of content. -/
inductive Media where
  | json
  | scim
  | plain
  | html
  deriving DecidableEq, Repr

/-- The text of a kind of content. -/
def Media.text : Media → String
  | .json => "application/json"
  | .scim => "application/scim+json"
  | .plain => "text/plain"
  | .html => "text/html; charset=utf-8"

/-- What a response holds. -/
inductive Body where
  | empty
  | document (v : Value)
  | text (s : String)

/-- A response. -/
structure Response where
  status : Int
  media : Media
  body : Body
  location : Option String := none
  correlation : Option String := none

/-- The response to a method: where only the head is asked for, the body is left out. -/
def Response.toMethod (r : Response) (method : Method) : Response :=
  match method with
  | .head => { r with body := .empty }
  | _ => r

/-- The response as it is sent, with the address that it names in ASCII. -/
def Response.sent? (r : Response) : Option Response :=
  match r.location with
  | none => some r
  | some location => (Uri.sent? location).map fun address => { r with location := some address }

/-! ## Lists in headers -/

/-- The items of a list with commas. Commas inside quotes do not divide, a backslash inside quotes
stands for the character behind it, and a list does not end with an empty item. The flags say
whether the text stands inside quotes and behind a backslash; `item` is what was read of the current
item, in reverse. -/
def listItems (quoted escaped : Bool) (item : List Char) : List Char → List (List Char)
  | [] => if item = [] then [] else [item.reverse]
  | c :: cs =>
    if escaped then listItems quoted false (c :: item) cs
    else if quoted && c = '\\' then listItems quoted true item cs
    else if c = '"' then listItems (!quoted) false (c :: item) cs
    else if c = ',' && !quoted then item.reverse :: listItems false false [] cs
    else listItems quoted false (c :: item) cs

/-- An item without the quotes around it. -/
def unquoted (item : List Char) : List Char :=
  if 2 ≤ item.length ∧ item.head? = some '"' ∧ item.getLast? = some '"' then
    (item.drop 1).dropLast
  else item

/-- The items of a header that holds a list. -/
def headerItems (s : String) : List String :=
  (listItems false false [] s.toList).map fun item => String.ofList (unquoted (trim item))

end Http

end ScimBridge
