import ScimBridge.Json.Token

/-!
# Reading documents

A document is read token by token. The state holds the arrays and objects that are still open,
innermost first, and what may come next. A name that occurs twice in an object keeps its first place
and its last value. A document that is nested too deeply is given up where that shows, whatever
follows.
-/

namespace ScimBridge

/-- Why a text is read as no document: it breaks the rules of its format, or goes beyond what a
reader takes, such as the depth of nesting. -/
inductive DocumentFault where
  | malformed
  | beyondLimits
  deriving DecidableEq, Repr

namespace Document

/-- The most arrays and objects that may be open at once. -/
def maxDepth : Nat := 970

/-- An array or object that is still open; the items of an array are kept in reverse. -/
inductive Frame where
  | array (items : List Value)
  | object (members : Fields Value) (name : String)

/-- What may come next. -/
inductive Expected where
  | value
  | itemOrClose
  | nameOrClose (members : Fields Value)
  | name (members : Fields Value)
  | colon (members : Fields Value) (name : String)
  | afterItem (items : List Value)
  | afterMember (members : Fields Value)
  | nothing (result : Value)

/-- The open containers and what may come next. -/
structure Reading where
  frames : List Frame
  expected : Expected

/-- A value is complete: it goes into the innermost open container. -/
def Reading.close (v : Value) : List Frame → Reading
  | [] => ⟨[], .nothing v⟩
  | .array items :: outer => ⟨outer, .afterItem (v :: items)⟩
  | .object members name :: outer => ⟨outer, .afterMember (members.put name v)⟩

/-- A token where a value may begin. -/
def Reading.begin (frames : List Frame) : Token → Option Reading
  | .value v => some (.close v frames)
  | .string s => some (.close (.string s) frames)
  | .openArray => some ⟨frames, .itemOrClose⟩
  | .openObject => some ⟨frames, .nameOrClose []⟩
  | _ => none

/-- How many containers are open. -/
def Reading.depth (r : Reading) : Nat :=
  match r.expected with
  | .value | .nothing _ => r.frames.length
  | _ => r.frames.length + 1

/-- One token, if it fits. -/
def Reading.step? (r : Reading) (token : Token) : Option Reading :=
  match r.expected, token with
  | .value, t => Reading.begin r.frames t
  | .itemOrClose, .closeArray => some (.close (.array []) r.frames)
  | .itemOrClose, t => Reading.begin (.array [] :: r.frames) t
  | .nameOrClose members, .closeObject => some (.close (.object members) r.frames)
  | .nameOrClose members, .string s => some ⟨r.frames, .colon members s⟩
  | .name members, .string s => some ⟨r.frames, .colon members s⟩
  | .colon members name, .colon => some ⟨.object members name :: r.frames, .value⟩
  | .afterItem items, .comma => some ⟨.array items :: r.frames, .value⟩
  | .afterItem items, .closeArray => some (.close (.array items.reverse) r.frames)
  | .afterMember members, .comma => some ⟨r.frames, .name members⟩
  | .afterMember members, .closeObject => some (.close (.object members) r.frames)
  | _, _ => none

/-- One token. -/
def Reading.step (r : Reading) (token : Token) : Except DocumentFault Reading :=
  match r.step? token with
  | none => .error .malformed
  | some next => if maxDepth < next.depth then .error .beyondLimits else .ok next

/-- The value that tokens spell. -/
def ofTokens (tokens : List Token) : Except DocumentFault Value := do
  let r ← tokens.foldlM Reading.step ⟨[], .value⟩
  match r.expected with
  | .nothing v => return v
  | _ => throw .malformed

end Document

/-- The value of a document. -/
def Value.ofDocument (text : String) : Except DocumentFault Value :=
  Document.ofTokens (Document.tokens text.toList)

end ScimBridge
