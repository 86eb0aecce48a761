import ScimBridge.Json.Fields
import ScimBridge.Text.CodePoint
import ScimBridge.Text.Split

/-!
# Files

The files that a program may read, by their paths relative to its directory. A path whose names
are too long is refused where the search meets such a name; a search that ends before finds nothing.
-/

namespace ScimBridge

/-- Texts of files by path. -/
abbrev Files := Fields String

namespace Files

/-- The parts of a path that say something. -/
def parts (path : String) : List String :=
  (cutText '/' path).filter fun p => p != "" && p != "."

/-- A path without empty parts and without parts that mean the directory itself. -/
def tidy (path : String) : String :=
  let inner := "/".intercalate (parts path)
  if beginsWith "/" path then "/" ++ inner else if inner = "" then "." else inner

/-- A text with a line feed for every line end. -/
def unifyLines : List Char → List Char
  | '\r' :: '\n' :: rest => '\n' :: unifyLines rest
  | '\r' :: rest => '\n' :: unifyLines rest
  | c :: rest => c :: unifyLines rest
  | [] => []

/-- Why a file cannot be read. -/
inductive Fault where
  | missing
  | nameTooLong
  deriving DecidableEq, Repr

/-- The most bytes of one name. -/
def maxNameBytes : Nat := 255

/-- The least number of bytes that is too many for a path. -/
def pathLimit : Nat := 4096

/-- Whether some file lies below a directory, which is given by its names. -/
def hasDirectory (files : Files) (names : List String) : Bool :=
  files.any fun p =>
    let own := parts p.1
    names.isPrefixOf own && names.length < own.length

/-- The number of bytes of a text. -/
def byteSize (s : String) : Nat := (String.ofList (CodePoint.replaced s.toList)).utf8ByteSize

/-- Whether a search meets a name that is too long, `behind` the directories that it has passed. -/
def meetsLongName (files : Files) (behind : List String) : List String → Bool
  | [] => false
  | name :: rest =>
    if maxNameBytes < byteSize name then true
    else hasDirectory files (behind ++ [name]) && meetsLongName files (behind ++ [name]) rest

/-- Whether the names of a path are too long to be looked for. -/
def isTooLong (files : Files) (path : String) : Bool :=
  !path.toList.contains '\x00' &&
    (decide (pathLimit ≤ byteSize (tidy path)) || meetsLongName files [] (parts path))

/-- The text of a file. -/
def read (files : Files) (path : String) : Except Fault String :=
  match Fields.get? files (tidy path) with
  | some text => .ok (String.ofList (unifyLines text.toList))
  | none => .error (if isTooLong files path then .nameTooLong else .missing)

/-- The ending of a file name with its point, unless the point stands first or last. -/
def extension (path : String) : String :=
  match (parts path).getLast? with
  | none => ""
  | some name =>
    let pieces := cutAt '.' name.toList
    match pieces.getLast? with
    | none => ""
    | some ending =>
      let stem := joinWith '.' pieces.dropLast
      if stem = [] ∨ ending = [] then "" else String.ofList ('.' :: ending)

end Files

end ScimBridge
