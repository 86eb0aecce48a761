import ScimBridge.Net.Address
import ScimBridge.Net.HostName
import ScimBridge.Text.Percent

/-!
# Addresses of the web

An address has a scheme, an authority, a path, a query and a fragment, any of which may be empty. The
authority names a user, a host and a port. An address is sent in ASCII and shown with the letters
that its ASCII form stands for.

Main statement: an address without scheme and authority is shown as its path, query and fragment.
-/

namespace ScimBridge

/-- The parts of an address. -/
structure Uri where
  scheme : String := ""
  authority : String := ""
  path : String := ""
  query : String := ""
  fragment : String := ""
  deriving DecidableEq, Repr

namespace Uri

/-! ## Cutting an address -/

/-- What stands before the first of some characters, and the rest from there on. -/
def before (stops : List Char) (cs : List Char) : List Char × List Char :=
  (cs.takeWhile fun c => !stops.contains c, cs.dropWhile fun c => !stops.contains c)

/-- What stands before and behind the first of a character; behind it is nothing where the character
is absent. -/
def around (c : Char) (cs : List Char) : List Char × List Char :=
  let (front, rest) := before [c] cs
  (front, rest.drop 1)

/-- Whether characters can be a scheme. -/
def isScheme (cs : List Char) : Bool :=
  (cs.head?.map Char.isAlpha).getD false && cs.all fun c => c.isAlphanum || "+-.".toList.contains c

/-- The scheme and what stands behind its colon. -/
def cutScheme (cs : List Char) : List Char × List Char :=
  let (front, rest) := before [':'] cs
  if rest ≠ [] ∧ isScheme front then (front.map Char.toLower, rest.drop 1) else ([], cs)

/-- The authority behind two slashes and what stands behind it. -/
def cutAuthority : List Char → List Char × List Char
  | '/' :: '/' :: rest => before ['/', '?', '#'] rest
  | cs => ([], cs)

/-- Whether a text in brackets is an address of the long family, or one of a later version. -/
def isBracketedHost (cs : List Char) : Bool :=
  match cs with
  | 'v' :: rest =>
    let (version, behind) := around '.' rest
    !version.isEmpty && version.all (fun c => (Document.hexValue? c).isSome) && !behind.isEmpty
  | _ => (Net.Address.ofText? .v6 (String.ofList cs)).isSome

/-- Characters whose folded form holds one that ends an authority or a part of one. -/
def impostors : List Char :=
  ['\u2047', '\u2048', '\u2049', '\u2100', '\u2101', '\u2105', '\u2106', '\u2A74', '\uFE13',
   '\uFE16', '\uFE55', '\uFE56', '\uFE5F', '\uFE6B', '\uFF03', '\uFF0F', '\uFF1A', '\uFF1F',
   '\uFF20']

/-- Whether an authority may be taken at its word: brackets stand around an address, and no character
stands in for another one. -/
def isSound (authority : List Char) : Bool :=
  let opened := authority.contains '['
  let closed := authority.contains ']'
  opened == closed
    && (!opened || isBracketedHost (around ']' (around '[' authority).2).1)
    && !authority.any impostors.contains

/-- The parts of an address, if its authority is sound. Control characters and blanks in front do
not count, nor do tabs and line breaks anywhere. -/
def ofText? (s : String) : Option Uri :=
  let cs := (s.toList.dropWhile (· ≤ ' ')).filter (· ∉ ['\t', '\r', '\n'])
  let (scheme, rest) := cutScheme cs
  let (authority, rest) := cutAuthority rest
  let (rest, fragment) := around '#' rest
  let (path, query) := around '?' rest
  if isSound authority then
    some
      { scheme := String.ofList scheme, authority := String.ofList authority
        path := String.ofList path, query := String.ofList query
        fragment := String.ofList fragment }
  else none

/-! ## Joining an address -/

/-- A text behind a mark, or nothing where the text is empty. -/
def marked (mark text : String) : String := if text = "" then "" else mark ++ text

/-- The schemes whose addresses have two slashes also where they have no authority. -/
def slashedSchemes : List String :=
  ["ftp", "http", "gopher", "nntp", "telnet", "imap", "wais", "file", "mms", "https", "shttp",
   "snews", "prospero", "rtsp", "rtsps", "rtspu", "rsync", "svn", "svn+ssh", "sftp", "nfs", "git",
   "git+ssh", "ws", "wss", "itms-services"]

/-- The text of an address. -/
def text (u : Uri) : String :=
  let path :=
    if u.authority ≠ "" ∨ slashedSchemes.contains u.scheme ∨ beginsWith "//" u.path then
      let gap := if u.path = "" ∨ beginsWith "/" u.path then "" else "/"
      "//" ++ u.authority ++ gap ++ u.path
    else u.path
  let scheme := if u.scheme = "" then "" else u.scheme ++ ":"
  scheme ++ path ++ marked "?" u.query ++ marked "#" u.fragment

theorem text_of_path (path query fragment : String) (h : beginsWith "//" path = false) :
    text { path, query, fragment } = path ++ marked "?" query ++ marked "#" fragment := by
  simp [text, slashedSchemes, h]

/-! ## Authorities -/

/-- Who is asked for at an authority: a user with perhaps a password, the host in lower case, and
perhaps a port. -/
structure Party where
  user : Option String := none
  password : Option String := none
  host : String := ""
  port : Option Nat := none
  deriving DecidableEq, Repr

/-- The largest port. -/
def maxPort : Nat := 65535

/-- The port that digits spell, if they spell any; no digits are no port. -/
def portOf? (digits : List Char) : Option (Option Nat) :=
  if digits = [] then some none
  else match Net.decimal? digits with
    | some n => if n ≤ maxPort then some (some n) else none
    | none => none

/-- The host of an authority and the digits of its port. -/
def hostAndPort (cs : List Char) : List Char × List Char :=
  if cs.contains '[' then
    let (host, rest) := around ']' (around '[' cs).2
    (host, (around ':' rest).2)
  else around ':' cs

/-- A host in lower case; the zone of an address keeps its letters. -/
def lowerHost (host : List Char) : String :=
  let (name, zone) := before ['%'] host
  lowerCase (String.ofList name) ++ String.ofList zone

/-- What stands before and behind the last of a character, if there is one. -/
def aroundLast? (c : Char) (cs : List Char) : Option (List Char × List Char) :=
  if cs.contains c then
    let (behind, front) := around c cs.reverse
    some (front.reverse, behind.reverse)
  else none

/-- The party of an authority, if its port is one. -/
def Party.ofText? (authority : String) : Option Party := do
  let cs := authority.toList
  let (info, rest) := match aroundLast? '@' cs with
    | some (info, rest) => (some info, rest)
    | none => (none, cs)
  let (host, digits) := hostAndPort rest
  let port ← portOf? digits
  return {
    user := info.map fun info => String.ofList (around ':' info).1
    password := (info.filter (·.contains ':')).map fun info => String.ofList (around ':' info).2
    host := lowerHost host
    port }

/-- The text of a party. -/
def Party.text (p : Party) : String :=
  let host := if p.host.toList.contains ':' then "[" ++ p.host ++ "]" else p.host
  let port := (p.port.map fun n => ":" ++ toString n).getD ""
  let user := (p.user.map fun name =>
    name ++ (p.password.map fun word => ":" ++ word).getD "" ++ "@").getD ""
  user ++ host ++ port

/-! ## Addresses as they are sent and shown -/

/-- Characters that stay as they are in a user name or a password. -/
def keptInUser : List Char := "%!$&'()*+,;=".toList

/-- Characters that stay as they are in paths. -/
def keptInPath : List Char := "%!$&'()*+,/:;=@".toList

/-- A text with percent signs for all but plain and given characters. -/
def escaped (kept : List Char) (s : String) : String :=
  String.ofList (Percent.encode kept s.toList)

/-- The address in ASCII, if its host has an ASCII form. -/
def toAscii? (u : Uri) : Option Uri := do
  let p ← Party.ofText? u.authority
  let host ← HostName.toAscii? p.host
  let party : Party :=
    { p with
      host
      user := p.user.map (escaped keptInUser)
      password := p.password.map (escaped keptInUser) }
  return {
    u with
    authority := party.text
    path := escaped keptInPath u.path
    query := escaped ('?' :: keptInPath) u.query
    fragment := escaped ('?' :: '#' :: keptInPath) u.fragment }

/-- Characters that are never shown without their percent signs. -/
def hiddenEverywhere : List Char :=
  ((List.range 33).map Char.ofNat) ++ ['%', '\x7F']

/-- A text behind its percent signs, as far as it can be shown. -/
def unescaped (hidden : List Char) (s : String) : String :=
  String.ofList (Percent.decodeBut (hidden ++ hiddenEverywhere) s.toList)

/-- The address with the letters that its ASCII form stands for, if it is such a form. -/
def toShown? (u : Uri) : Option Uri := do
  let p ← Party.ofText? u.authority
  let host ← HostName.ofAscii? p.host
  let inUser := [':', '@', '/', '?', '#']
  let party : Party :=
    { p with
      host
      user := p.user.map (unescaped inUser)
      password := p.password.map (unescaped inUser) }
  return {
    u with
    authority := party.text
    path := unescaped ['/', '?', '#'] u.path
    query := unescaped ['&', '=', '+', '#'] u.query
    fragment := unescaped [] u.fragment }

/-- A text as an address in ASCII. Halves of surrogate pairs have no bytes that could be sent. -/
def sent? (s : String) : Option String := do
  let _ ← CodePoint.plain? s.toList
  return (← (← ofText? s).toAscii?).text

/-- A text as an address that is shown. -/
def shown? (s : String) : Option String := do return (← (← ofText? s).toShown?).text

end Uri

end ScimBridge
