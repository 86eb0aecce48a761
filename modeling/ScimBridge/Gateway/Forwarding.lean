import ScimBridge.Gateway.Fault
import ScimBridge.Net.Address

/-!
# Forwarding headers

A proxy in front of the service says for whom it forwards a request, by which scheme and for which
host. A request with a forwarded client is let through only if its peer lies in a trusted network
and it names a single client. Scheme and host are those that the last proxy gives; a host that can
be none counts as not given.
-/

namespace ScimBridge

namespace Gateway

/-- Why the peer of a request may not name a client; a peer without an address may. -/
def peerDenial? (peers : List Net.Network) (peer : String) : Option Denial :=
  if peer = "" then none
  else match Net.Address.read? peer with
    | none => some (.badRequest "Invalid proxy address")
    | some address =>
      if peers.any fun n => n.holds address then none else some (.badRequest "Untrusted proxy")

/-- Why a request is denied for its forwarding headers. -/
def forwardingDenial? (peers : List Net.Network) (r : Http.Request) : Option Denial :=
  let client := r.header "X-Forwarded-For"
  if client = "" then none
  else (peerDenial? peers r.peer).or
    (if client.toList.contains ',' then
      some (.badRequest "Multiple forwarded clients not permitted")
    else none)

/-- The last item of a header that holds a list, unless it is empty. -/
def lastItem? (r : Http.Request) (name : String) : Option String :=
  ((Http.headerItems (r.header name)).getLast?).filter (· ≠ "")

/-- The scheme by which a request was sent. -/
def schemeOf (r : Http.Request) (target : Http.Target) : String :=
  (lastItem? r "X-Forwarded-Proto").getD target.scheme

/-- A host without the port that its scheme has anyway. -/
def withoutUsualPort (scheme host : String) : String :=
  let port? : Option String :=
    if ["http", "ws"].contains scheme then some ":80"
    else if ["https", "wss"].contains scheme then some ":443"
    else none
  match port? with
  | some port =>
    if finishesWith port host then String.ofList (host.toList.take (host.length - port.length))
    else host
  | none => host

/-- The host that a request was sent to; it is empty where what the request names is none. -/
def hostOf (r : Http.Request) (target : Http.Target) : String :=
  let named := (lastItem? r "X-Forwarded-Host").getD ((r.header? "Host").getD target.host)
  let host := withoutUsualPort (schemeOf r target) named
  if HostName.isPlain host then host else ""

/-- The address of the server as the sender sees it, if its host stands for one. -/
def originOf? (r : Http.Request) (target : Http.Target) : Option String :=
  (Uri.shown? (schemeOf r target ++ "://" ++ hostOf r target ++ "/")).map (dropEnd '/')

/-- Whether a request asks for a connection in both directions. -/
def asksForSocket (r : Http.Request) (target : Http.Target) : Bool :=
  let upgrades := (cutText ',' (lowerCase (r.header "Connection"))).any fun word =>
    trimText word == "upgrade"
  ["ws", "wss"].contains (schemeOf r target)
    || (upgrades && lowerCase (r.header "Upgrade") == "websocket")

/-- Why a request is denied for the host that it names. -/
def hostDenial? (r : Http.Request) (target : Http.Target) : Option Denial :=
  if HostName.hasFittingLabels (hostOf r target).toList then none else some .unreadable

end Gateway

end ScimBridge
