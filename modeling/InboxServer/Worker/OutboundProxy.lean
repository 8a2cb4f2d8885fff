import InboxServer.Infra.HttpUrl
import InboxServer.Infra.Trace
import InboxServer.Domain.JobFailure

/-!
# Tunnels of the outbound proxy

`parseConnectAuthority`, `establishTunnel` and the `connect` handler of
`apps/worker/src/outbound-proxy.ts`. How a name is resolved and how a socket is opened are calls; what
happens on a tunnel after its two ends are piped is left out.
-/

namespace InboxServer

open Infra

/-! ## Authorities -/

structure ProxyEndpoint where
  hostname : String
  port : Nat
  deriving DecidableEq

inductive ProxyError where
  /-- The `TypeError` of `new URL`. -/
  | invalidUrl
  | error (message : String)
  /-- `new Error(message, { cause })` -/
  | caused (message : String) (cause : ProxyError)
  deriving DecidableEq

/-- `[\s/@?#]` -/
def isForeignToAuthority (c : Char) : Bool := isSpaceChar c || c ∈ ['/', '@', '?', '#']

/-- `parseConnectAuthority(authority)`; `Number("")` is `0`. -/
def parseConnectAuthority (tables : HttpUrl.Tables) (authority : String) :
    Except ProxyError ProxyEndpoint :=
  if authority = "" || authority.toList.any isForeignToAuthority then
    .error (.error "invalid CONNECT authority")
  else
    match tables.newHttpUrl authority.toList with
    | none => .error .invalidUrl
    | some parsed =>
      let port := parsed.port.getD 0
      if parsed.hostname = [] || port < 1 || port > 65535 then
        .error (.error "invalid CONNECT authority")
      else .ok { hostname := String.ofList parsed.hostname, port }

/-! ## Tunnels -/

/-- A socket that was opened. -/
abbrev SocketId := Nat

inductive ProxyCall where
  /-- `options.resolve(hostname)` -/
  | resolve (hostname : String)
  /-- `options.connect(address, port)` -/
  | connect (address : String) (port : Nat)
  | writeClient (text : String)
  | writeUpstream (upstream : SocketId) (head : List UInt8)
  /-- `client.pipe(upstream).pipe(client)`, with what ties their ends together. -/
  | pipe (upstream : SocketId)
  /-- `console.error(…)` -/
  | logFailure (error : ProxyError)
  | clientDestroyed
  | endClient (text : String)
  deriving DecidableEq

@[reducible] def ProxyCall.Answer : ProxyCall → Type
  | .resolve _ => Except ProxyError (List String)
  | .connect _ _ => Except ProxyError SocketId
  | .clientDestroyed => Bool
  | .writeClient _ | .writeUpstream _ _ | .pipe _ | .logFailure _ | .endClient _ => Unit

abbrev ProxyProg (α : Type) := Prog ProxyCall ProxyCall.Answer α

/-- The loop of `connectFirst(addresses, port, connectTarget)`. -/
def connectFirst (port : Nat) (lastError : Option ProxyError) :
    List String → ProxyProg (Except ProxyError SocketId)
  | [] => .ret (.error (lastError.getD (.error "no target address was reachable")))
  | address :: addresses => .call (.connect address port) fun
    | .ok socket => .ret (.ok socket)
    | .error error => connectFirst port (some error) addresses

/-- What `establishTunnel` does once it is connected. -/
def openTunnel (head : List UInt8) (upstream : SocketId) : ProxyProg (Except ProxyError Unit) :=
  .call (.writeClient "HTTP/1.1 200 Connection Established\r\n\r\n") fun _ =>
    if head.length > 0 then
      .call (.writeUpstream upstream head) fun _ => .call (.pipe upstream) fun _ => .ret (.ok ())
    else .call (.pipe upstream) fun _ => .ret (.ok ())

/-- `establishTunnel(authority, head, client, options)` -/
def establishTunnel (tables : HttpUrl.Tables) (authority : Option String) (head : List UInt8) :
    ProxyProg (Except ProxyError Unit) :=
  match parseConnectAuthority tables (authority.getD "") with
  | .error error => .ret (.error error)
  | .ok target => .call (.resolve target.hostname) fun
    | .error cause => .ret (.error (.caused "outbound proxy resolution failed" cause))
    | .ok addresses => (connectFirst target.port none addresses).bind fun
      | .error cause => .ret (.error (.caused "outbound proxy target connection failed" cause))
      | .ok upstream => openTunnel head upstream

/-- `server.on("connect", …)` -/
def onConnect (tables : HttpUrl.Tables) (authority : Option String) (head : List UInt8) :
    ProxyProg Unit :=
  (establishTunnel tables authority head).bind fun
    | .ok () => .ret ()
    | .error error => .call (.logFailure error) fun _ => .call .clientDestroyed fun destroyed =>
      if destroyed then .ret ()
      else .call (.endClient "HTTP/1.1 502 Bad Gateway\r\nConnection: close\r\n\r\n") fun _ => .ret ()

end InboxServer
