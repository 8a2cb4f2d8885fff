import InboxServer.Infra.HttpUrl
import InboxServer.Infra.Inbound
import InboxServer.Worker.OutboundProxy

/-!
# The SOCKS5 client of the outbound proxy

`isIP`, `createSocksConnectRequest` and `connectViaSocks5` of `apps/worker/src/outbound-proxy.ts`, from
the socket that `openSocket` opens. The timeout of a socket is one of the ways in which it fails.
-/

namespace InboxServer.Socks

open Infra

abbrev Bytes := List UInt8

inductive SocksError where
  | error (message : String)
  /-- The `RangeError` of `writeUInt16BE`. -/
  | outOfRange
  /-- What the socket fails with. -/
  | socket (message : String)
  deriving DecidableEq

/-! ## Requests -/

/-- A number up to 255, in decimal and without leading zeros. -/
def isOctet (part : List Char) : Bool :=
  match HttpUrl.readRadix 10 0 part with
  | some n => n < 256 && part = Nat.toDigits 10 n
  | none => false

/-- `isIP(hostname) === 4` -/
def isIpv4 (hostname : String) : Bool :=
  (HttpUrl.parts hostname.toList).length = 4 && (HttpUrl.parts hostname.toList).all isOctet

/-- `Number(part)` as a byte. -/
def octet (part : List Char) : UInt8 := UInt8.ofNat ((HttpUrl.readRadix 10 0 part).getD 0)

/-- `Buffer.from(text, "utf8")` -/
def utf8 (text : String) : Bytes := text.toUTF8.data.toList

/-- `port.writeUInt16BE(target.port)` -/
def portBytes (port : Nat) : Except SocksError Bytes :=
  if port ≤ 65535 then .ok [UInt8.ofNat (port / 256), UInt8.ofNat port] else .error .outOfRange

/-- `createSocksConnectRequest(target, resolveRemotely)` -/
def createSocksConnectRequest (target : ProxyEndpoint) (resolveRemotely : Bool) :
    Except SocksError Bytes := do
  let port ← portBytes target.port
  if !resolveRemotely && isIpv4 target.hostname then
    .ok ([5, 1, 0, 1] ++ (HttpUrl.parts target.hostname.toList).map octet ++ port)
  else
    let hostname := utf8 target.hostname
    if !resolveRemotely || hostname.length = 0 || hostname.length > 255 then
      .error (.error "SOCKS5 target must be an IPv4 address or remote-resolved hostname")
    else .ok ([5, 1, 0, 3, UInt8.ofNat hostname.length] ++ hostname ++ port)

/-! ## The handshake -/

/-- How the promise of the handshake comes out. -/
inductive Outcome where
  | waits
  | connected (socket : Socket String)
  | failed (error : SocksError)

structure Handshake where
  /-- The arguments of `socket.write`. -/
  written : List Bytes
  /-- `socket.destroy()` was called. -/
  destroyed : Bool
  outcome : Outcome

/-- `await readExactly(socket, length)`, and what follows it. -/
def awaitExactly (written : List Bytes) (length : Nat) (socket : Socket String)
    (next : Bytes → Socket String → Handshake) : Handshake :=
  match socket.readExactly length with
  | .waits => ⟨written, false, .waits⟩
  | .closes => ⟨written, false, .failed (.error "SOCKS5 connection closed during handshake")⟩
  | .fails message => ⟨written, false, .failed (.socket message)⟩
  | .done bytes socket => next bytes socket

/-- `await readExactly(socket, addressLength + 2)` -/
def awaitAddress (written : List Bytes) (addressLength : Nat) (socket : Socket String) : Handshake :=
  awaitExactly written (addressLength + 2) socket fun _ socket => ⟨written, false, .connected socket⟩

/-- What follows the request. -/
def awaitReply (written : List Bytes) (socket : Socket String) : Handshake :=
  awaitExactly written 4 socket fun header socket =>
    if header.getD 0 0 ≠ 5 || header.getD 1 0 ≠ 0 then
      ⟨written, true, .failed (.error s!"SOCKS5 connect failed with code {(header.getD 1 0).toNat}")⟩
    else if header.getD 3 0 = 1 then awaitAddress written 4 socket
    else if header.getD 3 0 = 4 then awaitAddress written 16 socket
    else if header.getD 3 0 = 3 then
      awaitExactly written 1 socket fun length socket =>
        awaitAddress written (length.getD 0 0).toNat socket
    else ⟨written, true, .failed (.error "SOCKS5 proxy returned an invalid address type")⟩

def greeting : Bytes := [5, 1, 0]

/-- `connectViaSocks5(proxy, target, resolveRemotely)` -/
def connectViaSocks5 (target : ProxyEndpoint) (resolveRemotely : Bool) (socket : Socket String) :
    Handshake :=
  awaitExactly [greeting] 2 socket fun answer socket =>
    if answer.getD 0 0 ≠ 5 || answer.getD 1 0 ≠ 0 then
      ⟨[greeting], true,
        .failed (.error "SOCKS5 proxy rejected unauthenticated connection")⟩
    else
      match createSocksConnectRequest target resolveRemotely with
      | .error error => ⟨[greeting], false, .failed error⟩
      | .ok request => awaitReply [greeting, request] socket

end InboxServer.Socks
