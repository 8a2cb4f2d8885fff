import InboxServer.Worker.Socks

/-!
# What a SOCKS5 handshake asks for and reads

The proxy's bytes come in pieces of any size, and behind its reply come the bytes of the tunnel.

* `createSocksConnectRequest_decodes` — a proxy that reads the request finds the target in it
* `connectViaSocks5_spec` — the handshake asks exactly where the proxy accepts, it opens exactly where
  the proxy accepts and grants, it leaves all that comes behind the reply unread, and it is the same
  however the bytes are cut
-/

namespace InboxServer.Socks

open Infra

/-! ## How a proxy reads a request -/

inductive Destination where
  | ipv4 (address : Bytes)
  | name (name : Bytes)
  deriving DecidableEq

def readPort (port : Bytes) : Nat := (port.getD 0 0).toNat * 256 + (port.getD 1 0).toNat

/-- The CONNECT request of RFC 1928, for the two kinds of addresses that the client sends. -/
def decodeRequest : Bytes → Option (Destination × Nat)
  | 5 :: 1 :: 0 :: 1 :: rest =>
    if rest.length = 6 then some (.ipv4 (rest.take 4), readPort (rest.drop 4)) else none
  | 5 :: 1 :: 0 :: 3 :: length :: rest =>
    if rest.length = length.toNat + 2 then
      some (.name (rest.take length.toNat), readPort (rest.drop length.toNat))
    else none
  | _ => none

/-- The destination is the one that the hostname writes: the name itself where the proxy resolves. -/
inductive Names (hostname : String) : Bool → Destination → Prop
  | ipv4 (a b c d : UInt8)
      (dotted : hostname.toList = HttpUrl.dotted a.toNat b.toNat c.toNat d.toNat) :
      Names hostname false (.ipv4 [a, b, c, d])
  | name : Names hostname true (.name (utf8 hostname))

/-- A target that a request has room for: a port of two bytes, and an address or a name of one. -/
def Askable (target : ProxyEndpoint) (resolveRemotely : Bool) : Prop :=
  target.port ≤ 65535 ∧
    if resolveRemotely then 0 < (utf8 target.hostname).length ∧ (utf8 target.hostname).length ≤ 255
    else isIpv4 target.hostname = true

/-! ## Requests -/

/-- An octet is written without leading zeros. -/
theorem octet_spec {part : List Char} (h : isOctet part = true) :
    part = Nat.toDigits 10 (octet part).toNat := by
  unfold isOctet at h
  unfold octet
  cases hread : HttpUrl.readRadix 10 0 part with
  | none => simp [hread] at h
  | some n =>
    simp only [hread, Bool.and_eq_true, decide_eq_true_eq] at h
    obtain ⟨hlt, hpart⟩ := h
    have hn : (UInt8.ofNat n).toNat = n := by simp [Nat.mod_eq_of_lt hlt]
    rw [Option.getD_some, hn]
    exact hpart

/-- A port is read as it was written. -/
theorem readPort_portBytes {port : Nat} {bytes : Bytes} (h : portBytes port = .ok bytes) :
    bytes.length = 2 ∧ readPort bytes = port := by
  unfold portBytes at h
  by_cases hport : port ≤ 65535
  · rw [if_pos hport] at h
    cases h
    have hhigh : (UInt8.ofNat (port / 256)).toNat = port / 256 := by
      rw [UInt8.toNat_ofNat']
      omega
    have hlow : (UInt8.ofNat port).toNat = port % 256 := by simp
    refine ⟨rfl, ?_⟩
    simp only [readPort, List.getD_cons_zero, List.getD_cons_succ, hhigh, hlow]
    omega
  · rw [if_neg hport] at h
    cases h

/-- The parts of an IPv4 address are its octets. -/
theorem dotted_of_isIpv4 {hostname : String} (h : isIpv4 hostname = true) :
    ∃ a b c d : UInt8, (HttpUrl.parts hostname.toList).map octet = [a, b, c, d] ∧
      hostname.toList = HttpUrl.dotted a.toNat b.toNat c.toNat d.toNat := by
  simp only [isIpv4, Bool.and_eq_true, decide_eq_true_eq, List.all_eq_true] at h
  obtain ⟨hlength, hall⟩ := h
  have hjoin : ['.'].intercalate (HttpUrl.parts hostname.toList) = hostname.toList :=
    List.intercalate_splitOn _
  obtain ⟨a, b, c, d, hparts⟩ := List.length_eq_four.mp hlength
  rw [hparts] at hall hjoin ⊢
  refine ⟨octet a, octet b, octet c, octet d, rfl, ?_⟩
  rw [HttpUrl.dotted, ← octet_spec (hall a (by simp)), ← octet_spec (hall b (by simp)),
    ← octet_spec (hall c (by simp)), ← octet_spec (hall d (by simp))]
  exact hjoin.symm

/-- A request is made of exactly the targets that can be asked for. -/
theorem exists_request_iff {target : ProxyEndpoint} {resolveRemotely : Bool} :
    (∃ request, createSocksConnectRequest target resolveRemotely = .ok request) ↔
      Askable target resolveRemotely := by
  unfold createSocksConnectRequest portBytes Askable
  by_cases hport : target.port ≤ 65535
  · simp only [bind, Except.bind, hport, true_and]
    cases resolveRemotely with
    | false => cases isIpv4 target.hostname <;> simp
    | true =>
      by_cases hname : (utf8 target.hostname).length = 0 ∨ (utf8 target.hostname).length > 255
      · simp only [Bool.not_true, Bool.false_and, Bool.false_or, Bool.false_eq_true, if_false,
          Bool.or_eq_true, decide_eq_true_eq, if_pos hname, if_true]
        refine iff_of_false ?_ (by omega)
        rintro ⟨request, ⟨⟩⟩
      · simp only [Bool.not_true, Bool.false_and, Bool.false_or, Bool.false_eq_true, if_false,
          Bool.or_eq_true, decide_eq_true_eq, if_neg hname, if_true]
        exact iff_of_true ⟨_, rfl⟩ (by omega)
  · simp [bind, Except.bind, hport]

/-- A proxy that reads the request finds the target's address and port. -/
theorem createSocksConnectRequest_decodes {target : ProxyEndpoint} {resolveRemotely : Bool}
    {request : Bytes} (h : createSocksConnectRequest target resolveRemotely = .ok request) :
    ∃ destination, Names target.hostname resolveRemotely destination ∧
      decodeRequest request = some (destination, target.port) := by
  have haskable := exists_request_iff.mp ⟨request, h⟩
  unfold createSocksConnectRequest at h
  cases hport : portBytes target.port with
  | error error => simp [hport, bind, Except.bind] at h
  | ok port =>
    obtain ⟨hlength, hread⟩ := readPort_portBytes hport
    simp only [hport, bind, Except.bind] at h
    cases resolveRemotely with
    | false =>
      have hipv4 : isIpv4 target.hostname = true := haskable.2
      rw [if_pos (by simp [hipv4])] at h
      cases h
      obtain ⟨a, b, c, d, hoctets, hdotted⟩ := dotted_of_isIpv4 hipv4
      refine ⟨_, .ipv4 a b c d hdotted, ?_⟩
      simp [hoctets, decodeRequest, hlength, hread]
    | true =>
      obtain ⟨hnonempty, hfits⟩ : 0 < (utf8 target.hostname).length ∧
        (utf8 target.hostname).length ≤ 255 := haskable.2
      have hempty : (utf8 target.hostname).length ≠ 0 := Nat.ne_of_gt hnonempty
      have hlong : ¬(utf8 target.hostname).length > 255 := Nat.not_lt.mpr hfits
      rw [if_neg (by simp), if_neg (by simp [hempty, hlong])] at h
      cases h
      have hshort : (UInt8.ofNat (utf8 target.hostname).length).toNat =
          (utf8 target.hostname).length := by
        rw [UInt8.toNat_ofNat']
        omega
      refine ⟨_, .name, ?_⟩
      simp [decodeRequest, hshort, hlength, hread]

/-! ## What opens -/

/-- The handshake gives a socket from which the bytes are yet to be read. -/
def Handshake.Opens (handshake : Handshake) (rest : Bytes) : Prop :=
  ∃ socket, handshake.outcome = .connected socket ∧ socket.unread = rest

/-- The kinds of addresses in a reply. -/
inductive BoundAddress : UInt8 → Bytes → Prop
  | ipv4 {address : Bytes} (length : address.length = 4) : BoundAddress 1 address
  | ipv6 {address : Bytes} (length : address.length = 16) : BoundAddress 4 address
  | name {length : UInt8} {name : Bytes} (exact : name.length = length.toNat) :
      BoundAddress 3 (length :: name)

/-- A reply that grants the request. -/
inductive Grants : Bytes → Prop
  | intro (reserved : UInt8) {kind : UInt8} {address port : Bytes} (bound : BoundAddress kind address)
      (two : port.length = 2) : Grants ([5, 0, reserved, kind] ++ (address ++ port))

section

variable {written : List Bytes} {length : Nat} {socket : Socket String} {rest : Bytes}

/-- The rule of an exact read: what is opened after it depends on the bytes alone. -/
theorem opens_awaitExactly (hlength : 0 < length) {next : Bytes → Socket String → Handshake}
    (opens : Bytes → Bytes → Prop)
    (hnext : ∀ bytes socket', bytes.length = length →
      ((next bytes socket').Opens rest ↔ opens bytes socket'.unread)) :
    (awaitExactly written length socket next).Opens rest ↔
      ∃ bytes left, bytes.length = length ∧ socket.unread = bytes ++ left ∧ opens bytes left := by
  have hreads := Socket.readExactly_reads hlength socket
  by_cases hle : length ≤ socket.unread.length
  · obtain ⟨socket', hread, hunread, -⟩ := hreads.done hle
    have htake : (socket.unread.take length).length = length := by
      rw [List.length_take]
      omega
    simp only [awaitExactly, hread]
    rw [hnext _ _ htake, hunread]
    constructor
    · intro h
      exact ⟨_, _, htake, (List.take_append_drop length socket.unread).symm, h⟩
    · rintro ⟨bytes, left, hbytes, hsplit, h⟩
      rwa [hsplit, List.take_left' hbytes, List.drop_left' hbytes]
  · have hread := hreads.short (Nat.lt_of_not_le hle)
    constructor
    · rintro ⟨opened, hopened, -⟩
      simp only [awaitExactly, hread] at hopened
      cases hfate : socket.fate <;> simp [hfate, Fate.reading] at hopened
    · rintro ⟨bytes, left, hbytes, hsplit, -⟩
      exact absurd (by rw [hsplit, List.length_append, hbytes]; omega) hle

/-- An address is read with its port, and the rest is left. -/
theorem opens_awaitAddress :
    (awaitAddress written length socket).Opens rest ↔
      ∃ bytes, bytes.length = length + 2 ∧ socket.unread = bytes ++ rest := by
  unfold awaitAddress
  rw [opens_awaitExactly (Nat.succ_pos _) fun _ left => left = rest]
  · constructor
    · rintro ⟨bytes, left, hbytes, hsplit, rfl⟩
      exact ⟨bytes, hbytes, hsplit⟩
    · rintro ⟨bytes, hbytes, hsplit⟩
      exact ⟨bytes, rest, hbytes, hsplit, rfl⟩
  · intro bytes socket' _
    constructor
    · rintro ⟨opened, hopened, hrest⟩
      cases hopened
      exact hrest
    · intro hrest
      exact ⟨socket', rfl, hrest⟩

theorem not_opens_failed {destroyed : Bool} {error : SocksError} :
    ¬Handshake.Opens ⟨written, destroyed, .failed error⟩ rest := by
  rintro ⟨opened, hopened, -⟩
  cases hopened

/-- An address and a port before the rest. -/
def Bound (kind : UInt8) (left rest : Bytes) : Prop :=
  ∃ address port, BoundAddress kind address ∧ port.length = 2 ∧ left = address ++ (port ++ rest)

/-- The bytes of an address and of its port. -/
theorem exists_port {left : Bytes} :
    (∃ bytes, bytes.length = length + 2 ∧ left = bytes ++ rest) ↔
      ∃ address port : Bytes,
        address.length = length ∧ port.length = 2 ∧ left = address ++ (port ++ rest) := by
  constructor
  · rintro ⟨bytes, hbytes, rfl⟩
    refine ⟨bytes.take length, bytes.drop length, ?_, ?_, ?_⟩
    · rw [List.length_take]
      omega
    · rw [List.length_drop]
      omega
    · rw [← List.append_assoc, List.take_append_drop]
  · rintro ⟨address, port, haddress, hport, rfl⟩
    exact ⟨address ++ port, by simp [haddress, hport], by simp⟩

/-- A name is read by its length. -/
theorem opens_awaitName :
    (awaitExactly written 1 socket fun length socket =>
        awaitAddress written (length.getD 0 0).toNat socket).Opens rest ↔
      Bound 3 socket.unread rest := by
  rw [opens_awaitExactly Nat.one_pos (fun length left => ∃ name port : Bytes,
    name.length = (length.getD 0 0).toNat ∧ port.length = 2 ∧ left = name ++ (port ++ rest))
    fun _ _ _ => opens_awaitAddress.trans exists_port]
  constructor
  · rintro ⟨bytes, left, hbytes, hsplit, name, port, hname, hport, rfl⟩
    obtain ⟨length, rfl⟩ := List.length_eq_one_iff.mp hbytes
    exact ⟨_, port, .name hname, hport, hsplit⟩
  · rintro ⟨address, port, hbound, hport, hsplit⟩
    cases hbound with
    | @name length name exact =>
      exact ⟨[length], name ++ (port ++ rest), rfl, hsplit, name, port, exact, hport, rfl⟩

/-- An address of one length is read together with its port. -/
theorem bound_of_length {kind : UInt8} {left : Bytes}
    (hkind : ∀ address, BoundAddress kind address ↔ address.length = length) :
    Bound kind left rest ↔ ∃ bytes, bytes.length = length + 2 ∧ left = bytes ++ rest := by
  rw [exists_port]
  simp only [Bound, hkind]

theorem boundAddress_one (address : Bytes) : BoundAddress 1 address ↔ address.length = 4 := by
  constructor
  · intro h
    cases h with
    | ipv4 length => exact length
  · exact .ipv4

theorem boundAddress_four (address : Bytes) : BoundAddress 4 address ↔ address.length = 16 := by
  constructor
  · intro h
    cases h with
    | ipv6 length => exact length
  · exact .ipv6

/-- An answer is refused unless it is of version 5 and says 0. -/
theorem refused_iff {answer : Bytes} :
    (answer.getD 0 0 ≠ 5 || answer.getD 1 0 ≠ 0) = true ↔
      ¬(answer.getD 0 0 = 5 ∧ answer.getD 1 0 = 0) := by
  simp [or_iff_not_imp_left]

/-- A reply opens the tunnel exactly where it grants it, and is read to its end. -/
theorem opens_awaitReply :
    (awaitReply written socket).Opens rest ↔
      ∃ reply, Grants reply ∧ socket.unread = reply ++ rest := by
  unfold awaitReply
  rw [opens_awaitExactly (by decide) fun header left =>
    header.getD 0 0 = 5 ∧ header.getD 1 0 = 0 ∧ Bound (header.getD 3 0) left rest]
  · constructor
    · rintro ⟨header, left, hheader, hsplit, hversion, hgranted, address, port, hbound, hport, rfl⟩
      obtain ⟨version, code, reserved, kind, rfl⟩ := List.length_eq_four.mp hheader
      obtain rfl : version = 5 := hversion
      obtain rfl : code = 0 := hgranted
      exact ⟨_, .intro reserved hbound hport, by simp [hsplit]⟩
    · rintro ⟨reply, hgrants, hsplit⟩
      cases hgrants with
      | @intro reserved kind address port bound two =>
        exact ⟨[5, 0, reserved, kind], address ++ (port ++ rest), rfl, by simp [hsplit], rfl, rfl,
          address, port, bound, two, rfl⟩
  · intro header socket' _
    by_cases hgranted : header.getD 0 0 = 5 ∧ header.getD 1 0 = 0
    · rw [if_neg fun h => refused_iff.mp h hgranted]
      simp only [hgranted, true_and]
      by_cases hone : header.getD 3 0 = 1
      · rw [if_pos hone, hone, opens_awaitAddress, bound_of_length boundAddress_one]
      · rw [if_neg hone]
        by_cases hfour : header.getD 3 0 = 4
        · rw [if_pos hfour, hfour, opens_awaitAddress, bound_of_length boundAddress_four]
        · rw [if_neg hfour]
          by_cases hthree : header.getD 3 0 = 3
          · rw [if_pos hthree, hthree]
            exact opens_awaitName
          · -- no reply has an address of another kind
            rw [if_neg hthree]
            refine iff_of_false not_opens_failed ?_
            rintro ⟨address, port, hbound, -⟩
            generalize header.getD 3 0 = kind at hbound hone hfour hthree
            cases hbound with
            | ipv4 => exact hone rfl
            | ipv6 => exact hfour rfl
            | name => exact hthree rfl
    · rw [if_pos (refused_iff.mpr hgranted)]
      exact iff_of_false not_opens_failed fun h => hgranted ⟨h.1, h.2.1⟩

/-- The handshake opens the tunnel exactly where it is asked for and granted. -/
theorem opens_connectViaSocks5 {target : ProxyEndpoint} {resolveRemotely : Bool} :
    (connectViaSocks5 target resolveRemotely socket).Opens rest ↔
      (∃ request, createSocksConnectRequest target resolveRemotely = .ok request) ∧
        ∃ reply, Grants reply ∧ socket.unread = [5, 0] ++ (reply ++ rest) := by
  unfold connectViaSocks5
  rw [opens_awaitExactly (by decide) fun answer left =>
    answer.getD 0 0 = 5 ∧ answer.getD 1 0 = 0 ∧
      (∃ request, createSocksConnectRequest target resolveRemotely = .ok request) ∧
        ∃ reply, Grants reply ∧ left = reply ++ rest]
  · constructor
    · rintro ⟨answer, left, hanswer, hsplit, hversion, hmethod, hrequest, reply, hgrants, rfl⟩
      obtain ⟨version, method, rfl⟩ := List.length_eq_two.mp hanswer
      obtain rfl : version = 5 := hversion
      obtain rfl : method = 0 := hmethod
      exact ⟨hrequest, reply, hgrants, hsplit⟩
    · rintro ⟨hrequest, reply, hgrants, hsplit⟩
      exact ⟨[5, 0], reply ++ rest, rfl, hsplit, rfl, rfl, hrequest, reply, hgrants, rfl⟩
  · intro answer socket' _
    by_cases haccepted : answer.getD 0 0 = 5 ∧ answer.getD 1 0 = 0
    · rw [if_neg fun h => refused_iff.mp h haccepted]
      simp only [haccepted, true_and]
      cases createSocksConnectRequest target resolveRemotely with
      | error error =>
        refine iff_of_false not_opens_failed ?_
        rintro ⟨⟨request, hrequest⟩, -⟩
        cases hrequest
      | ok request =>
        simp only [Except.ok.injEq, exists_eq', true_and]
        exact opens_awaitReply
    · rw [if_pos (refused_iff.mpr haccepted)]
      exact iff_of_false not_opens_failed fun h => haccepted ⟨h.1, h.2.1⟩

end

/-! ## Pieces -/

/-- The outcomes are the same, up to how the bytes of an opened socket are cut. -/
inductive SameOutcome : Outcome → Outcome → Prop
  | waits : SameOutcome .waits .waits
  | connected {socket socket' : Socket String} (alike : socket.Alike socket') :
      SameOutcome (.connected socket) (.connected socket')
  | failed (error : SocksError) : SameOutcome (.failed error) (.failed error)

structure Same (handshake handshake' : Handshake) : Prop where
  written : handshake.written = handshake'.written
  destroyed : handshake.destroyed = handshake'.destroyed
  outcome : SameOutcome handshake.outcome handshake'.outcome

section

variable {written : List Bytes} {length : Nat} {socket socket' : Socket String}

/-- The rule of an exact read: what is the same after it was the same before it. -/
theorem same_awaitExactly (hlength : 0 < length) (halike : socket.Alike socket')
    {next : Bytes → Socket String → Handshake}
    (hnext : ∀ bytes {left left' : Socket String}, left.Alike left' →
      Same (next bytes left) (next bytes left')) :
    Same (awaitExactly written length socket next) (awaitExactly written length socket' next) := by
  have hreads := Socket.readExactly_reads hlength socket
  have hreads' := Socket.readExactly_reads hlength socket'
  rw [← halike.1, ← halike.2] at hreads'
  by_cases hle : length ≤ socket.unread.length
  · obtain ⟨left, hread, hunread, hfate⟩ := hreads.done hle
    obtain ⟨left', hread', hunread', hfate'⟩ := hreads'.done hle
    simp only [awaitExactly, hread, hread']
    exact hnext _ ⟨hunread.trans hunread'.symm, hfate.trans hfate'.symm⟩
  · have hread := hreads.short (Nat.lt_of_not_le hle)
    have hread' := hreads'.short (Nat.lt_of_not_le hle)
    simp only [awaitExactly, hread, hread']
    cases socket.fate with
    | stays => exact ⟨rfl, rfl, .waits⟩
    | closes => exact ⟨rfl, rfl, .failed _⟩
    | fails error => exact ⟨rfl, rfl, .failed _⟩

theorem same_awaitAddress (halike : socket.Alike socket') :
    Same (awaitAddress written length socket) (awaitAddress written length socket') :=
  same_awaitExactly (Nat.succ_pos _) halike fun _ _ _ h => ⟨rfl, rfl, .connected h⟩

/-- A reply is read alike however it is cut. -/
theorem same_awaitReply (halike : socket.Alike socket') :
    Same (awaitReply written socket) (awaitReply written socket') := by
  refine same_awaitExactly (by decide) halike fun header left left' h => ?_
  split_ifs
  · exact ⟨rfl, rfl, .failed _⟩
  · exact same_awaitAddress h
  · exact same_awaitAddress h
  · exact same_awaitExactly Nat.one_pos h fun _ _ _ h => same_awaitAddress h
  · exact ⟨rfl, rfl, .failed _⟩

theorem same_connectViaSocks5 (target : ProxyEndpoint) (resolveRemotely : Bool)
    (halike : socket.Alike socket') :
    Same (connectViaSocks5 target resolveRemotely socket)
      (connectViaSocks5 target resolveRemotely socket') := by
  refine same_awaitExactly (by decide) halike fun answer left left' h => ?_
  split_ifs
  · exact ⟨rfl, rfl, .failed _⟩
  · cases createSocksConnectRequest target resolveRemotely with
    | error error => exact ⟨rfl, rfl, .failed _⟩
    | ok request => exact same_awaitReply h

/-! ## What is written -/

/-- The rule of an exact read: what has been written stays unless the read is done. -/
theorem written_awaitExactly {next : Bytes → Socket String → Handshake} (hlength : 0 < length)
    (expected : List Bytes)
    (hdone : ∀ bytes left socket', bytes.length = length → socket.unread = bytes ++ left →
      (next bytes socket').written = expected)
    (hshort : socket.unread.length < length → written = expected) :
    (awaitExactly written length socket next).written = expected := by
  have hreads := Socket.readExactly_reads hlength socket
  by_cases hle : length ≤ socket.unread.length
  · obtain ⟨left, hread, -⟩ := hreads.done hle
    simp only [awaitExactly, hread]
    refine hdone _ _ _ ?_ (List.take_append_drop length socket.unread).symm
    rw [List.length_take]
    omega
  · have hread := hreads.short (Nat.lt_of_not_le hle)
    simp only [awaitExactly, hread]
    cases socket.fate <;> exact hshort (Nat.lt_of_not_le hle)

theorem written_awaitAddress : (awaitAddress written length socket).written = written :=
  written_awaitExactly (Nat.succ_pos _) _ (fun _ _ _ _ _ => rfl) fun _ => rfl

/-- The reply is only read. -/
theorem written_awaitReply : (awaitReply written socket).written = written := by
  refine written_awaitExactly (by decide) _ (fun header left socket' _ _ => ?_) fun _ => rfl
  split_ifs
  · rfl
  · exact written_awaitAddress
  · exact written_awaitAddress
  · exact written_awaitExactly Nat.one_pos _ (fun _ _ _ _ _ => written_awaitAddress) fun _ => rfl
  · rfl

variable {target : ProxyEndpoint} {resolveRemotely : Bool}

/-- Once the proxy has accepted the greeting, the request is written. -/
theorem written_of_accepted {request : Bytes}
    (hrequest : createSocksConnectRequest target resolveRemotely = .ok request)
    (haccepted : [5, 0] <+: socket.unread) :
    (connectViaSocks5 target resolveRemotely socket).written = [greeting, request] := by
  obtain ⟨rest, hunread⟩ := haccepted
  refine written_awaitExactly (by decide) _ (fun answer left socket' hanswer hsplit => ?_) fun hshort => ?_
  · obtain rfl : answer = [5, 0] := (List.append_inj (hsplit.symm.trans hunread.symm) hanswer).1
    rw [if_neg (by decide), hrequest]
    exact written_awaitReply
  · rw [← hunread, List.length_append] at hshort
    exact absurd hshort (Nat.not_lt.mpr (Nat.le_add_right _ _))

/-- Otherwise nothing is, but the greeting. -/
theorem written_of_not_accepted
    (h : ¬([5, 0] <+: socket.unread ∧ Askable target resolveRemotely)) :
    (connectViaSocks5 target resolveRemotely socket).written = [greeting] := by
  refine written_awaitExactly (by decide) _ (fun answer left socket' hanswer hsplit => ?_) fun _ => rfl
  by_cases haccepted : answer.getD 0 0 = 5 ∧ answer.getD 1 0 = 0
  · rw [if_neg fun h => refused_iff.mp h haccepted]
    obtain ⟨version, method, rfl⟩ := List.length_eq_two.mp hanswer
    obtain rfl : version = 5 := haccepted.1
    obtain rfl : method = 0 := haccepted.2
    cases hrequest : createSocksConnectRequest target resolveRemotely with
    | error error => rfl
    | ok request =>
      exact absurd ⟨⟨left, hsplit.symm⟩, exists_request_iff.mp ⟨request, hrequest⟩⟩ h
  · rw [if_pos (refused_iff.mpr haccepted)]

end

/--
**The handshake.** The first bytes written are the greeting. Where the proxy accepts it and the
target can be asked for, the next are a request in which the proxy finds the target, and nothing
else is written; everywhere else the greeting stays alone. A socket is given exactly where the proxy
also grants the request, and what comes behind the reply is left on it. None of this depends on how
the bytes are cut.
-/
theorem connectViaSocks5_spec (target : ProxyEndpoint) (resolveRemotely : Bool)
    (socket : Socket String) :
    ([5, 0] <+: socket.unread ∧ Askable target resolveRemotely → ∃ request destination,
      Names target.hostname resolveRemotely destination ∧
        decodeRequest request = some (destination, target.port) ∧
        (connectViaSocks5 target resolveRemotely socket).written = [greeting, request]) ∧
    (¬([5, 0] <+: socket.unread ∧ Askable target resolveRemotely) →
      (connectViaSocks5 target resolveRemotely socket).written = [greeting]) ∧
    (∀ rest, (connectViaSocks5 target resolveRemotely socket).Opens rest ↔
      Askable target resolveRemotely ∧
        ∃ reply, Grants reply ∧ socket.unread = [5, 0] ++ (reply ++ rest)) ∧
    ∀ socket', socket.Alike socket' →
      Same (connectViaSocks5 target resolveRemotely socket)
        (connectViaSocks5 target resolveRemotely socket') := by
  refine ⟨?_, written_of_not_accepted, fun rest => ?_, fun socket' => same_connectViaSocks5 _ _⟩
  · rintro ⟨haccepted, haskable⟩
    obtain ⟨request, hrequest⟩ := exists_request_iff.mpr haskable
    obtain ⟨destination, hnames, hdecodes⟩ := createSocksConnectRequest_decodes hrequest
    exact ⟨request, destination, hnames, hdecodes, written_of_accepted hrequest haccepted⟩
  · rw [opens_connectViaSocks5, exists_request_iff]

end InboxServer.Socks
