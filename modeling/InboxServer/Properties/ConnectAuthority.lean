import InboxServer.Worker.OutboundProxy

/-!
# Where a tunnel goes

* `connectAuthority_iff` — for which authorities the tunnel goes to the host and the port that they
  say, and malformed ones are rejected
-/

namespace InboxServer

open Infra Infra.HttpUrl

variable {tables : Tables} {authority : String}

/-! ## What is accepted -/

/-- The number that the digits of a port write. -/
abbrev portValue (digits : List Char) : Nat := Nat.ofDigitChars 10 digits 0

theorem not_mem_of_isForeign {text : List Char} (h : text.any isForeignToAuthority = false)
    {c : Char} (hc : isForeignToAuthority c = true) : c ∉ text := by
  intro hmem
  exact List.any_eq_false.mp h c hmem hc

/-- A text without foreign characters is a bare one. -/
theorem isBare_of_isForeign {text : List Char} (h : text.any isForeignToAuthority = false) :
    IsBare text := by
  intro c hc
  have hne : ∀ d, isForeignToAuthority d = true → c ≠ d := by
    rintro d hd rfl
    exact not_mem_of_isForeign h hd hc
  refine ⟨hne '@' rfl, hne '/' rfl, hne '?' rfl, hne '#' rfl, ?_⟩
  intro hmem
  simp only [List.mem_cons, List.not_mem_nil, or_false] at hmem
  rcases hmem with hmem | hmem | hmem
  · exact hne '\t' rfl hmem
  · exact hne '\n' rfl hmem
  · exact hne '\r' rfl hmem

theorem serializeIpv4_ne_nil (address : Nat) : serializeIpv4 address ≠ [] := dotted_ne_nil _ _ _ _

/-- The standard never gives an empty host. -/
theorem hostParser_ne_nil {host : List Char} : tables.hostParser host ≠ some [] := by
  intro h
  unfold Tables.hostParser at h
  split at h
  · split at h
    · obtain ⟨address, -, hnil⟩ := Option.map_eq_some_iff.mp h
      cases hnil
    · cases h
  · obtain ⟨domain, -, hdomain⟩ := Option.bind_eq_some_iff.mp h
    split at hdomain
    · cases hdomain
    · next hne =>
      split at hdomain
      · obtain ⟨address, -, hnil⟩ := Option.map_eq_some_iff.mp hdomain
        exact serializeIpv4_ne_nil address hnil
      · rw [Option.some.inj hdomain] at hne
        simp at hne

/-- The texts that are accepted: a host and a port other than 80, with backslashes around them. -/
structure Accepted (tables : Tables) (text host digits : List Char) : Prop where
  plain : text.any isForeignToAuthority = false
  layout : ∃ lead tail, Layout text lead host digits tail
  host : (tables.hostParser host).isSome = true
  positive : 1 ≤ portValue digits
  le : portValue digits ≤ 65535
  ne : portValue digits ≠ 80

/-- **What `parseConnectAuthority` accepts, and as what.** -/
theorem parseConnectAuthority_eq_ok {target : ProxyEndpoint} :
    parseConnectAuthority tables authority = .ok target ↔
      ∃ host digits, Accepted tables authority.toList host digits ∧
        tables.hostParser host = some target.hostname.toList ∧ portValue digits = target.port := by
  unfold parseConnectAuthority
  constructor
  · intro h
    split at h
    · cases h
    · next hplain =>
      have hplain : authority.toList.any isForeignToAuthority = false := by
        rw [Bool.or_eq_true, not_or] at hplain
        exact Bool.eq_false_iff.mpr hplain.2
      split at h
      · cases h
      · next parsed hparsed =>
        dsimp only at h
        split at h
        · cases h
        · next hrange =>
          simp only [Bool.or_eq_true, decide_eq_true_eq, not_or, not_lt] at hrange
          obtain rfl := Except.ok.inj h
          obtain ⟨hostname, port⟩ := parsed
          cases port with
          | none =>
            simp at hrange
          | some port =>
            obtain ⟨lead, host, digits, tail, hlayout, hname, hvalue, hle, hne⟩ :=
              (Tables.newHttpUrl_eq_some (isBare_of_isForeign hplain)).mp hparsed
            subst hvalue
            refine ⟨host, digits, ⟨hplain, ⟨lead, tail, hlayout⟩, by rw [hname]; rfl, hrange.1.2, hle,
              hne⟩, ?_, rfl⟩
            simpa using hname
  · rintro ⟨host, digits, ⟨hplain, ⟨lead, tail, hlayout⟩, -, hpos, hle, hne⟩, hname, hport⟩
    have hparsed := (Tables.newHttpUrl_eq_some (isBare_of_isForeign hplain)).mpr
      ⟨lead, host, digits, tail, hlayout, hname, hport, by omega, by omega⟩
    have htext : authority ≠ "" := by
      rintro rfl
      have := hlayout.eq
      simp at this
    have hhost : target.hostname.toList ≠ [] := by
      intro hnil
      rw [hnil] at hname
      exact hostParser_ne_nil hname
    rw [if_neg (by simp [htext, hplain]), hparsed]
    dsimp only [Option.getD_some]
    rw [if_neg]
    · simp
    · simp only [Bool.or_eq_true, decide_eq_true_eq, not_or, not_lt]
      exact ⟨⟨hhost, by omega⟩, by omega⟩

/-! ## Where a tunnel goes -/

/-- A run of a tunnel to a host and a port. -/
structure TunnelsTo (host : String) (port : Nat) (trace : List (Event ProxyCall ProxyCall.Answer))
    (result : Except ProxyError Unit) : Prop where
  /-- The host is asked for, before anything else. -/
  asks : ∃ answer rest, trace = ⟨.resolve host, answer⟩ :: rest
  resolves : ∀ e ∈ trace, ∀ name, e.1 = .resolve name → name = host
  /-- Every connection is to the port, on an address that the host was resolved to. -/
  connects : ∀ e ∈ trace, ∀ address p, e.1 = .connect address p →
    p = port ∧ ∃ addresses, ⟨.resolve host, .ok addresses⟩ ∈ trace ∧ address ∈ addresses
  /-- One is tried, if there is an address at all. -/
  tries : ∀ addresses, ⟨.resolve host, .ok addresses⟩ ∈ trace → addresses ≠ [] →
    ∃ address ∈ addresses, ∃ answer, ⟨.connect address port, answer⟩ ∈ trace
  /-- The tunnel is open only on a connection. -/
  opened : result = .ok () → ∃ address socket, ⟨.connect address port, .ok socket⟩ ∈ trace

/-- The addresses are tried in turn, and no name is resolved. -/
theorem connectFirst_runs {port : Nat} {lastError : Option ProxyError} {addresses : List String}
    {trace : List (Event ProxyCall ProxyCall.Answer)} {result : Except ProxyError SocketId}
    (h : (connectFirst port lastError addresses).Runs trace result) :
    (∀ e ∈ trace, ∃ address ∈ addresses, e.1 = .connect address port) ∧
      (addresses ≠ [] → ∃ address ∈ addresses, ∃ answer,
        (⟨.connect address port, answer⟩ : Event ProxyCall ProxyCall.Answer) ∈ trace) ∧
      ∀ socket, result = .ok socket → ∃ address,
        (⟨.connect address port, .ok socket⟩ : Event ProxyCall ProxyCall.Answer) ∈ trace := by
  induction addresses generalizing lastError trace with
  | nil =>
    obtain ⟨rfl, rfl⟩ := Prog.runs_ret.mp h
    exact ⟨by simp, fun hne => absurd rfl hne, fun socket hsocket => by cases hsocket⟩
  | cons address addresses ih =>
    obtain ⟨answer, rest, rfl, hrest⟩ := Prog.runs_call.mp h
    cases answer with
    | ok socket =>
      obtain ⟨rfl, rfl⟩ := Prog.runs_ret.mp hrest
      refine ⟨?_, fun _ => ⟨address, by simp, _, List.mem_cons_self⟩, ?_⟩
      · intro e he
        rw [List.mem_singleton.mp he]
        exact ⟨address, by simp, rfl⟩
      · intro socket' hsocket
        rw [← Except.ok.inj hsocket]
        exact ⟨address, List.mem_cons_self⟩
    | error error =>
      obtain ⟨hcalls, -, hopened⟩ := ih hrest
      refine ⟨?_, fun _ => ⟨address, by simp, _, List.mem_cons_self⟩, ?_⟩
      · intro e he
        rcases List.mem_cons.mp he with rfl | he
        · exact ⟨address, by simp, rfl⟩
        · obtain ⟨other, hother, hcall⟩ := hcalls e he
          exact ⟨other, List.mem_cons_of_mem _ hother, hcall⟩
      · intro socket hsocket
        obtain ⟨other, hother⟩ := hopened socket hsocket
        exact ⟨other, List.mem_cons_of_mem _ hother⟩

/-- A tunnel that is opened connects to nothing else. -/
theorem openTunnel_runs {head : List UInt8} {upstream : SocketId}
    {trace : List (Event ProxyCall ProxyCall.Answer)} {result : Except ProxyError Unit}
    (h : (openTunnel head upstream).Runs trace result) :
    ∀ e ∈ trace, (∀ name, e.1 ≠ .resolve name) ∧ ∀ address port, e.1 ≠ .connect address port := by
  obtain ⟨_, rest, rfl, hrest⟩ := Prog.runs_call.mp h
  have hpipe : ∀ {rest : List (Event ProxyCall ProxyCall.Answer)},
      (Prog.call (.pipe upstream) fun _ => .ret (.ok ()) : ProxyProg (Except ProxyError Unit)).Runs
        rest result → ∀ e ∈ rest, e.1 = .pipe upstream := by
    intro rest hrun e he
    obtain ⟨_, after, rfl, hafter⟩ := Prog.runs_call.mp hrun
    obtain ⟨rfl, -⟩ := Prog.runs_ret.mp hafter
    rw [List.mem_singleton.mp he]
  have hcalls : ∀ e ∈ rest, e.1 = .writeUpstream upstream head ∨ e.1 = .pipe upstream := by
    intro e he
    split at hrest
    · obtain ⟨_, after, rfl, hafter⟩ := Prog.runs_call.mp hrest
      rcases List.mem_cons.mp he with rfl | he
      · exact Or.inl rfl
      · exact Or.inr (hpipe hafter e he)
    · exact Or.inr (hpipe hrest e he)
  intro e he
  rcases List.mem_cons.mp he with rfl | he
  · exact ⟨by rintro name ⟨⟩, by rintro address port ⟨⟩⟩
  · rcases hcalls e he with hcall | hcall <;> rw [hcall] <;>
      exact ⟨by rintro name ⟨⟩, by rintro address port ⟨⟩⟩

/-- **A tunnel goes to the host and the port that its authority was read as.** -/
theorem establishTunnel_ok {target : ProxyEndpoint} {head : List UInt8}
    (hparse : parseConnectAuthority tables authority = .ok target)
    {trace : List (Event ProxyCall ProxyCall.Answer)} {result : Except ProxyError Unit}
    (h : (establishTunnel tables (some authority) head).Runs trace result) :
    TunnelsTo target.hostname target.port trace result := by
  -- the name is looked up first, and only once
  rw [establishTunnel, Option.getD_some, hparse] at h
  obtain ⟨answer, rest, rfl, hrest⟩ := Prog.runs_call.mp h
  cases answer with
  | error cause =>
    obtain ⟨rfl, rfl⟩ := Prog.runs_ret.mp hrest
    refine ⟨⟨_, _, rfl⟩, ?_, ?_, ?_, fun hok => by cases hok⟩
    · rintro e he name hname
      rw [List.mem_singleton.mp he] at hname
      cases hname
      rfl
    · rintro e he address p hconnect
      rw [List.mem_singleton.mp he] at hconnect
      cases hconnect
    · intro addresses hmem
      cases List.mem_singleton.mp hmem
  | ok addresses =>
    -- then the addresses are tried in turn, and the bytes are passed on
    obtain ⟨first, second, connected, rfl, hfirst, hsecond⟩ := Prog.runs_bind.mp hrest
    obtain ⟨hcalls, htries, hopened⟩ := connectFirst_runs hfirst
    have hquiet : ∀ e ∈ second,
        (∀ name, e.1 ≠ .resolve name) ∧ ∀ address port, e.1 ≠ .connect address port := by
      cases connected with
      | ok upstream => exact openTunnel_runs hsecond
      | error cause =>
        obtain ⟨rfl, -⟩ := Prog.runs_ret.mp hsecond
        simp
    have hresolved : ∀ e ∈ first ++ second, ∀ name, e.1 ≠ .resolve name := by
      intro e he
      rcases List.mem_append.mp he with he | he
      · obtain ⟨address, -, hcall⟩ := hcalls e he
        rw [hcall]
        rintro name ⟨⟩
      · exact (hquiet e he).1
    refine ⟨⟨_, _, rfl⟩, ?_, ?_, ?_, ?_⟩
    · intro e he name hname
      rcases List.mem_cons.mp he with rfl | he
      · cases hname
        rfl
      · exact absurd hname (hresolved e he name)
    · intro e he address p hconnect
      rcases List.mem_cons.mp he with rfl | he
      · cases hconnect
      · rcases List.mem_append.mp he with he | he
        · obtain ⟨other, hother, hcall⟩ := hcalls e he
          rw [hcall] at hconnect
          cases hconnect
          exact ⟨rfl, addresses, List.mem_cons_self, hother⟩
        · exact absurd hconnect ((hquiet e he).2 address p)
    · intro answered hanswered hne
      -- the addresses tried are those of the one answer
      have heq : answered = addresses := by
        rcases List.mem_cons.mp hanswered with hsame | hmem
        · cases hsame
          rfl
        · exact absurd rfl (hresolved _ hmem _)
      subst heq
      obtain ⟨address, haddress, answer, htried⟩ := htries hne
      exact ⟨address, haddress, answer, List.mem_cons_of_mem _ (List.mem_append_left _ htried)⟩
    · intro hok
      cases connected with
      | ok upstream =>
        obtain ⟨address, hconnected⟩ := hopened upstream rfl
        exact ⟨address, upstream, List.mem_cons_of_mem _ (List.mem_append_left _ hconnected)⟩
      | error cause =>
        obtain ⟨-, rfl⟩ := Prog.runs_ret.mp hsecond
        cases hok

/-- A tunnel for an authority that is not accepted makes no call. -/
theorem establishTunnel_error {error : ProxyError} {head : List UInt8}
    (hparse : parseConnectAuthority tables authority = .error error)
    {trace : List (Event ProxyCall ProxyCall.Answer)} {result : Except ProxyError Unit}
    (h : (establishTunnel tables (some authority) head).Runs trace result) :
    trace = [] ∧ result = .error error := by
  rw [establishTunnel, Option.getD_some, hparse] at h
  exact Prog.runs_ret.mp h

/-! ## Well-formed and malformed authorities -/

def IsTargetHost (host : List Char) : Prop := IsName host ∨ IsDotted host

structure IsTargetPort (digits : List Char) : Prop where
  all_digits : digits.all Char.isDigit = true
  positive : 1 ≤ portValue digits
  le : portValue digits ≤ 65535

/-- No colon, unless it is one in brackets, has anything behind it. -/
def MissingPort (text : List Char) : Prop :=
  ∀ host port, text = host ++ ':' :: port → port = [] ∨ ']' ∈ port

def OutOfRangePort (text : List Char) : Prop :=
  ∃ host digits, text = host ++ ':' :: digits ∧ digits ≠ [] ∧ digits.all Char.isDigit = true ∧
    ¬(1 ≤ portValue digits ∧ portValue digits ≤ 65535)

/-- The texts that have to be rejected. -/
inductive Malformed (text : List Char) : Prop
  | missingPort (h : MissingPort text)
  | outOfRangePort (h : OutOfRangePort text)
  | userInfo (h : '@' ∈ text)
  | path (h : '/' ∈ text ∨ '\\' ∈ text)
  | query (h : '?' ∈ text)
  | fragment (h : '#' ∈ text)
  | space (c : Char) (hc : isSpaceChar c = true) (h : c ∈ text)

/-- A well-formed authority is read as its host and its port, and the tunnel goes there. -/
def ReachesTarget (tables : Tables) (authority : String) : Prop :=
  ∀ host digits, authority.toList = host ++ ':' :: digits → IsTargetHost host → IsTargetPort digits →
    parseConnectAuthority tables authority = .ok ⟨String.ofList host, portValue digits⟩ ∧
      ∀ head trace result, (establishTunnel tables (some authority) head).Runs trace result →
        TunnelsTo (String.ofList host) (portValue digits) trace result

/-- A malformed authority is rejected, and nothing is asked for on its behalf. -/
def RejectsMalformed (tables : Tables) (authority : String) : Prop :=
  Malformed authority.toList →
    ∃ error, parseConnectAuthority tables authority = .error error ∧
      ∀ head trace result, (establishTunnel tables (some authority) head).Runs trace result →
        trace = [] ∧ result = .error error

/-- A well-formed authority with the port that `http:` leaves out. -/
def HasDefaultPort (text : List Char) : Prop :=
  ∃ host digits, text = host ++ ':' :: digits ∧ IsTargetHost host ∧ IsTargetPort digits ∧
    portValue digits = 80

/-- A name whose last label is a number in radix 16, or that Unicode ToASCII changes or refuses. -/
def HasForeignName (tables : Tables) (text : List Char) : Prop :=
  ∃ host digits, text = host ++ ':' :: digits ∧ IsName host ∧ IsTargetPort digits ∧
    (EndsInHex host ∨ tables.toAscii host ≠ some host)

/-- A host and a port with backslashes in front of them, or with one behind them. -/
def HasBackslash (tables : Tables) (text : List Char) : Prop :=
  '\\' ∈ text ∧ ∃ host digits, Accepted tables text host digits

theorem IsTargetHost.chars {host : List Char} (h : IsTargetHost host) :
    ∀ c ∈ host, isHostChar c = true := by
  rcases h with h | ⟨a, b, c, d, -, -, -, -, rfl⟩
  · exact h.chars
  · exact fun x hx => Tables.isHostChar_of_mem_dotted hx

theorem IsTargetHost.ne_nil {host : List Char} (h : IsTargetHost host) : host ≠ [] := by
  rcases h with h | ⟨a, b, c, d, -, -, -, -, rfl⟩
  · rintro rfl
    exact h.labels (by simp)
  · exact dotted_ne_nil a b c d

/-- The characters of hosts are not foreign to authorities. -/
theorem isForeign_of_isHostChar {c : Char} (h : isHostChar c = true) :
    isForeignToAuthority c = false := by
  have hall : ∀ n < 128, isHostChar (Char.ofNat n) = true →
      isForeignToAuthority (Char.ofNat n) = false := by
    decide +kernel
  have hc : Char.ofNat c.toNat = c := Char.ofNat_toNat c
  have hlt := (plainChar_of_isHostChar h).ascii
  rw [← hc] at h ⊢
  exact hall c.toNat hlt h

theorem IsTargetPort.ne_nil {digits : List Char} (h : IsTargetPort digits) : digits ≠ [] := by
  rintro rfl
  have := h.positive
  simp at this

section Targets

variable {text host digits : List Char}

theorem plain_target (hhost : IsTargetHost host) (hport : IsTargetPort digits) :
    (host ++ ':' :: digits).any isForeignToAuthority = false := by
  rw [List.any_eq_false]
  intro c hc
  rcases List.mem_append.mp hc with hc | hc
  · simp [isForeign_of_isHostChar (hhost.chars c hc)]
  · rcases List.mem_cons.mp hc with rfl | hc
    · decide
    · have hdigit := List.all_eq_true.mp hport.all_digits c hc
      simp [isForeign_of_isHostChar (show isHostChar c = true by simp [isHostChar, hdigit])]

/-- A host and a port are laid out around their colon. -/
theorem layout_target (hhost : IsTargetHost host) (hport : IsTargetPort digits) :
    Layout (host ++ ':' :: digits) [] host digits [] where
  eq := by simp
  leads := by simp
  host_ne := hhost.ne_nil
  no_slash := fun hc => ne_of_isHostChar (hhost.chars _ hc) rfl rfl
  colon := splitHost_append digits fun c hc =>
    ⟨ne_of_isHostChar (hhost.chars c hc) rfl, ne_of_isHostChar (hhost.chars c hc) rfl,
      ne_of_isHostChar (hhost.chars c hc) rfl⟩
  digits_ne := hport.ne_nil
  all_digits := hport.all_digits
  ends := Or.inl (by simp)

/-- A text is laid out around one authority only. -/
theorem Layout.unique {lead tail lead' tail' host' digits' : List Char} (hbare : IsBare text)
    (h : Layout text lead host digits tail) (h' : Layout text lead' host' digits' tail') :
    host = host' ∧ digits = digits' := by
  have hsame : (host, some digits) = (host', some digits') := by
    rw [← h.colon, ← h'.colon, ← h.authority_eq hbare, ← h'.authority_eq hbare]
  obtain ⟨hhost, hdigits⟩ := Prod.mk.inj hsame
  exact ⟨hhost, Option.some.inj hdigits⟩

/-- A well-formed authority is accepted as what it says, or not at all. -/
theorem Accepted.eq_target {host' digits' : List Char} (htext : text = host ++ ':' :: digits)
    (hhost : IsTargetHost host) (hport : IsTargetPort digits)
    (h : Accepted tables text host' digits') : host' = host ∧ digits' = digits := by
  obtain ⟨lead, tail, hlayout⟩ := h.layout
  have htarget : Layout text [] host digits [] := by
    rw [htext]
    exact layout_target hhost hport
  exact Layout.unique (isBare_of_isForeign h.plain) hlayout htarget

end Targets

/-- **When well-formed authorities are reached.** -/
theorem reachesTarget_iff (htables : tables.LowersAscii) :
    ReachesTarget tables authority ↔
      ¬HasDefaultPort authority.toList ∧ ¬HasForeignName tables authority.toList := by
  constructor
  · intro h
    have hread : ∀ host digits, authority.toList = host ++ ':' :: digits → IsTargetHost host →
        IsTargetPort digits → portValue digits ≠ 80 ∧ tables.hostParser host = some host := by
      intro host digits htext hhost hport
      obtain ⟨host', digits', haccepted, hname, -⟩ :=
        parseConnectAuthority_eq_ok.mp (h host digits htext hhost hport).1
      obtain ⟨rfl, rfl⟩ := haccepted.eq_target htext hhost hport
      exact ⟨haccepted.ne, by simpa using hname⟩
    constructor
    · rintro ⟨host, digits, htext, hhost, hport, heighty⟩
      exact (hread host digits htext hhost hport).1 heighty
    · rintro ⟨host, digits, htext, hname, hport, hforeign⟩
      obtain ⟨hhex, hascii⟩ := (Tables.hostParser_name hname).mp
        (hread host digits htext (Or.inl hname) hport).2
      rcases hforeign with hforeign | hforeign
      · exact hhex hforeign
      · exact hforeign hascii
  · rintro ⟨hdefault, hforeign⟩ host digits htext hhost hport
    have hself : tables.hostParser host = some host := by
      rcases hhost with hname | hdotted
      · refine (Tables.hostParser_name hname).mpr ⟨fun hhex => ?_, ?_⟩
        · exact hforeign ⟨host, digits, htext, hname, hport, Or.inl hhex⟩
        · by_contra hascii
          exact hforeign ⟨host, digits, htext, hname, hport, Or.inr hascii⟩
      · exact Tables.hostParser_dotted htables hdotted
    have haccepted : Accepted tables authority.toList host digits :=
      { plain := by rw [htext]; exact plain_target hhost hport
        layout := ⟨[], [], by rw [htext]; exact layout_target hhost hport⟩
        host := by rw [hself]; rfl
        positive := hport.positive
        le := hport.le
        ne := fun heighty => hdefault ⟨host, digits, htext, hhost, hport, heighty⟩ }
    have hparse : parseConnectAuthority tables authority =
        .ok ⟨String.ofList host, portValue digits⟩ :=
      parseConnectAuthority_eq_ok.mpr ⟨host, digits, haccepted, by simpa using hself, rfl⟩
    exact ⟨hparse, fun head trace result hrun => establishTunnel_ok hparse hrun⟩

theorem rtakeWhile_colon (before : List Char) {after : List Char} (h : ':' ∉ after) :
    (before ++ ':' :: after).rtakeWhile (· ≠ ':') = after := by
  induction after using List.reverseRecOn with
  | nil => exact List.rtakeWhile_concat_neg _ _ _ (by decide)
  | append_singleton after c ih =>
    rw [List.mem_append, not_or] at h
    rw [← List.cons_append, ← List.append_assoc,
      List.rtakeWhile_concat_pos _ _ _ (by simpa using fun hc => h.2 (by simp [hc])), ih h.1]

/-- What is accepted without a backslash ends with its port, but for control characters. -/
theorem Accepted.ends {text host digits : List Char} (h : Accepted tables text host digits)
    (hslash : '\\' ∉ text) :
    ∃ before tail, text = before ++ ':' :: (digits ++ tail) ∧ digits ≠ [] ∧
      digits.all Char.isDigit = true ∧ ∀ c ∈ tail, isControlOrSpace c = true := by
  obtain ⟨lead, tail, hlayout⟩ := h.layout
  refine ⟨lead ++ host, tail, by rw [hlayout.eq]; simp, hlayout.digits_ne, hlayout.all_digits, ?_⟩
  rcases hlayout.ends with hends | ⟨path, rfl⟩
  · exact hends
  · exact absurd (by rw [hlayout.eq]; simp) hslash

/-- An authority that is accepted, and has no backslash, is not malformed. -/
theorem Accepted.not_malformed {text host digits : List Char} (h : Accepted tables text host digits)
    (hslash : '\\' ∉ text) : ¬Malformed text := by
  intro hmalformed
  obtain ⟨before, tail, htext, hne, hall, hcontrol⟩ := h.ends hslash
  have hmem : ∀ c, c.isDigit = false → isControlOrSpace c = false → c ∉ digits ++ tail := by
    intro c hdigit hspace hc
    rcases List.mem_append.mp hc with hc | hc
    · rw [List.all_eq_true.mp hall c hc] at hdigit
      cases hdigit
    · rw [hcontrol c hc] at hspace
      cases hspace
  cases hmalformed with
  | missingPort hmissing =>
    rcases hmissing _ _ htext with hnil | hbracket
    · exact hne (List.append_eq_nil_iff.mp hnil).1
    · exact hmem ']' rfl (by decide) hbracket
  | outOfRangePort hrange =>
    obtain ⟨host', digits', htext', -, hall', hrange⟩ := hrange
    have hcolon : ':' ∉ digits' := fun hc => by
      have := List.all_eq_true.mp hall' ':' hc
      cases this
    -- both are what stands after the last colon, so nothing stands after the port
    have hsame : digits ++ tail = digits' := by
      rw [← rtakeWhile_colon before (hmem ':' rfl (by decide)), ← htext, htext',
        rtakeWhile_colon host' hcolon]
    have htail : tail = [] := by
      rw [List.eq_nil_iff_forall_not_mem]
      intro c hc
      have hdigit := isDigit_bounds (List.all_eq_true.mp hall' c (by rw [← hsame]; simp [hc]))
      have hspace := hcontrol c hc
      simp only [isControlOrSpace, decide_eq_true_eq] at hspace
      omega
    rw [htail, List.append_nil] at hsame
    exact hrange (by rw [← hsame]; exact ⟨h.positive, h.le⟩)
  | userInfo hat => exact not_mem_of_isForeign h.plain rfl hat
  | path hpath =>
    rcases hpath with hpath | hpath
    · exact not_mem_of_isForeign h.plain rfl hpath
    · exact hslash hpath
  | query hquery => exact not_mem_of_isForeign h.plain rfl hquery
  | fragment hfragment => exact not_mem_of_isForeign h.plain rfl hfragment
  | space c hc hspace =>
    exact not_mem_of_isForeign h.plain (by simp [isForeignToAuthority, hc]) hspace

/-- **When malformed authorities are rejected.** -/
theorem rejectsMalformed_iff :
    RejectsMalformed tables authority ↔ ¬HasBackslash tables authority.toList := by
  constructor
  · rintro h ⟨hslash, host, digits, haccepted⟩
    obtain ⟨error, herror, -⟩ := h (.path (Or.inr hslash))
    obtain ⟨name, hname⟩ := Option.isSome_iff_exists.mp haccepted.host
    have hok : parseConnectAuthority tables authority =
        .ok ⟨String.ofList name, portValue digits⟩ :=
      parseConnectAuthority_eq_ok.mpr ⟨host, digits, haccepted, by simpa using hname, rfl⟩
    rw [hok] at herror
    cases herror
  · intro h hmalformed
    cases hparse : parseConnectAuthority tables authority with
    | error error => exact ⟨error, rfl, fun head trace result => establishTunnel_error hparse⟩
    | ok target =>
      obtain ⟨host, digits, haccepted, -⟩ := parseConnectAuthority_eq_ok.mp hparse
      exact absurd hmalformed
        (haccepted.not_malformed fun hslash => h ⟨hslash, host, digits, haccepted⟩)

/-- **Where a tunnel goes is what its authority says, but for three kinds of authorities.** -/
theorem connectAuthority_iff (htables : tables.LowersAscii) :
    ReachesTarget tables authority ∧ RejectsMalformed tables authority ↔
      ¬HasDefaultPort authority.toList ∧ ¬HasForeignName tables authority.toList ∧
        ¬HasBackslash tables authority.toList := by
  rw [reachesTarget_iff htables, rejectsMalformed_iff, and_assoc]

namespace ConnectAuthority.Sample

/-- Domains of ASCII with nothing to decode; any other is refused. -/
def asciiTables : Tables where
  toAscii domain :=
    if (domain.all fun c => c.toNat < 128 && c ≠ '%') &&
        (parts domain).all fun label => !isPunycoded label then
      some (domain.map Char.toLower)
    else none
  ipv6 _ := none

theorem asciiTables_lowers : asciiTables.LowersAscii := by
  intro domain _ hchars hlabels
  have hplain : (domain.all fun c => c.toNat < 128 && c ≠ '%') = true :=
    List.all_eq_true.mpr fun c hc => by simpa using hchars c hc
  have hwords : ((parts domain).all fun label => !isPunycoded label) = true :=
    List.all_eq_true.mpr fun label hlabel => by simp [hlabels label hlabel]
  dsimp only [asciiTables]
  rw [hplain, hwords]
  rfl

theorem isName_example : IsName "example.com".toList where
  chars := List.all_eq_true.mp (by decide +kernel)
  labels := by decide +kernel
  last := by
    intro label hlabel
    have hcom : (parts "example.com".toList).getLast? = some "com".toList := by decide +kernel
    rw [hcom] at hlabel
    obtain rfl := Option.some.inj hlabel
    decide +kernel

/-- The port 443 is reached, and there is no other way to read the text. -/
theorem connectAuthority_https :
    ReachesTarget asciiTables "example.com:443" ∧ RejectsMalformed asciiTables "example.com:443" := by
  have hread : ∀ host digits, "example.com:443".toList = host ++ ':' :: digits →
      IsTargetPort digits → host = "example.com".toList ∧ digits = "443".toList := by
    intro host digits htext hport
    have hcolon : ':' ∉ digits := fun hc => by
      have := List.all_eq_true.mp hport.all_digits ':' hc
      cases this
    have hparts : "example.com:443".toList = "example.com".toList ++ ':' :: "443".toList := by
      decide +kernel
    have hdigits : digits = "443".toList := by
      rw [← rtakeWhile_colon host hcolon, ← htext, hparts]
      exact rtakeWhile_colon _ (by decide +kernel)
    subst hdigits
    rw [hparts] at htext
    exact ⟨(List.append_cancel_right htext).symm, rfl⟩
  refine (connectAuthority_iff asciiTables_lowers).mpr ⟨?_, ?_, ?_⟩
  · rintro ⟨host, digits, htext, -, hport, heighty⟩
    obtain ⟨-, rfl⟩ := hread host digits htext hport
    exact absurd heighty (by decide +kernel)
  · rintro ⟨host, digits, htext, -, hport, hforeign⟩
    obtain ⟨rfl, -⟩ := hread host digits htext hport
    rcases hforeign with ⟨label, hlabel, hhex⟩ | hascii
    · have hcom : (parts "example.com".toList).getLast? = some "com".toList := by decide +kernel
      rw [hcom] at hlabel
      obtain rfl := Option.some.inj hlabel
      exact absurd hhex (by decide +kernel)
    · exact hascii (by decide +kernel)
  · rintro ⟨hslash, -⟩
    exact absurd hslash (by decide +kernel)

/-- The port 80 is refused, and a backslash with what follows it is not. -/
theorem port_and_backslash :
    ¬ReachesTarget asciiTables "example.com:80" ∧
      ¬RejectsMalformed asciiTables "example.com:443\\x" := by
  constructor
  · intro h
    have hport : IsTargetPort "80".toList := ⟨by decide +kernel, by decide +kernel, by decide +kernel⟩
    have hread := (h "example.com".toList "80".toList (by decide +kernel) (Or.inl isName_example)
      hport).1
    have herror : parseConnectAuthority asciiTables "example.com:80" =
        .error (.error "invalid CONNECT authority") := by decide +kernel
    rw [herror] at hread
    cases hread
  · intro h
    obtain ⟨error, herror, -⟩ := h (.path (Or.inr (by decide +kernel)))
    have hread : parseConnectAuthority asciiTables "example.com:443\\x" =
        .ok ⟨"example.com", 443⟩ := by decide +kernel
    rw [herror] at hread
    cases hread

end ConnectAuthority.Sample

end InboxServer
