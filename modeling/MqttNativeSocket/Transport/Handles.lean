import MqttNativeSocket.Foundations.Holder
import MqttNativeSocket.Transport.Dial

/-! # What the transport holds

`SocketTransport::connect` and `disconnect` as far as the descriptor, the `SSL`
and the `SSL_CTX` object are concerned: which are created, which are given back
on each exit, and what the fields `fd`, `ctx` and `ssl` refer to.
-/

namespace MqttNativeSocket

structure SocketTransport where
  fd : Holder := {}
  ctx : Holder := {}
  ssl : Holder := {}
  connected : Bool := false
  stopFlag : Bool := false

namespace SocketTransport

variable {h : SocketTransport} {host : Bytes} {tls : TlsConfig} {calls : DialCalls}

def closeFd (h : SocketTransport) : SocketTransport := { h with fd := h.fd.release }

def freeCtx (h : SocketTransport) : SocketTransport := { h with ctx := h.ctx.release }

def freeSsl (h : SocketTransport) : SocketTransport := { h with ssl := h.ssl.release }

/-- The TCP part of `connect`, with the closing of the descriptor on its error exits. -/
def openTcp (host : Bytes) (calls : DialCalls) (h : SocketTransport) :
    Result Unit × SocketTransport :=
  match calls.getaddrinfo with
  | some reason =>
    (.error ⟨.connectionFailed, ascii "getaddrinfo(" ++ host ++ ascii "): " ++ reason⟩, h)
  | none =>
    match calls.socket with
    | some reason =>
      -- the field takes the -1 that `socket` returns
      (.error ⟨.connectionFailed, ascii "socket(): " ++ reason⟩, { h with fd := h.fd.clear })
    | none =>
      let h := { h with fd := h.fd.acquire }
      match calls.connect with
      | .established => (.ok (), h)
      | .fail reason => (.error ⟨.connectionFailed, ascii "connect(): " ++ reason⟩, h.closeFd)
      | .inProgress =>
        match calls.poll with
        | .timeout => (.error ⟨.connectionTimeout, ascii "TCP connect timed out"⟩, h.closeFd)
        | .fail => (.error ⟨.connectionFailed, ascii "poll() error"⟩, h.closeFd)
        | .ready =>
          match calls.soError with
          | some reason =>
            (.error ⟨.connectionFailed, ascii "connect SO_ERROR: " ++ reason⟩, h.closeFd)
          | none => (.ok (), h)

/-- What loading the certificates comes to: `none` is success. -/
def loadCertificates (tls : TlsConfig) (calls : DialCalls) : Option MqttException :=
  match if tls.verifyPeer && !tls.caCertFile.isEmpty then calls.loadVerify else none with
  | some reason => some ⟨.certificateInvalid, ascii "load CA cert: " ++ reason⟩
  | none =>
    match if tls.clientCertFile.isSome && tls.clientKeyFile.isSome then calls.clientCert
      else none with
    | some reason => some ⟨.tlsHandshakeFailed, ascii "load client cert/key: " ++ reason⟩
    | none => none

/--
The TLS part of `connect`. The result of `SSL_new` is not tested: `SSL_set_fd` dereferences it, so
that it is taken to succeed.
-/
def openTls (tls : TlsConfig) (calls : DialCalls) (h : SocketTransport) :
    Result Unit × SocketTransport :=
  match calls.ctxNew with
  | some reason =>
    (.error ⟨.tlsHandshakeFailed, ascii "SSL_CTX_new: " ++ reason⟩,
      { h with ctx := h.ctx.clear }.closeFd)
  | none =>
    let h := { h with ctx := h.ctx.acquire }
    match loadCertificates tls calls with
    | some e => (.error e, h.freeCtx.closeFd)
    | none =>
      let h := { h with ssl := h.ssl.acquire }
      match calls.handshake with
      | .done => (.ok (), h)
      | .timeout =>
        (.error ⟨.connectionTimeout, ascii "TLS handshake timed out"⟩, h.freeSsl.freeCtx.closeFd)
      | .fail reason =>
        (.error ⟨.tlsHandshakeFailed, ascii "SSL_connect: " ++ reason⟩, h.freeSsl.freeCtx.closeFd)

def connect (host : Bytes) (tls : TlsConfig) (calls : DialCalls) (h : SocketTransport) :
    Result Unit × SocketTransport :=
  match openTcp host calls { h with stopFlag := false } with
  | (.error e, h) => (.error e, h)
  | (.ok (), h) =>
    if tls.enabled then
      match openTls tls calls h with
      | (.error e, h) => (.error e, h)
      | (.ok (), h) => (.ok (), { h with connected := true })
    else (.ok (), { h with connected := true })

def disconnect (h : SocketTransport) : SocketTransport :=
  { h with stopFlag := true, connected := false }.freeSsl.freeCtx.closeFd

/-! ## The result is that of the calls -/

theorem openTcp_result : (openTcp host calls h).1 = tcpConnect host calls := by
  unfold openTcp tcpConnect
  cases calls.getaddrinfo with
  | some reason => rfl
  | none =>
    cases calls.socket with
    | some reason => rfl
    | none =>
      cases calls.connect with
      | established => rfl
      | fail reason => rfl
      | inProgress =>
        cases calls.poll with
        | timeout => rfl
        | fail => rfl
        | ready => cases calls.soError <;> rfl

theorem openTls_result : (openTls tls calls h).1 = tlsConnect tls calls := by
  unfold openTls tlsConnect loadCertificates
  cases calls.ctxNew with
  | some reason => rfl
  | none =>
    cases tls.verifyPeer && !tls.caCertFile.isEmpty <;>
      cases tls.clientCertFile.isSome && tls.clientKeyFile.isSome <;>
        cases calls.loadVerify <;> cases calls.clientCert <;> cases calls.handshake <;> rfl

/-- The opening succeeds or fails as `dial` says. -/
theorem connect_result {net : Network} {port : UInt16} {timeout : ℤ} :
    (connect host tls (net host port tls timeout) h).1 =
      (dial net host port tls timeout).map fun _ => () := by
  unfold connect dial
  simp only
  rw [← openTcp_result (h := { h with stopFlag := false })]
  rcases openTcp host (net host port tls timeout) { h with stopFlag := false } with ⟨e | ⟨⟩, h'⟩
  · rfl
  · cases htls : tls.enabled with
    | false => rfl
    | true =>
      simp only [if_true]
      rw [← openTls_result (h := h')]
      rcases openTls tls (net host port tls timeout) h' with ⟨e | ⟨⟩, h''⟩ <;> rfl

/-! ## What each exit leaves open -/

/-- Every open descriptor, `SSL_CTX` and `SSL` object is the one in its field. -/
def Accounted (h : SocketTransport) : Prop :=
  h.fd.Accounted ∧ h.ctx.Accounted ∧ h.ssl.Accounted

/-- Nothing is open. -/
def Vacant (h : SocketTransport) : Prop := h.fd.Vacant ∧ h.ctx.Vacant ∧ h.ssl.Vacant

/-- No TLS object is open without a descriptor. -/
def Nested (h : SocketTransport) : Prop := h.fd.Vacant → h.Vacant

instance : Decidable h.Accounted :=
  inferInstanceAs (Decidable (h.fd.Accounted ∧ h.ctx.Accounted ∧ h.ssl.Accounted))

theorem Vacant.accounted (hv : h.Vacant) : h.Accounted :=
  ⟨hv.1.accounted, hv.2.1.accounted, hv.2.2.accounted⟩

theorem Vacant.nested (hv : h.Vacant) : h.Nested := fun _ => hv

/-- Nothing is open just when every open object is held and none is held. -/
theorem vacant_iff :
    h.Vacant ↔ h.Accounted ∧ h.fd.held = none ∧ h.ctx.held = none ∧ h.ssl.held = none := by
  constructor
  · intro hv
    exact ⟨hv.accounted, hv.1.held, hv.2.1.held, hv.2.2.held⟩
  · rintro ⟨⟨hfd, hctx, hssl⟩, hfd', hctx', hssl'⟩
    exact ⟨(Holder.accounted_iff_vacant hfd').mp hfd, (Holder.accounted_iff_vacant hctx').mp hctx,
      (Holder.accounted_iff_vacant hssl').mp hssl⟩

/-- The calls that `openTcp` makes all succeed. -/
def OpensTcp (calls : DialCalls) : Prop :=
  calls.getaddrinfo = none ∧ calls.socket = none ∧
    (calls.connect = .established ∨
      calls.connect = .inProgress ∧ calls.poll = .ready ∧ calls.soError = none)

/-- The calls that `openTls` makes all succeed. -/
def OpensTls (tls : TlsConfig) (calls : DialCalls) : Prop :=
  calls.ctxNew = none ∧ loadCertificates tls calls = none ∧ calls.handshake = .done

/-- The calls of `connect` all succeed. -/
def Opens (tls : TlsConfig) (calls : DialCalls) : Prop :=
  OpensTcp calls ∧ (tls.enabled → OpensTls tls calls)

/-- A call that fails leaves nothing open that was not open before it. -/
def ReturnsError (h : SocketTransport) (r : Result Unit × SocketTransport) : Prop :=
  (∃ e, r.1 = .error e) ∧ (r.2.Vacant ↔ h.Vacant)

theorem ReturnsError.intro {e : MqttException} {h' : SocketTransport} (hv : h'.Vacant ↔ h.Vacant) :
    h.ReturnsError (.error e, h') :=
  ⟨⟨e, rfl⟩, hv⟩

theorem openTcp_cases (host : Bytes) (calls : DialCalls) (h : SocketTransport) :
    (¬ OpensTcp calls ∧ h.ReturnsError (openTcp host calls h)) ∨
      (OpensTcp calls ∧ openTcp host calls h = (.ok (), { h with fd := h.fd.acquire })) := by
  have hclosed : { h with fd := h.fd.acquire }.closeFd.Vacant ↔ h.Vacant := by
    simp only [Vacant, closeFd, Holder.acquire_release_vacant_iff]
  unfold openTcp OpensTcp
  cases calls.getaddrinfo with
  | some reason => exact .inl ⟨by simp, .intro Iff.rfl⟩
  | none =>
    cases calls.socket with
    | some reason => exact .inl ⟨by simp, .intro (by simp only [Vacant, Holder.clear_vacant_iff])⟩
    | none =>
      cases calls.connect with
      | established => exact .inr ⟨by simp, rfl⟩
      | fail reason => exact .inl ⟨by simp, .intro hclosed⟩
      | inProgress =>
        cases calls.poll with
        | timeout => exact .inl ⟨by simp, .intro hclosed⟩
        | fail => exact .inl ⟨by simp, .intro hclosed⟩
        | ready =>
          cases calls.soError with
          | some reason => exact .inl ⟨by simp, .intro hclosed⟩
          | none => exact .inr ⟨by simp, rfl⟩

/-- The error exits of `openTls` also close the descriptor made before it. -/
theorem openTls_cases (tls : TlsConfig) (calls : DialCalls) (h : SocketTransport) :
    (¬ OpensTls tls calls ∧
        h.ReturnsError (openTls tls calls { h with fd := h.fd.acquire })) ∨
      (OpensTls tls calls ∧ openTls tls calls { h with fd := h.fd.acquire } =
        (.ok (), { h with
          fd := h.fd.acquire, ctx := h.ctx.acquire, ssl := h.ssl.acquire })) := by
  have hfreed : { h with
      fd := h.fd.acquire, ctx := h.ctx.acquire, ssl := h.ssl.acquire
      }.freeSsl.freeCtx.closeFd.Vacant ↔ h.Vacant := by
    simp only [Vacant, freeSsl, freeCtx, closeFd, Holder.acquire_release_vacant_iff]
  unfold openTls OpensTls
  cases calls.ctxNew with
  | some reason =>
    refine .inl ⟨by simp, .intro ?_⟩
    simp only [Vacant, closeFd, Holder.acquire_release_vacant_iff, Holder.clear_vacant_iff]
  | none =>
    cases loadCertificates tls calls with
    | some e =>
      refine .inl ⟨by simp, .intro ?_⟩
      simp only [Vacant, freeCtx, closeFd, Holder.acquire_release_vacant_iff]
    | none =>
      cases calls.handshake with
      | done => exact .inr ⟨by simp, rfl⟩
      | timeout => exact .inl ⟨by simp, .intro hfreed⟩
      | fail reason => exact .inl ⟨by simp, .intro hfreed⟩

/-- The transport after a `connect` that succeeded. -/
def opened (tls : TlsConfig) (h : SocketTransport) : SocketTransport where
  fd := h.fd.acquire
  ctx := if tls.enabled then h.ctx.acquire else h.ctx
  ssl := if tls.enabled then h.ssl.acquire else h.ssl
  connected := true
  stopFlag := false

/-- What `connect` does: an error leaves no new object behind, success has the fields own them. -/
theorem connect_cases (host : Bytes) (tls : TlsConfig) (calls : DialCalls) (h : SocketTransport) :
    (¬ Opens tls calls ∧ h.ReturnsError (connect host tls calls h)) ∨
      (Opens tls calls ∧ connect host tls calls h = (.ok (), h.opened tls)) := by
  unfold connect Opens
  rcases openTcp_cases host calls { h with stopFlag := false } with
    ⟨hno, ⟨e, he⟩, hv⟩ | ⟨hopens, heq⟩
  · refine .inl ⟨fun ho => hno ho.1, ?_⟩
    rcases hr : openTcp host calls { h with stopFlag := false } with ⟨r, h'⟩
    rw [hr] at he hv
    obtain rfl : r = .error e := he
    exact .intro hv
  · rw [heq]
    cases htls : tls.enabled with
    | false => exact .inr ⟨⟨hopens, by simp⟩, by simp [opened, htls]⟩
    | true =>
      simp only [if_true]
      rcases openTls_cases tls calls { h with stopFlag := false } with
        ⟨hno, ⟨e, he⟩, hv⟩ | ⟨htlsOpens, htlsEq⟩
      · refine .inl ⟨fun ho => hno (ho.2 trivial), ?_⟩
        rcases hr : openTls tls calls { h with stopFlag := false, fd := h.fd.acquire } with ⟨r, h'⟩
        rw [hr] at he hv
        obtain rfl : r = .error e := he
        exact .intro hv
      · refine .inr ⟨⟨hopens, fun _ => htlsOpens⟩, ?_⟩
        rw [htlsEq]
        simp [opened, htls]

@[simp] theorem opened_not_vacant : ¬ (h.opened tls).Vacant :=
  fun hv => Holder.acquire_not_vacant hv.1

theorem opened_nested : (h.opened tls).Nested := fun hv => absurd hv Holder.acquire_not_vacant

/-- The new objects are all that is open just when nothing was open before. -/
theorem opened_accounted_iff (hs : h.Accounted) (hn : h.Nested) :
    (h.opened tls).Accounted ↔ h.Vacant := by
  constructor
  · intro ha
    exact hn (Holder.acquire_accounted_iff.mp ha.1)
  · intro hv
    refine ⟨Holder.acquire_accounted_iff.mpr hv.1, ?_⟩
    cases htls : tls.enabled with
    | false => simpa only [opened, htls, Bool.false_eq_true, if_false] using hs.2
    | true =>
      simp only [opened, htls, if_true, Holder.acquire_accounted_iff]
      exact hv.2

/-- `disconnect` gives back all that the fields account for. -/
theorem disconnect_vacant_iff : h.disconnect.Vacant ↔ h.Accounted := by
  simp only [disconnect, Vacant, Accounted, freeSsl, freeCtx, closeFd, Holder.release_vacant_iff]

end SocketTransport

end MqttNativeSocket
