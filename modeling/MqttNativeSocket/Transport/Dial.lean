import MqttNativeSocket.Transport.Socket

/-! # Opening a connection

`SocketTransport::connect` as a function of what the resolver, the socket calls
and OpenSSL report. A call that fails reports the text the error carries.
-/

namespace MqttNativeSocket

/-- `connect(2)` on the non-blocking socket. -/
inductive ConnectCall where
  | established
  | inProgress
  | fail (reason : Bytes)
  deriving DecidableEq, Repr

inductive PollCall where
  | ready
  | timeout
  | fail
  deriving DecidableEq, Repr

/-- The loop around `SSL_connect`. -/
inductive HandshakeCall where
  | done
  | timeout
  | fail (reason : Bytes)
  deriving DecidableEq, Repr

/-- What the calls made for one connection report; `none` is success. -/
structure DialCalls where
  getaddrinfo : Option Bytes := none
  socket : Option Bytes := none
  connect : ConnectCall := .established
  poll : PollCall := .ready
  soError : Option Bytes := none
  ctxNew : Option Bytes := none
  loadVerify : Option Bytes := none
  clientCert : Option Bytes := none
  handshake : HandshakeCall := .done
  recvs : List RecvCall := []
  sends : List SendResult := []
  deriving DecidableEq, Repr

/-- What the network answers to a host, a port, TLS settings and a timeout in milliseconds. -/
abbrev Network := Bytes → UInt16 → TlsConfig → ℤ → DialCalls

/-- The TCP part: the calls up to an established socket in blocking mode. -/
def tcpConnect (host : Bytes) (calls : DialCalls) : Result Unit := do
  if let some reason := calls.getaddrinfo then
    throw ⟨.connectionFailed, ascii "getaddrinfo(" ++ host ++ ascii "): " ++ reason⟩
  if let some reason := calls.socket then
    throw ⟨.connectionFailed, ascii "socket(): " ++ reason⟩
  match calls.connect with
  | .established => return ()
  | .fail reason => throw ⟨.connectionFailed, ascii "connect(): " ++ reason⟩
  | .inProgress =>
    match calls.poll with
    | .timeout => throw ⟨.connectionTimeout, ascii "TCP connect timed out"⟩
    | .fail => throw ⟨.connectionFailed, ascii "poll() error"⟩
    | .ready =>
      if let some reason := calls.soError then
        throw ⟨.connectionFailed, ascii "connect SO_ERROR: " ++ reason⟩

/-- The optional TLS part: context, certificates and handshake. -/
def tlsConnect (tls : TlsConfig) (calls : DialCalls) : Result Unit := do
  if let some reason := calls.ctxNew then
    throw ⟨.tlsHandshakeFailed, ascii "SSL_CTX_new: " ++ reason⟩
  if tls.verifyPeer && !tls.caCertFile.isEmpty then
    if let some reason := calls.loadVerify then
      throw ⟨.certificateInvalid, ascii "load CA cert: " ++ reason⟩
  if tls.clientCertFile.isSome && tls.clientKeyFile.isSome then
    if let some reason := calls.clientCert then
      throw ⟨.tlsHandshakeFailed, ascii "load client cert/key: " ++ reason⟩
  match calls.handshake with
  | .done => return ()
  | .timeout => throw ⟨.connectionTimeout, ascii "TLS handshake timed out"⟩
  | .fail reason => throw ⟨.tlsHandshakeFailed, ascii "SSL_connect: " ++ reason⟩

/-- `SocketTransport::connect`: a fresh transport with the stop flag cleared. -/
def dial (net : Network) (host : Bytes) (port : UInt16) (tls : TlsConfig) (timeout : ℤ) :
    Result Transport := do
  let calls := net host port tls timeout
  tcpConnect host calls
  if tls.enabled then tlsConnect tls calls
  return { ssl := tls.enabled, recvs := calls.recvs, sends := calls.sends }

theorem dial_eq_ok_iff {net : Network} {host : Bytes} {port : UInt16} {tls : TlsConfig}
    {timeout : ℤ} {t : Transport} : dial net host port tls timeout = .ok t ↔
      tcpConnect host (net host port tls timeout) = .ok () ∧
      (tls.enabled = true → tlsConnect tls (net host port tls timeout) = .ok ()) ∧
      { ssl := tls.enabled, recvs := (net host port tls timeout).recvs,
        sends := (net host port tls timeout).sends } = t := by
  simp only [dial]
  cases tcpConnect host (net host port tls timeout) with
  | error e => simp [bind, Except.bind]
  | ok _ =>
    cases tls.enabled with
    | false => simp [bind, Except.bind, pure, Except.pure]
    | true =>
      cases tlsConnect tls (net host port tls timeout) with
      | error e => simp [bind, Except.bind]
      | ok _ => simp [bind, Except.bind, pure, Except.pure]

end MqttNativeSocket
