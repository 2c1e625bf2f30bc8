import MqttNativeSocket.Core.Basic

/-! # The socket transport

A connected transport is driven by the results its system calls return. Each
`recv` and each `send` takes the next result of a script; a script that has run
out models a call that has not returned. Functions of the transport are in the
monad `Net`, whose `none` is a call still blocked in the kernel.
-/

namespace MqttNativeSocket

/-- What a `recv` or `SSL_read` call finds. -/
inductive RecvResult where
  | data (b : UInt8) (bs : Bytes)
  | eof
  /-- Under TLS an interrupted read is reported as `SSL_ERROR_WANT_READ`. -/
  | eintr
  /-- `EAGAIN`, `EWOULDBLOCK` or `ETIMEDOUT`; `SSL_ERROR_WANT_READ` under TLS. -/
  | again
  | fail (reason : Bytes)
  deriving DecidableEq, Repr

/-- One receiving call, and whether another thread set the stop flag before it returned. -/
structure RecvCall where
  result : RecvResult
  stopSet : Bool := false
  deriving DecidableEq, Repr

/-- What a `send` or `SSL_write` call does: `accept k` takes at most `k + 1` bytes. -/
inductive SendResult where
  | accept (k : ℕ)
  | eintr
  | zero
  | fail (reason : Bytes)
  deriving DecidableEq, Repr

/-- `wire` holds the bytes the kernel has accepted. -/
structure Transport where
  ssl : Bool := false
  stopFlag : Bool := false
  recvs : List RecvCall := []
  sends : List SendResult := []
  wire : Bytes := []
  deriving DecidableEq, Repr

/-- A computation on the transport that may return an error. -/
abbrev Net (α : Type) := ExceptT MqttException (StateT Transport Option) α

section Net

variable {α β γ : Type} {x : Net α} {f : α → Net β} {t t' : Transport}

theorem Net.bind_ok {a : α} (h : x t = some (.ok a, t')) : (x >>= f) t = f a t' := by
  change (x t).bind _ = _
  rw [h]; rfl

theorem Net.bind_error {e : MqttException} (h : x t = some (.error e, t')) :
    (x >>= f) t = some (.error e, t') := by
  change (x t).bind _ = _
  rw [h]; rfl

theorem Net.bind_none (h : x t = none) : (x >>= f) t = none := by
  change (x t).bind _ = _
  rw [h]; rfl

theorem Net.bind_congr {y : Net α} (h : x t = y t') : (x >>= f) t = (y >>= f) t' := by
  change (x t).bind _ = (y t').bind _
  rw [h]

/-- What comes first stays first. -/
theorem Net.exists_bind {y : Net γ} {g : γ → Net α} (h : x t = (y >>= g) t') :
    ∃ k, (x >>= f) t = (y >>= k) t' :=
  ⟨fun c => g c >>= f, by rw [← bind_assoc]; exact Net.bind_congr h⟩

/-- The computation blocks or returns an error. -/
def Net.Fails (x : Net α) (t : Transport) : Prop := ∀ a t', x t ≠ some (.ok a, t')

theorem Net.Fails.bind (h : Net.Fails x t) : Net.Fails (x >>= f) t := by
  intro b t'
  rcases hx : x t with _ | ⟨e | a, t''⟩
  · rw [Net.bind_none hx]; simp
  · rw [Net.bind_error hx]; simp
  · exact (h a t'' hx).elim

end Net

/-- `static_cast<int>` of a `size_t`: the residue modulo `2 ^ 32` closest to zero. -/
def toInt (n : ℕ) : ℤ := Int.bmod n 4294967296

def stopped : MqttException := ⟨.notConnected, ascii "Stopped"⟩

def closedByPeer : MqttException := ⟨.connectionLost, ascii "Connection closed by peer"⟩

/-- `sslErrorString()` after a failed call; an empty error queue has a text of its own. -/
def RecvResult.sslErrorString : RecvResult → Bytes
  | .fail reason => reason
  | _ => ascii "unknown SSL error"

/--
One `SSL_write` or `send` of the bytes not yet sent: how many the kernel takes, or the error.
`none` is an interrupted call, which is made again.
-/
def sendOnce (ssl : Bool) (data : Bytes) : SendResult → Result (Option ℕ)
  | .accept k =>
    if ssl then
      if 0 < toInt data.length then .ok (some (min (k + 1) (toInt data.length).toNat))
      else .error ⟨.connectionLost, ascii "SSL_write: unknown SSL error"⟩
    else .ok (some (min (k + 1) data.length))
  | .eintr =>
    if ssl then .error ⟨.connectionLost, ascii "SSL_write: unknown SSL error"⟩ else .ok none
  | .zero =>
    if ssl then .error ⟨.connectionLost, ascii "SSL_write: unknown SSL error"⟩
    else .error ⟨.connectionLost, ascii "send: connection closed"⟩
  | .fail reason =>
    .error ⟨.connectionLost, (if ssl then ascii "SSL_write: " else ascii "send: ") ++ reason⟩

/-- The loop of `sendAll` over the bytes not yet sent. -/
def sendAllLoop (ssl : Bool) :
    List SendResult → Bytes → Bytes → Option (Result Unit × List SendResult × Bytes)
  | calls, [], wire => some (.ok (), calls, wire)
  | [], _ :: _, _ => none
  | c :: calls, d :: ds, wire =>
    match sendOnce ssl (d :: ds) c with
    | .error e => some (.error e, calls, wire)
    | .ok none => sendAllLoop ssl calls (d :: ds) wire
    | .ok (some r) => sendAllLoop ssl calls ((d :: ds).drop r) (wire ++ (d :: ds).take r)

/-- `SocketTransport::sendAll`: send all bytes, retrying on partial writes. -/
def sendAll (data : Bytes) : Net Unit := fun t =>
  (sendAllLoop t.ssl t.sends data t.wire).map fun (r, sends, wire) =>
    (r, { t with sends := sends, wire := wire })

/-- The unread part of a segment stays at the front of the script. -/
def pushBack : Bytes → List RecvCall → List RecvCall
  | [], calls => calls
  | b :: bs, calls => ⟨.data b bs, false⟩ :: calls

def recvByteLoop (ssl : Bool) :
    Bool → List RecvCall → Option (Result UInt8 × Bool × List RecvCall)
  | true, calls => some (.error stopped, true, calls)
  | false, [] => none
  | false, c :: calls =>
    let stop := c.stopSet
    if ssl then
      match c.result with
      | .data b bs => some (.ok b, stop, pushBack bs calls)
      | .eintr | .again => recvByteLoop ssl stop calls
      | r =>
        if stop then some (.error stopped, stop, calls)
        else some (.error ⟨.connectionLost, ascii "SSL_read: " ++ r.sslErrorString⟩, stop, calls)
    else
      match c.result with
      | .data b bs => some (.ok b, stop, pushBack bs calls)
      | .eof => some (.error closedByPeer, stop, calls)
      | .eintr | .again => recvByteLoop ssl stop calls
      | .fail reason =>
        if stop then some (.error stopped, stop, calls)
        else some (.error ⟨.connectionLost, ascii "recv: " ++ reason⟩, stop, calls)

/-- `SocketTransport::recvByte`. -/
def recvByte : Net UInt8 := fun t =>
  (recvByteLoop t.ssl t.stopFlag t.recvs).map fun (r, stop, recvs) =>
    (r, { t with stopFlag := stop, recvs := recvs })

/-- `buf` holds the bytes got so far. A segment longer than what is missing ends the loop. -/
def recvExactLoop (ssl : Bool) (n : ℕ) :
    Bool → Bytes → List RecvCall → Option (Result Bytes × Bool × List RecvCall)
  | stop, buf, [] =>
    if n ≤ buf.length then some (.ok buf, stop, [])
    else if stop then some (.error stopped, stop, []) else none
  | stop, buf, c :: calls =>
    if n ≤ buf.length then some (.ok buf, stop, c :: calls)
    else if stop then some (.error stopped, stop, c :: calls)
    else
      let stop := c.stopSet
      match c.result with
      | .data b bs =>
        let missing := n - buf.length
        if (b :: bs).length ≤ missing then recvExactLoop ssl n stop (buf ++ b :: bs) calls
        else some (.ok (buf ++ (b :: bs).take missing), stop,
          pushBack ((b :: bs).drop missing) calls)
      | .eintr | .again => recvExactLoop ssl n stop buf calls
      | r =>
        if ssl then
          if stop then some (.error stopped, stop, calls)
          else some (.error ⟨.connectionLost, ascii "SSL_read error in recvExact"⟩, stop, calls)
        else
          match r with
          | .fail reason =>
            if stop then some (.error stopped, stop, calls)
            else some (.error ⟨.connectionLost, ascii "recv: " ++ reason⟩, stop, calls)
          | _ => some (.error closedByPeer, stop, calls)

/--
`SocketTransport::recvExact`: receive exactly `n` bytes. Its only caller asks for fewer than
`2 ^ 28`, so the cast of `n - got` to `int` under TLS is exact.
-/
def recvExact (n : ℕ) : Net Bytes := fun t =>
  (recvExactLoop t.ssl n t.stopFlag [] t.recvs).map fun (r, stop, recvs) =>
    (r, { t with stopFlag := stop, recvs := recvs })

end MqttNativeSocket
