import MqttNativeSocket.Foundations.Replica
import MqttNativeSocket.Subscriber.Requests

/-! # The subscriber and its broker

The requests of a subscriber together with the connection they travel on and the
broker at its other end: `connect` with `resubscribeAll`, the receive loop, and a
broker that takes SUBSCRIBE and UNSUBSCRIBE in order and answers each of them. A
connection lost is a connection that delivers nothing more until the receive loop
finds out. With `cleanSession`, the session of the broker ends with it.
-/

namespace MqttNativeSocket

variable {κ : Type}

/-- A packet on its way to the broker. -/
inductive BrokerRequest where
  | subscribe (id : UInt16) (topic : Bytes) (qos : ℤ)
  | unsubscribe (id : UInt16) (topic : Bytes)
  deriving DecidableEq, Repr

/-- A packet on its way to the client. -/
inductive BrokerAnswer where
  | suback (id : UInt16) (returnCode : UInt8)
  | unsuback (id : UInt16)
  deriving DecidableEq, Repr

namespace BrokerRequest

def id : BrokerRequest → UInt16
  | subscribe id _ _ => id
  | unsubscribe id _ => id

def topic : BrokerRequest → Bytes
  | subscribe _ topic _ => topic
  | unsubscribe _ topic => topic

def subscribes : BrokerRequest → Bool
  | subscribe .. => true
  | unsubscribe .. => false

/-- What the broker does with the filters of the session, unless it refuses. -/
def change (p : BrokerRequest) : Bytes × Bool := (p.topic, p.subscribes)

/-- Only a SUBSCRIBE can be refused. -/
def refused (p : BrokerRequest) (returnCode : UInt8) : Bool :=
  p.subscribes && returnCode == 0x80

def answer (returnCode : UInt8) : BrokerRequest → BrokerAnswer
  | subscribe id _ _ => .suback id returnCode
  | unsubscribe id _ => .unsuback id

end BrokerRequest

namespace BrokerAnswer

def id : BrokerAnswer → UInt16
  | suback id _ => id
  | unsuback id => id

/-- The body of the packet. -/
def body : BrokerAnswer → Bytes
  | suback id returnCode => appendU16 [] id ++ [returnCode]
  | unsuback id => appendU16 [] id

end BrokerAnswer

/-- The packet that a call sends. -/
def SubscribeCall.packet (k : SubscribeCall κ) : BrokerRequest :=
  match k.req with
  | .subscribe topic qos _ => .subscribe k.id topic qos
  | .unsubscribe topic => .unsubscribe k.id topic

/-- Points of `connect`. -/
inductive ConnectPhase where
  | idle
  /-- CONNECT has been sent. -/
  | handshake
  /-- `Connected` has been set; `resubscribeAll` is about to lock the table. -/
  | table
  /-- The loop of `resubscribeAll`, with the topics not visited yet and the table locked. -/
  | resubscribing (todo : List Bytes)
  deriving DecidableEq, Repr

def ConnectPhase.locks : ConnectPhase → Bool
  | .resubscribing _ => true
  | _ => false

inductive RecvPhase where
  | off | running
  deriving DecidableEq, Repr

/--
The broker's part is `filters`, the filters of the current session. `recv` is the loop on the
connection, and `leaving` counts the receive threads that are out of their loop and have
`failAllAcks` to call.
-/
structure BrokerState (κ : Type) where
  client : SubscribeState κ := .initial
  state : ConnectionState := .disconnected
  connect : ConnectPhase := .idle
  recv : RecvPhase := .off
  leaving : ℕ := 0
  filters : Finset Bytes := ∅
  toBroker : List BrokerRequest := []
  toClient : List BrokerAnswer := []

inductive BrokerLabel (κ : Type) where
  | call (l : SubscribeLabel κ)
  /-- The broker takes the next packet; `returnCode` is its answer to a SUBSCRIBE. -/
  | handle (returnCode : UInt8)
  | receive
  /-- The receive loop finds the connection lost. -/
  | lose
  | failAllAcks
  | disconnect
  | dial
  | accepted
  | refused
  | table
  | resend (topic : Bytes) (ok : Bool)
  | listen

namespace BrokerState

/-- A session is being set up or is there. -/
def session (s : BrokerState κ) : Bool :=
  decide (s.connect ≠ .idle) || decide (s.state = .connected)

/-- The session ends, and with it what is under way. -/
def drop (s : BrokerState κ) : BrokerState κ :=
  { s with filters := ∅, toBroker := [], toClient := [] }

/-- A call sees the state of the client, and waits for the lock of the table. -/
def allows (s : BrokerState κ) : SubscribeLabel κ → Bool
  | .check _ connected => connected == decide (s.state = .connected)
  | .table _ => !s.connect.locks
  | .eraseTopic _ => !s.connect.locks
  | .suback _ => false
  | .unsuback _ => false
  | .failAllAcks => false
  | _ => true

/-- What a call puts on the wire; without a session, a packet goes nowhere. -/
def sends (s : BrokerState κ) : SubscribeLabel κ → List BrokerRequest
  | .send c none => if s.session then [(s.client.calls c).packet] else []
  | _ => []

def handle (s : BrokerState κ) (returnCode : UInt8) (p : BrokerRequest)
    (rest : List BrokerRequest) : BrokerState κ :=
  { s with
    filters := if p.refused returnCode then s.filters else Replica.apply s.filters p.change
    toBroker := rest
    toClient := s.toClient ++ [p.answer returnCode] }

def receive (s : BrokerState κ) (a : BrokerAnswer) (rest : List BrokerAnswer) : BrokerState κ :=
  { s with
    client := match a with
      | .suback .. => s.client.handleSuback a.body
      | .unsuback _ => s.client.handleUnsuback a.body
    toClient := rest }

/-- One round of `resubscribeAll`; it does not look at the result of the send. -/
def resend (s : BrokerState κ) (todo : List Bytes) (topic : Bytes) (qos : ℤ) (ok : Bool) :
    BrokerState κ :=
  { s with
    client := { s.client with nextPacketId := (allocPacketId s.client.nextPacketId).2 }
    connect := .resubscribing (todo.erase topic)
    toBroker := s.toBroker ++
      if ok then [.subscribe (allocPacketId s.client.nextPacketId).1 topic qos] else [] }

end BrokerState

def brokerStep (s : BrokerState κ) : BrokerLabel κ → Option (BrokerState κ)
  | .call l =>
    if s.allows l then
      (subscribeStep s.client l).map fun client =>
        { s with client := client, toBroker := s.toBroker ++ s.sends l }
    else none
  | .handle rc =>
    match s.toBroker with
    | p :: rest => some (s.handle rc p rest)
    | [] => none
  | .receive =>
    if s.recv = .running then
      match s.toClient with
      | a :: rest => some (s.receive a rest)
      | [] => none
    else none
  | .lose =>
    if s.recv = .running then
      some { s.drop with state := .reconnecting, recv := .off, leaving := s.leaving + 1 }
    else none
  | .failAllAcks =>
    if 0 < s.leaving then
      some { s with client := s.client.failAllAcks, leaving := s.leaving - 1 }
    else none
  | .disconnect =>
    if s.state = .connected ∧ s.connect = .idle then
      some { s.drop with state := .disconnected, recv := .off }
    else none
  | .dial =>
    if s.state ≠ .connected ∧ s.connect = .idle then
      some { s.drop with state := .connecting, connect := .handshake }
    else none
  | .accepted =>
    if s.connect = .handshake then some { s with state := .connected, connect := .table } else none
  | .refused =>
    if s.connect = .handshake then some { s.drop with state := .failed, connect := .idle } else none
  | .table =>
    if s.connect = .table then
      some { s with connect := .resubscribing s.client.subscriptions.keys }
    else none
  | .resend topic ok =>
    match s.connect with
    | .resubscribing todo =>
      if topic ∈ todo then
        (s.client.subscriptions.lookup topic).map fun sub => s.resend todo topic sub.qos ok
      else none
    | _ => none
  -- the new thread runs before the old one is joined, which only delays the return of `connect`
  | .listen =>
    if s.connect = .resubscribing [] then some { s with connect := .idle, recv := .running }
    else none

/-- What each event asks of the state, and what it makes of it. -/
inductive BrokerStep (s : BrokerState κ) : BrokerLabel κ → BrokerState κ → Prop where

  | call (l : SubscribeLabel κ) (client : SubscribeState κ) : s.allows l = true →
      subscribeStep s.client l = some client →
      BrokerStep s (.call l) { s with client := client, toBroker := s.toBroker ++ s.sends l }

  | handle (rc : UInt8) (p : BrokerRequest) (rest : List BrokerRequest) : s.toBroker = p :: rest →
      BrokerStep s (.handle rc) (s.handle rc p rest)

  | receive (a : BrokerAnswer) (rest : List BrokerAnswer) : s.recv = .running →
      s.toClient = a :: rest → BrokerStep s .receive (s.receive a rest)

  | lose : s.recv = .running →
      BrokerStep s .lose
        { s.drop with state := .reconnecting, recv := .off, leaving := s.leaving + 1 }

  | failAllAcks : BrokerStep s .failAllAcks
      { s with client := s.client.failAllAcks, leaving := s.leaving - 1 }

  | disconnect : s.connect = .idle →
      BrokerStep s .disconnect { s.drop with state := .disconnected, recv := .off }

  | dial : s.connect = .idle → s.state ≠ .connected →
      BrokerStep s .dial { s.drop with state := .connecting, connect := .handshake }

  | accepted : s.connect = .handshake →
      BrokerStep s .accepted { s with state := .connected, connect := .table }

  | refused : s.connect = .handshake →
      BrokerStep s .refused { s.drop with state := .failed, connect := .idle }

  | table : s.connect = .table →
      BrokerStep s .table { s with connect := .resubscribing s.client.subscriptions.keys }

  | resend (todo : List Bytes) (topic : Bytes) (sub : TopicSub κ) (ok : Bool) :
      s.connect = .resubscribing todo → s.client.subscriptions.lookup topic = some sub →
      BrokerStep s (.resend topic ok) (s.resend todo topic sub.qos ok)

  | listen : s.connect = .resubscribing [] →
      BrokerStep s .listen { s with connect := .idle, recv := .running }

theorem BrokerStep.of_eq {s s' : BrokerState κ} {l : BrokerLabel κ}
    (h : brokerStep s l = some s') : BrokerStep s l s' := by
  cases l with
  | call l =>
    simp only [brokerStep, Option.ite_none_right_eq_some, Option.map_eq_some_iff] at h
    obtain ⟨hallows, client, hstep, rfl⟩ := h
    exact .call l client hallows hstep
  | handle rc =>
    simp only [brokerStep] at h
    split at h
    · next p rest hup =>
      obtain rfl := Option.some.inj h
      exact .handle rc p rest hup
    · contradiction
  | receive =>
    simp only [brokerStep, Option.ite_none_right_eq_some] at h
    obtain ⟨hrecv, h⟩ := h
    split at h
    · next a rest hdown =>
      obtain rfl := Option.some.inj h
      exact .receive a rest hrecv hdown
    · contradiction
  | lose =>
    simp only [brokerStep, Option.ite_none_right_eq_some, Option.some.injEq] at h
    obtain ⟨hrecv, rfl⟩ := h
    exact .lose hrecv
  | failAllAcks =>
    simp only [brokerStep, Option.ite_none_right_eq_some, Option.some.injEq] at h
    obtain ⟨-, rfl⟩ := h
    exact .failAllAcks
  | disconnect =>
    simp only [brokerStep, Option.ite_none_right_eq_some, Option.some.injEq] at h
    obtain ⟨⟨-, hidle⟩, rfl⟩ := h
    exact .disconnect hidle
  | dial =>
    simp only [brokerStep, Option.ite_none_right_eq_some, Option.some.injEq] at h
    obtain ⟨⟨hstate, hidle⟩, rfl⟩ := h
    exact .dial hidle hstate
  | accepted =>
    simp only [brokerStep, Option.ite_none_right_eq_some, Option.some.injEq] at h
    obtain ⟨hconnect, rfl⟩ := h
    exact .accepted hconnect
  | refused =>
    simp only [brokerStep, Option.ite_none_right_eq_some, Option.some.injEq] at h
    obtain ⟨hconnect, rfl⟩ := h
    exact .refused hconnect
  | table =>
    simp only [brokerStep, Option.ite_none_right_eq_some, Option.some.injEq] at h
    obtain ⟨hconnect, rfl⟩ := h
    exact .table hconnect
  | resend topic ok =>
    simp only [brokerStep] at h
    split at h
    · next todo hconnect =>
      simp only [Option.ite_none_right_eq_some, Option.map_eq_some_iff] at h
      obtain ⟨-, sub, hsub, rfl⟩ := h
      exact .resend todo topic sub ok hconnect hsub
    · contradiction
  | listen =>
    simp only [brokerStep, Option.ite_none_right_eq_some, Option.some.injEq] at h
    obtain ⟨hconnect, rfl⟩ := h
    exact .listen hconnect

end MqttNativeSocket
