import MqttNativeSocket.Protocol.Reader
import MqttNativeSocket.Transport.BrokerUrl
import MqttNativeSocket.Transport.Dial
import Mathlib.Data.List.AList

/-! # Connecting

`MqttPublisher::connect` and `MqttSubscriber::connect` as one caller runs them,
with no other operation in progress. A call that has not come back is `none`.
The two differ in the CONNECT parameters and in the resubscription that the
subscriber adds after the handshake.
-/

namespace MqttNativeSocket

/-- What the publisher and the subscriber share. The constructors reject an empty URL list. -/
structure Client where
  config : ConnectionConfig
  tlsConfig : TlsConfig
  brokerUrls_ne : config.brokerUrls ≠ []
  transport : Option Transport := none
  state : ConnectionState := .disconnected
  metricsConnected : Bool := false
  recvLoop : Bool := false
  keepalive : Bool := false

structure TopicSub (κ : Type) where
  qos : ℤ
  callback : κ

/-- `subscriptions` is keyed by topic; its order is that of the hash map. -/
structure Subscriber (κ : Type) extends Client where
  subscriptions : AList fun _ : Bytes => TopicSub κ
  nextPacketId : UInt16 := 1

def Client.transitionState (c : Client) (s : ConnectionState) : Client := { c with state := s }

/-- The counter before the call; the identifier and the counter after it. -/
def allocPacketId (next : UInt16) : UInt16 × UInt16 :=
  if next = 0 then (next + 1, next + 2) else (next, next + 1)

def MqttPublisher.connectParams (config : ConnectionConfig) : ConnectParams where
  clientId := config.clientId
  cleanSession := config.cleanSession
  keepaliveSeconds := config.keepaliveSeconds
  username := config.username
  password := config.password
  will := config.will.map fun w => ⟨w.topic, w.payload, w.qos, w.retained⟩

/-- The subscriber has no last will. -/
def MqttSubscriber.connectParams (config : ConnectionConfig) : ConnectParams where
  clientId := config.clientId
  cleanSession := config.cleanSession
  keepaliveSeconds := config.keepaliveSeconds
  username := config.username
  password := config.password

/-- `std::to_string` of a non-negative number. -/
def toText (n : ℕ) : Bytes := ascii (toString n)

def PacketType.toUInt8 : PacketType → UInt8
  | .connect => 1
  | .connack => 2
  | .publish => 3
  | .puback => 4
  | .pubrec => 5
  | .pubrel => 6
  | .pubcomp => 7
  | .subscribe => 8
  | .suback => 9
  | .unsubscribe => 10
  | .unsuback => 11
  | .pingreq => 12
  | .pingresp => 13
  | .disconnect => 14
  | .unnamed v => v

/-- The transport part of `connect`: the first URL, with TLS forced by its scheme. -/
def Client.dial (net : Network) (c : Client) : Result Transport :=
  let addr := parseBrokerUrl (c.config.brokerUrls.head c.brokerUrls_ne)
  let tlsCfg := if addr.useTls then { c.tlsConfig with enabled := true } else c.tlsConfig
  MqttNativeSocket.dial net addr.host addr.port tlsCfg c.config.connectTimeout

/-- How the part of `connect` before the background threads ends. -/
inductive Opened where
  | ended (out : Completion Unit) (c : Client)
  | connected (t : Transport) (c : Client)

/-- An error exit: the state is Failed and the transport stays where the calls left it. -/
def Client.failWith (c : Client) (t : Transport) (e : MqttException) : Opened :=
  .ended (.returned (.error e)) { c.transitionState .failed with transport := some t }

/-- Sends CONNECT and waits for CONNACK on a fresh transport. -/
def Client.handshake (params : ConnectParams) (t : Transport) (c : Client) : Option Opened :=
  match sendAll (buildConnect params) t with
  | none => none
  | some (.error e, t) => some (c.failWith t e)
  | some (.ok (), t) =>
    match readPacket t with
    | none => none
    | some (.error e, t) => some (c.failWith t e)
    | some (.ok pkt, t) =>
      if pkt.type ≠ .connack then
        some (c.failWith t ⟨.connectionFailed,
          ascii "Expected CONNACK, got packet type " ++ toText pkt.type.toUInt8.toNat⟩)
      else
        match parseConnack pkt.body with
        -- nothing catches this: the exception leaves `connect` with the state still Connecting
        | .error e => some (.ended (.thrown e) { c with transport := some t })
        | .ok connack =>
          if connack.returnCode ≠ 0 then
            some (c.failWith t ⟨.connectionFailed,
              ascii "CONNACK refused, return code " ++ toText connack.returnCode.toNat⟩)
          else some (.connected t { c.transitionState .connected with metricsConnected := true })

/-- `connect` up to the point where the background threads are started. -/
def Client.establish (net : Network) (params : ConnectParams) (c : Client) : Option Opened :=
  if c.state = .connected then
    some (.ended (.returned (.error ⟨.alreadyConnected, ascii "Already connected"⟩)) c)
  else
    let c := c.transitionState .connecting
    match c.dial net with
    | .error e => some (.ended (.returned (.error e)) (c.transitionState .failed))
    | .ok t => c.handshake params t

/-- `startRecvLoop` and `startKeepalive` on the connected transport. -/
def Client.startLoops (c : Client) (t : Transport) : Client :=
  { c with transport := some t, recvLoop := true, keepalive := true }

def MqttPublisher.connect (net : Network) (c : Client) : Option (Completion Unit × Client) :=
  match c.establish net (MqttPublisher.connectParams c.config) with
  | none => none
  | some (.ended out c) => some (out, c)
  | some (.connected t c) => some (.returned (.ok ()), c.startLoops t)

/-- One SUBSCRIBE for each entry of the table, the result of each send ignored. -/
def resubscribeAll : List (Bytes × ℤ) → UInt16 → Transport → Option (UInt16 × Transport)
  | [], next, t => some (next, t)
  | (topic, qos) :: subs, next, t =>
    let (id, next) := allocPacketId next
    match sendAll (buildSubscribe id [(topic, qos)]) t with
    | none => none
    | some (_, t) => resubscribeAll subs next t

def Subscriber.topics {κ : Type} (s : Subscriber κ) : List (Bytes × ℤ) :=
  s.subscriptions.entries.map fun e => (e.1, e.2.qos)

def MqttSubscriber.connect {κ : Type} (net : Network) (s : Subscriber κ) :
    Option (Completion Unit × Subscriber κ) :=
  match s.establish net (MqttSubscriber.connectParams s.config) with
  | none => none
  | some (.ended out c) => some (out, { s with toClient := c })
  | some (.connected t c) =>
    (resubscribeAll s.topics s.nextPacketId t).map fun (next, t) =>
      (.returned (.ok ()), { s with toClient := c.startLoops t, nextPacketId := next })

end MqttNativeSocket
