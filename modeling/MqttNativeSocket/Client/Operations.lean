import MqttNativeSocket.Client.Connect
import MqttNativeSocket.Protocol.Consistency

/-! # What the public operations send

`publish`, `publishAsync`, `subscribe`, `unsubscribe` and `connect` up to the
packets they hand to `sendAll`. None of them checks a length or a QoS, so an
operation sends self-consistent packets exactly when its own arguments fit.
-/

namespace MqttNativeSocket

/-- An operation up to its sends. -/
inductive Outcome where
  /-- It returned an error and sent nothing. -/
  | refused (e : MqttException)
  /-- It returned Ok and sent nothing: the change waits for the next connection. -/
  | deferred
  | sends (packets : List Bytes)
  deriving DecidableEq, Repr

def Outcome.packets : Outcome → List Bytes
  | .refused _ => []
  | .deferred => []
  | .sends packets => packets

/-- `msg.qos > 0 ? msg.qos : impl_->defaultQos`. -/
def Message.effectiveQos (msg : Message) (defaultQos : ℤ) : ℤ :=
  if 0 < msg.qos then msg.qos else defaultQos

def notConnected : MqttException := ⟨.notConnected, ascii "Not connected"⟩

def alreadyConnected : MqttException := ⟨.alreadyConnected, ascii "Already connected"⟩

def MqttPublisher.publish (connected : Bool) (defaultQos : ℤ) (nextPacketId : UInt16)
    (msg : Message) : Outcome :=
  if !connected then .refused notConnected
  else
    let qos := msg.effectiveQos defaultQos
    let id := if 0 < qos then (allocPacketId nextPacketId).1 else 0
    .sends [buildPublish msg.topic msg.payload qos msg.retained msg.duplicate id]

/-- An identifier is taken at every QoS. -/
def MqttPublisher.publishAsync (connected offlineBufferingEnabled : Bool) (defaultQos : ℤ)
    (nextPacketId : UInt16) (msg : Message) : Outcome :=
  if !connected && !offlineBufferingEnabled then .refused notConnected
  else
    let qos := msg.effectiveQos defaultQos
    let id := (allocPacketId nextPacketId).1
    .sends [buildPublish msg.topic msg.payload qos msg.retained msg.duplicate id]

def MqttSubscriber.subscribe (connected : Bool) (nextPacketId : UInt16) (topic : Bytes) (qos : ℤ) :
    Outcome :=
  if !connected then .deferred
  else .sends [buildSubscribe (allocPacketId nextPacketId).1 [(topic, qos)]]

def MqttSubscriber.unsubscribe (connected : Bool) (nextPacketId : UInt16) (topic : Bytes) :
    Outcome :=
  if !connected then .deferred
  else .sends [buildUnsubscribe (allocPacketId nextPacketId).1 [topic]]

/-- The part of `connect` that both clients have; `further` is sent after the handshake. -/
def Client.connectSends (net : Network) (params : ConnectParams) (further : List Bytes)
    (c : Client) : Outcome :=
  if c.state = .connected then .refused alreadyConnected
  else
    match c.dial net with
    | .error e => .refused e
    | .ok _ => .sends (buildConnect params :: further)

/-- One SUBSCRIBE for each entry of the table. -/
def resubscribePackets : List (Bytes × ℤ) → UInt16 → List Bytes
  | [], _ => []
  | (topic, qos) :: subs, next =>
    buildSubscribe (allocPacketId next).1 [(topic, qos)] ::
      resubscribePackets subs (allocPacketId next).2

/-- A call of a public operation, with what it reads of the client. -/
inductive Operation (κ : Type) where
  | publish (connected : Bool) (defaultQos : ℤ) (nextPacketId : UInt16) (msg : Message)
  | publishAsync (connected offlineBufferingEnabled : Bool) (defaultQos : ℤ)
      (nextPacketId : UInt16) (msg : Message)
  | subscribe (connected : Bool) (nextPacketId : UInt16) (topic : Bytes) (qos : ℤ)
  | unsubscribe (connected : Bool) (nextPacketId : UInt16) (topic : Bytes)
  | connectPublisher (net : Network) (c : Client)
  /-- `accepted` tells whether the handshake got as far as `resubscribeAll`. -/
  | connectSubscriber (net : Network) (s : Subscriber κ) (accepted : Bool)

variable {κ : Type}

def Operation.outcome : Operation κ → Outcome
  | .publish connected defaultQos next msg => MqttPublisher.publish connected defaultQos next msg
  | .publishAsync connected offline defaultQos next msg =>
    MqttPublisher.publishAsync connected offline defaultQos next msg
  | .subscribe connected next topic qos => MqttSubscriber.subscribe connected next topic qos
  | .unsubscribe connected next topic => MqttSubscriber.unsubscribe connected next topic
  | .connectPublisher net c => c.connectSends net (MqttPublisher.connectParams c.config) []
  | .connectSubscriber net s accepted =>
    s.connectSends net (MqttSubscriber.connectParams s.config)
      (if accepted then resubscribePackets s.topics s.nextPacketId else [])

/-! ## The packets field by field -/

def resubscribeImages : List (Bytes × ℤ) → UInt16 → List Image
  | [], _ => []
  | (topic, qos) :: subs, next =>
    subscribeImage (allocPacketId next).1 topic qos ::
      resubscribeImages subs (allocPacketId next).2

/-- Whether `connect` comes as far as its CONNECT. -/
def Client.Dials (net : Network) (c : Client) : Prop :=
  c.state ≠ .connected ∧ (c.dial net).isOk

instance (net : Network) (c : Client) : Decidable (c.Dials net) :=
  inferInstanceAs (Decidable (_ ∧ _))

/-- The fields of every packet that the operation sends. -/
def Operation.images : Operation κ → List Image
  | .publish connected defaultQos next msg =>
    let qos := msg.effectiveQos defaultQos
    if connected then
      [publishImage msg.topic msg.payload qos msg.retained msg.duplicate
        (if 0 < qos then (allocPacketId next).1 else 0)]
    else []
  | .publishAsync connected offline defaultQos next msg =>
    if connected || offline then
      [publishImage msg.topic msg.payload (msg.effectiveQos defaultQos) msg.retained
        msg.duplicate (allocPacketId next).1]
    else []
  | .subscribe connected next topic qos =>
    if connected then [subscribeImage (allocPacketId next).1 topic qos] else []
  | .unsubscribe connected next topic =>
    if connected then [unsubscribeImage (allocPacketId next).1 topic] else []
  | .connectPublisher net c =>
    if c.Dials net then [connectImage (MqttPublisher.connectParams c.config)] else []
  | .connectSubscriber net s accepted =>
    if s.Dials net then
      connectImage (MqttSubscriber.connectParams s.config) ::
        if accepted then resubscribeImages s.topics s.nextPacketId else []
    else []

theorem resubscribeImages_bytes (subs : List (Bytes × ℤ)) (next : UInt16) :
    (resubscribeImages subs next).map Image.bytes = resubscribePackets subs next := by
  induction subs generalizing next with
  | nil => rfl
  | cons e subs ih =>
    rw [resubscribeImages, resubscribePackets, List.map_cons, subscribeImage_bytes, ih]

theorem Client.connectSends_packets (net : Network) (params : ConnectParams)
    (further : List Bytes) (c : Client) :
    (c.connectSends net params further).packets =
      if c.Dials net then buildConnect params :: further else [] := by
  cases hdial : c.dial net with
  | error e =>
    have h : ¬ c.Dials net := fun h => by simpa [hdial, Except.isOk, Except.toBool] using h.2
    rw [if_neg h, connectSends, hdial]
    split <;> rfl
  | ok t =>
    rw [connectSends, hdial]
    by_cases hstate : c.state = .connected
    · rw [if_pos hstate, if_neg fun h : c.Dials net => h.1 hstate]
      rfl
    · have h : c.Dials net := ⟨hstate, by rw [hdial]; rfl⟩
      rw [if_neg hstate, if_pos h]
      rfl

/-- The fields give the bytes that are handed to `sendAll`. -/
theorem Operation.images_bytes (op : Operation κ) :
    op.images.map Image.bytes = op.outcome.packets := by
  cases op with
  | publish connected defaultQos next msg =>
    cases connected <;>
      simp [images, outcome, MqttPublisher.publish, Outcome.packets, publishImage_bytes]
  | publishAsync connected offline defaultQos next msg =>
    cases connected <;> cases offline <;>
      simp [images, outcome, MqttPublisher.publishAsync, Outcome.packets, publishImage_bytes]
  | subscribe connected next topic qos =>
    cases connected <;>
      simp [images, outcome, MqttSubscriber.subscribe, Outcome.packets, subscribeImage_bytes]
  | unsubscribe connected next topic =>
    cases connected <;>
      simp [images, outcome, MqttSubscriber.unsubscribe, Outcome.packets, unsubscribeImage_bytes]
  | connectPublisher net c =>
    rw [outcome, Client.connectSends_packets, images]
    split <;> simp [connectImage_bytes]
  | connectSubscriber net s accepted =>
    rw [outcome, Client.connectSends_packets, images]
    cases accepted <;> split <;> simp [connectImage_bytes, resubscribeImages_bytes]

/-! ## When they are self-consistent -/

def Operation.SelfConsistent (op : Operation κ) : Prop := ∀ m ∈ op.images, m.SelfConsistent

def PublishFits (msg : Message) (qos : ℤ) : Prop :=
  msg.topic.length ≤ 65535 ∧ PublishQosFits qos ∧
    2 + msg.topic.length + (if 0 < qos then 2 else 0) + msg.payload.length ≤ 268435455

def FilterFits (e : Bytes × ℤ) : Prop := e.1.length ≤ 65535 ∧ e.2 % 4 ≤ 2

/-- The arguments of an operation that comes to its send fit the packet format. -/
def Operation.Fits : Operation κ → Prop
  | .publish connected defaultQos _ msg => connected → PublishFits msg (msg.effectiveQos defaultQos)
  | .publishAsync connected offline defaultQos _ msg =>
    connected || offline → PublishFits msg (msg.effectiveQos defaultQos)
  | .subscribe connected _ topic qos => connected → FilterFits (topic, qos)
  | .unsubscribe connected _ topic => connected → topic.length ≤ 65535
  | .connectPublisher net c => c.Dials net → (MqttPublisher.connectParams c.config).Consistent
  | .connectSubscriber net s accepted =>
    s.Dials net → (MqttSubscriber.connectParams s.config).Consistent ∧
      (accepted → ∀ e ∈ s.topics, FilterFits e)

theorem resubscribeImages_consistent_iff (subs : List (Bytes × ℤ)) (next : UInt16) :
    (∀ m ∈ resubscribeImages subs next, m.SelfConsistent) ↔ ∀ e ∈ subs, FilterFits e := by
  induction subs generalizing next with
  | nil => simp [resubscribeImages]
  | cons e subs ih =>
    rw [resubscribeImages, List.forall_mem_cons, List.forall_mem_cons,
      subscribeImage_consistent_iff, ih]
    rfl

theorem forall_mem_ite_iff {c : Prop} [Decidable c] {ms : List Image} {P : Image → Prop} :
    (∀ m ∈ if c then ms else [], P m) ↔ (c → ∀ m ∈ ms, P m) := by
  split <;> simp_all

/--
An operation hands packets to `sendAll` that are all self-consistent exactly when its arguments
fit; the packets are given field by field, with the bytes that go out.
-/
theorem operation_consistent_iff (op : Operation κ) :
    op.images.map Image.bytes = op.outcome.packets ∧ (op.SelfConsistent ↔ op.Fits) := by
  refine ⟨op.images_bytes, ?_⟩
  unfold Operation.SelfConsistent
  cases op with
  | publish connected defaultQos next msg =>
    simp only [Operation.images, Operation.Fits, forall_mem_ite_iff, List.forall_mem_singleton,
      publishImage_consistent_iff, PublishFits]
  | publishAsync connected offline defaultQos next msg =>
    simp only [Operation.images, Operation.Fits, forall_mem_ite_iff, List.forall_mem_singleton,
      publishImage_consistent_iff, PublishFits]
  | subscribe connected next topic qos =>
    simp only [Operation.images, Operation.Fits, forall_mem_ite_iff, List.forall_mem_singleton,
      subscribeImage_consistent_iff, FilterFits]
  | unsubscribe connected next topic =>
    simp only [Operation.images, Operation.Fits, forall_mem_ite_iff, List.forall_mem_singleton,
      unsubscribeImage_consistent_iff]
  | connectPublisher net c =>
    simp only [Operation.images, Operation.Fits, forall_mem_ite_iff, List.forall_mem_singleton,
      connectImage_consistent_iff]
  | connectSubscriber net s accepted =>
    simp only [Operation.images, Operation.Fits, forall_mem_ite_iff, List.forall_mem_cons,
      connectImage_consistent_iff, resubscribeImages_consistent_iff]

/-- A PUBLISH at QoS 4 carries an identifier and has no QoS bits. -/
theorem publish_contradicts_itself :
    ¬ (Operation.publish true 0 1 ⟨ascii "t", [], 4, false, false⟩ :
      Operation Unit).SelfConsistent := by
  intro h
  have hm := h _ (List.mem_singleton.mpr rfl)
  rw [publishImage_consistent_iff] at hm
  exact absurd hm.2.1 (by unfold PublishQosFits; decide)

end MqttNativeSocket
