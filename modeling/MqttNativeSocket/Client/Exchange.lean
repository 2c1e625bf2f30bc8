import MqttNativeSocket.Protocol.PublishCodec
import MqttNativeSocket.Publisher.AckLoop
import MqttNativeSocket.Subscriber.RecvLoop

/-! # From `publish` to the callback and back

The PUBLISH packets of a publisher, written with any partial writes and read by a
subscriber's receive loop in any segments, are its messages in the order in which
they were sent. What the loop acknowledges, read back by the publisher's receive
loop, completes the requests of the messages at QoS 1 and no others. The broker
in between is taken as a wire that passes the packets on. Where the connection
ends in the middle, the messages that had arrived whole have been handled.
-/

namespace MqttNativeSocket

variable {κ : Type}

/-- What `publish` hands to `buildPublish`. -/
structure Publication where
  topic : Bytes
  payload : Bytes
  qos : ℤ
  retained : Bool := false
  dup : Bool := false
  packetId : UInt16 := 0
  deriving DecidableEq, Repr

namespace Publication

variable (m : Publication)

def packet : Bytes := buildPublish m.topic m.payload m.qos m.retained m.dup m.packetId

/-- Its first byte and its body. -/
def framed : UInt8 × Bytes :=
  (publishByte m.qos m.retained m.dup, publishLayout m.topic m.payload m.qos m.packetId)

def info : PublishInfo := publishInfo m.topic m.payload m.qos m.retained m.dup m.packetId

def Encodable : Prop := MqttNativeSocket.Encodable m.topic m.payload m.qos

variable {m}

theorem Encodable.body_lt (h : m.Encodable) : m.framed.2.length < 2 ^ 28 := by
  have hlen := length_publishLayout m.topic m.payload m.qos m.packetId
  have := MqttNativeSocket.Encodable.body_le h
  simp only [framed]
  omega

/-- A receive loop takes the packet for the message. -/
theorem Encodable.message? (h : m.Encodable) :
    RecvLoop.message? (received m.framed) = some m.info := by
  obtain ⟨htype, hmod, hretained, hdup⟩ := publishByte_fields m.qos m.retained m.dup
  have hparse : parsePublish (received m.framed).flags (received m.framed).body = .ok m.info := by
    refine (parsePublish_eq_ok_iff _ _ _).mpr
      ⟨?_, h.topic_le, ?_, hretained.symm, hdup.symm, fun hq => if_neg (not_lt.mpr hq)⟩
    · simp only [info, publishInfo, received, framed, publishLayout]
      split <;> rfl
    · have := h.qos_nonneg
      have := h.qos_le
      simp only [received, framed, info, publishInfo]
      rw [hmod]
      omega
  have htype' : (received m.framed).type = .publish := htype
  rw [RecvLoop.message?, if_pos htype', hparse]
  rfl

theorem flatten_packets (ms : List Publication) :
    (ms.map packet).flatten = frames (ms.map framed) := by
  induction ms with
  | nil => rfl
  | cons m ms ih =>
    rw [List.map_cons, List.flatten_cons, ih, List.map_cons, frames_cons, packet, buildPublish_eq]
    rfl

theorem messages_received {ms : List Publication} (hms : ∀ m ∈ ms, m.Encodable) :
    RecvLoop.messages ((ms.map framed).map received) = ms.map info := by
  induction ms with
  | nil => rfl
  | cons m ms ih =>
    obtain ⟨hm, hms⟩ := List.forall_mem_cons.mp hms
    rw [List.map_cons, List.map_cons, RecvLoop.messages,
      List.filterMap_cons_some hm.message?, ← RecvLoop.messages, ih hms]
    rfl

end Publication

/-! ## Acknowledgements -/

/-- A PUBACK as a framed packet. -/
def pubackFrame (id : UInt16) : UInt8 × Bytes := (0x40, u16Bytes id)

theorem buildPuback_eq (id : UInt16) :
    buildPuback id = prependFixedHeader (u16Bytes id) 0x40 := by
  have hv : varLen (UInt32.ofNat (u16Bytes id).length) = [2] := by
    rw [length_u16Bytes, varLen, appendVarLen, if_neg (by decide)]
    decide
  rw [prependFixedHeader_eq, hv]
  rfl

theorem flatten_pubacks (ids : List UInt16) :
    (ids.map buildPuback).flatten = frames (ids.map pubackFrame) := by
  induction ids with
  | nil => rfl
  | cons id ids ih =>
    rw [List.map_cons, List.flatten_cons, ih, List.map_cons, frames_cons, buildPuback_eq]
    rfl

theorem parsePacketId_u16Bytes (id : UInt16) : parsePacketId (u16Bytes id) = id := by
  have h : ¬ (u16Bytes id).length < 2 := by simp
  rw [parsePacketId, dif_neg h]
  exact u16At_of_drop _ (List.append_nil _).symm

theorem acknowledged_pubacks (ids : List UInt16) :
    PublisherLoop.acknowledged ((ids.map pubackFrame).map received) = ids := by
  induction ids with
  | nil => rfl
  | cons id ids ih =>
    have htype : (received (pubackFrame id)).type = .puback := by
      simp only [received, pubackFrame]
      decide
    rw [List.map_cons, List.map_cons, PublisherLoop.acknowledged_cons_puback htype, ih]
    exact congrArg (· :: ids) (parsePacketId_u16Bytes id)

/-! ## The exchange -/

/-- The publications that a subscriber acknowledges. -/
def Publication.acks (ms : List Publication) : List UInt16 :=
  (ms.filter fun m => m.qos = 1).map Publication.packetId

theorem pubacks_of_infos (ms : List Publication) :
    ((ms.map Publication.info).filter fun info => info.qos = 1).map
      (fun info => buildPuback info.packetId) = (Publication.acks ms).map buildPuback := by
  induction ms with
  | nil => rfl
  | cons m ms ih =>
    by_cases hq : m.qos = 1
    · have hid : m.info.packetId = m.packetId := if_pos (by omega)
      have hinfo : m.info.qos = 1 := hq
      simp only [List.map_cons, List.filter_cons, hinfo, decide_true, if_true, hid,
        Publication.acks, hq]
      exact congrArg _ ih
    · have hinfo : m.info.qos ≠ 1 := hq
      simpa only [List.map_cons, List.filter_cons, hinfo, decide_false, Bool.false_eq_true,
        if_false, Publication.acks, hq] using ih

/--
Whatever partial writes and segments the bytes go through, a receive loop that reads the messages of
a publisher runs its callbacks on them in the order in which they were sent. What it hands to
`sendAll` meanwhile takes the requests of the messages at QoS 1 out of the publisher's table,
completed, and leaves every other request as it is.
-/
theorem publications_exchanged (callbacks : Callbacks κ) (ms : List Publication)
    (hms : ∀ m ∈ ms, m.Encodable) (tx tx' : Transport) (sent : Bytes)
    (hsend : sendEach (ms.map Publication.packet) tx = some (.ok (), tx'))
    (hsent : tx'.wire = tx.wire ++ sent) (sub : RecvLoop κ) (lost : RecvLoop κ → RecvLoop κ)
    (rx : Transport) (more : Bytes) (tail : List RecvCall) (hrx : rx.Feeds (sent ++ more) tail) :
    ∃ sub' rx' done, readLoop (RecvLoop.handlePacket callbacks) lost ms.length sub rx =
        (sub', rx') ∧ rx'.Feeds more tail ∧ sub'.log = sub.log ++ done ∧
      (∃ cbs : List (Option κ), cbs.length = ms.length ∧
        done = ((ms.map Publication.info).zip cbs).flatMap fun m => RecvLoop.events m.1 m.2) ∧
      ∀ (ty ty' : Transport) (acks : Bytes),
        sendEach (done.filterMap RecvLoop.sent?) ty = some (.ok (), ty') →
        ty'.wire = ty.wire ++ acks →
        ∀ (pub : PublisherLoop) (ry : Transport) (more : Bytes) (tail : List RecvCall),
          ry.Feeds (acks ++ more) tail →
          ∃ pub' ry', PublisherLoop.run false (Publication.acks ms).length pub ry = (pub', ry') ∧
            ry'.Feeds more tail ∧
            (∀ id, pub'.requests.pendingPubacks id =
              if id ∈ Publication.acks ms then none else pub.requests.pendingPubacks id) ∧
            ∀ c, pub'.requests.promises c =
              if ∃ id ∈ Publication.acks ms, pub.requests.pendingPubacks id = some c then
                .fulfilled .ok
              else pub.requests.promises c := by
  -- there: the frames of the publisher are the messages of the subscriber
  obtain rfl : sent = frames (ms.map Publication.framed) := by
    have hwire := sendEach_ok hsend
    rw [hsent, Publication.flatten_packets] at hwire
    exact List.append_cancel_left hwire
  have hbodies : ∀ p ∈ ms.map Publication.framed, p.2.length < 2 ^ 28 := by
    intro p hp
    obtain ⟨m, hm, rfl⟩ := List.mem_map.mp hp
    exact (hms m hm).body_lt
  obtain ⟨rx', hread, hfed⟩ := readLoop_frames (RecvLoop.handlePacket callbacks) lost sub
    hbodies hrx
  rw [List.length_map] at hread
  obtain ⟨cbs, hlen, hlog, -⟩ := RecvLoop.foldl_handlePacket_spec callbacks sub
    ((ms.map Publication.framed).map received)
  rw [Publication.messages_received hms, List.length_map] at hlen
  rw [Publication.messages_received hms] at hlog
  refine ⟨_, rx', _, hread, hfed, hlog, ⟨cbs, hlen, rfl⟩, ?_⟩
  -- and back: the acknowledgements of the subscriber are those of the messages at QoS 1
  intro ty ty' acks hback hacks pub ry more tail hry
  rw [RecvLoop.filterMap_sent_zip _ _ (by rw [hlen, List.length_map]), pubacks_of_infos] at hback
  obtain rfl : acks = frames ((Publication.acks ms).map pubackFrame) := by
    have hwire := sendEach_ok hback
    rw [hacks, flatten_pubacks] at hwire
    exact List.append_cancel_left hwire
  have hbodies : ∀ p ∈ (Publication.acks ms).map pubackFrame, p.2.length < 2 ^ 28 := by
    intro p hp
    obtain ⟨id, -, rfl⟩ := List.mem_map.mp hp
    simp [pubackFrame]
  obtain ⟨ry', hread', hfed'⟩ := readLoop_frames PublisherLoop.handlePacket
    (PublisherLoop.connectionLost false) pub hbodies hry
  rw [List.length_map] at hread'
  refine ⟨_, ry', hread', hfed', fun id => ?_, fun c => ?_⟩
  · rw [PublisherLoop.foldl_pendingPubacks, acknowledged_pubacks]
  · rw [PublisherLoop.foldl_promises, acknowledged_pubacks]

/-- A subscriber without subscriptions, with a callback for all messages. -/
def fallbackOnly : RecvLoop Unit where
  tables := { SubscribeState.initial with fallbackCallback := some (), zero_free := ⟨rfl, rfl⟩ }

def sampleMessage : Publication where
  topic := [97]
  payload := [7]
  qos := 1
  packetId := 1

theorem sampleMessage_packet : sampleMessage.packet = [0x32, 6, 0, 1, 97, 0, 1, 7] := by
  have hv : varLen (UInt32.ofNat (publishLayout [97] [7] 1 1).length) = [6] := by
    rw [varLen, appendVarLen, if_neg (by decide)]
    decide
  rw [Publication.packet, sampleMessage, buildPublish_eq, prependFixedHeader_eq, hv]
  decide

/-- The first of two requests is completed by the way of its message there and back. -/
theorem publications_exchanged_sampleMessage :
    ∃ r sub' rx' pub' ry', Runs.exec (publishStep false) PublishState.initial
        PublisherLoop.twoPublishes = some r ∧
      sendEach [sampleMessage.packet] { sends := [.accept 2, .eintr, .accept 9] } =
        some (.ok (), { wire := sampleMessage.packet }) ∧
      readLoop (RecvLoop.handlePacket fun _ _ t => (t, .ok ())) (RecvLoop.connectionLost false) 1
        fallbackOnly { recvs := [⟨.data 0x32 [6, 0, 1], false⟩, ⟨.data 97 [0, 1, 7], false⟩] } =
          (sub', rx') ∧
      sub'.log.filterMap RecvLoop.sent? = [buildPuback 1] ∧
      PublisherLoop.run false 1 { requests := r } { recvs := [⟨.data 0x40 [2, 0, 1], false⟩] } =
        (pub', ry') ∧
      pub'.requests.promises 0 = .fulfilled .ok ∧ pub'.requests.promises 1 = .pending := by
  have hrun : (Runs.exec (publishStep false) PublishState.initial PublisherLoop.twoPublishes).map
      (fun r => (r.pendingPubacks 1, r.promises 1)) = some (some 0, .pending) := by
    decide +kernel
  obtain ⟨r, hr, hv⟩ := Option.map_eq_some_iff.mp hrun
  simp only [Prod.mk.injEq] at hv
  have hsend : sendEach [sampleMessage.packet] { sends := [.accept 2, .eintr, .accept 9] } =
      some (.ok (), { wire := sampleMessage.packet }) := by
    rw [sampleMessage_packet]
    rfl
  have hencodable : ∀ m ∈ [sampleMessage], m.Encodable := by
    intro m hm
    obtain rfl := List.mem_singleton.mp hm
    exact ⟨by decide, by decide, by decide, by decide⟩
  obtain ⟨sub', rx', done, hread, -, hlog, ⟨cbs, hlen, hdone⟩, hback⟩ :=
    publications_exchanged (fun _ _ t => (t, .ok ())) [sampleMessage] hencodable
      { sends := [.accept 2, .eintr, .accept 9] } _ sampleMessage.packet hsend rfl fallbackOnly
      (RecvLoop.connectionLost false)
      { recvs := [⟨.data 0x32 [6, 0, 1], false⟩, ⟨.data 97 [0, 1, 7], false⟩] } [] []
      ⟨rfl, _, (List.append_nil _).symm, by simp [RecvCall.Quiet], by
        rw [sampleMessage_packet]
        rfl⟩
  have hacks : done.filterMap RecvLoop.sent? = [buildPuback 1] := by
    rw [hdone, RecvLoop.filterMap_sent_zip _ _ (by simpa using hlen)]
    rfl
  obtain ⟨pub', ry', hloop, -, -, hpromises⟩ := hback { sends := [.accept 9] }
    { wire := buildPuback 1 } (buildPuback 1) (by rw [hacks]; rfl) rfl { requests := r }
    { recvs := [⟨.data 0x40 [2, 0, 1], false⟩] } [] []
    ⟨rfl, _, (List.append_nil _).symm, by simp [RecvCall.Quiet], rfl⟩
  refine ⟨r, sub', rx', pub', ry', hr, hsend, hread, ?_, hloop, ?_, ?_⟩
  · rw [hlog, ← hacks]
    rfl
  · rw [hpromises, if_pos ⟨1, by decide, hv.1⟩]
  · rw [hpromises, if_neg, hv.2]
    rintro ⟨id, hid, h⟩
    obtain rfl : id = 1 := by simpa [Publication.acks, sampleMessage] using hid
    simp [hv.1] at h

/-! ## A connection that ends -/

/--
Of the messages sent to a subscriber, any number of bytes arrives before the end of the file. Just
the messages that are whole in them are counted, acknowledged if at QoS 1 and handed to callbacks,
in their order, and then the loop reports its loss, once.
-/
theorem messages_until_cut (callbacks : Callbacks κ) (ms : List Publication)
    (hms : ∀ m ∈ ms, m.Encodable) (k : ℕ) (sub : RecvLoop κ) (rx : Transport) (stop : Bool)
    (tail : List RecvCall)
    (hf : rx.Feeds ((ms.map Publication.packet).flatten.take k) (⟨.eof, stop⟩ :: tail)) (n : ℕ)
    (hn : ms.length < n) :
    ∃ j sub' rx', Whole (ms.map Publication.framed) k j ∧
      readLoop (RecvLoop.handlePacket callbacks) (RecvLoop.connectionLost false) n sub rx =
        (sub', rx') ∧ sub'.state = .reconnecting ∧
      sub'.reconnectCount = sub.reconnectCount + 1 ∧
      sub'.messagesReceived = sub.messagesReceived + j ∧
      (∃ cbs : List (Option κ), cbs.length = j ∧ sub'.log = sub.log ++
        (((ms.take j).map Publication.info).zip cbs).flatMap fun m => RecvLoop.events m.1 m.2) ∧
      sub'.log.filterMap RecvLoop.sent? = sub.log.filterMap RecvLoop.sent? ++
        (Publication.acks (ms.take j)).map buildPuback := by
  have hbodies : ∀ p ∈ ms.map Publication.framed, p.2.length < 2 ^ 28 := by
    intro p hp
    obtain ⟨m, hm, rfl⟩ := List.mem_map.mp hp
    exact (hms m hm).body_lt
  rw [Publication.flatten_packets] at hf
  obtain ⟨j, hj, hpackets⟩ := exists_whole hbodies k
  have hjlen : j ≤ ms.length := by simpa using hj.le_length
  have hshort : (packets ((frames (ms.map Publication.framed)).take k)).length < n := by
    rw [hpackets, List.length_map, List.length_take]
    omega
  obtain ⟨rx', hread⟩ := readLoop_eof (RecvLoop.handlePacket callbacks)
    (RecvLoop.connectionLost false) sub hf hshort
  have hmessages : RecvLoop.messages (packets ((frames (ms.map Publication.framed)).take k)) =
      (ms.take j).map Publication.info := by
    rw [hpackets, ← List.map_take]
    exact Publication.messages_received fun m hm => hms m (List.mem_of_mem_take hm)
  obtain ⟨⟨cbs, hlen, hlog⟩, hsent, -, hreceived, -⟩ := RecvLoop.run_spec callbacks false sub
    (packets ((frames (ms.map Publication.framed)).take k))
  rw [hmessages, List.length_map, List.length_take_of_le hjlen] at hlen hreceived
  rw [hmessages] at hlog hsent
  rw [pubacks_of_infos] at hsent
  have hlosses := congrArg (· + 1) (RecvLoop.foldl_handlePacket_reconnectCount callbacks
    sub (packets ((frames (ms.map Publication.framed)).take k)))
  exact ⟨j, _, rx', hj, hread, rfl, hlosses, hreceived, ⟨cbs, hlen, hlog⟩, hsent⟩

/-- The second of two messages is cut inside its payload. -/
theorem messages_until_cut_inPayload :
    ∃ j sub' rx', Whole ([sampleMessage, sampleMessage].map Publication.framed) 15 j ∧
      readLoop (RecvLoop.handlePacket fun _ _ t => (t, .ok ())) (RecvLoop.connectionLost false) 3
        fallbackOnly
        { recvs := [⟨.data 0x32 [6, 0, 1, 97, 0, 1, 7, 0x32, 6, 0, 1, 97, 0, 1], false⟩,
          ⟨.eof, false⟩] } = (sub', rx') ∧
      sub'.messagesReceived = j ∧ j = 1 := by
  have hencodable : ∀ m ∈ [sampleMessage, sampleMessage], m.Encodable := by
    intro m hm
    obtain rfl : m = sampleMessage := by simpa using hm
    exact ⟨by decide, by decide, by decide, by decide⟩
  obtain ⟨j, sub', rx', hj, hread, -, -, hreceived, -⟩ := messages_until_cut
    (fun _ _ t => (t, .ok ())) [sampleMessage, sampleMessage] hencodable 15 fallbackOnly
    { recvs := [⟨.data 0x32 [6, 0, 1, 97, 0, 1, 7, 0x32, 6, 0, 1, 97, 0, 1], false⟩,
      ⟨.eof, false⟩] } false []
    ⟨rfl, [⟨.data 0x32 [6, 0, 1, 97, 0, 1, 7, 0x32, 6, 0, 1, 97, 0, 1], false⟩], rfl,
      by simp [RecvCall.Quiet], by
        simp only [List.map_cons, List.map_nil, sampleMessage_packet]
        rfl⟩ 3 (by decide)
  refine ⟨j, sub', rx', hj, hread, by simpa [fallbackOnly] using hreceived, ?_⟩
  have hframe : prependFixedHeader sampleMessage.framed.2 sampleMessage.framed.1 =
      [0x32, 6, 0, 1, 97, 0, 1, 7] := by
    rw [← sampleMessage_packet, Publication.packet, buildPublish_eq]
    rfl
  obtain ⟨hle, hcomplete, hnext⟩ := hj
  simp only [List.map_cons, List.map_nil, List.length_cons, List.length_nil] at hle hcomplete hnext
  interval_cases j
  · have := hnext (by decide)
    simp [hframe] at this
  · rfl
  · simp [hframe] at hcomplete

end MqttNativeSocket
