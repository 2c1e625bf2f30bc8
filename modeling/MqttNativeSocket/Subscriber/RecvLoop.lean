import MqttNativeSocket.Subscriber.Requests
import MqttNativeSocket.Topic.Filter

/-! # The subscriber's receive loop

One run of the loop over the packets that `readPacket` returned, until it fails.
A callback is any total function on the tables that returns or throws a
`std::exception`; it may subscribe and unsubscribe. What the loop hands to
`sendAll` and the callbacks it runs are logged in order. The acknowledgements,
the callback runs and the counters are those of the well-formed messages, and a
packet that does not parse might as well not have come.
-/

namespace MqttNativeSocket

variable {κ : Type}

/-- No request waits under identifier 0, which `allocPacketId` skips. -/
def SubscribeState.ZeroFree (s : SubscribeState κ) : Prop :=
  s.pendingSubacks 0 = none ∧ s.pendingUnsubacks 0 = none

theorem allocPacketId_ne_zero (next : UInt16) : (allocPacketId next).1 ≠ 0 := by
  unfold allocPacketId
  split
  · next h =>
    rw [h]
    decide
  · next h => exact h

namespace SubscribeState.ZeroFree

variable {s s' : SubscribeState κ}

theorem of_shrink (hs : s.ZeroFree)
    (hsub : ∀ id, s.pendingSubacks id = none → s'.pendingSubacks id = none)
    (hunsub : ∀ id, s.pendingUnsubacks id = none → s'.pendingUnsubacks id = none) : s'.ZeroFree :=
  ⟨hsub 0 hs.1, hunsub 0 hs.2⟩

theorem update_none {entries : UInt16 → Option ℕ} {k id : UInt16} (h : entries id = none) :
    Function.update entries k none id = none := by
  rw [Function.update_apply]
  split
  · rfl
  · exact h

theorem handleSuback (hs : s.ZeroFree) (body : Bytes) : (s.handleSuback body).ZeroFree := by
  unfold SubscribeState.handleSuback
  split
  · exact hs
  · exact hs.of_shrink (fun _ => update_none) fun _ h => h

theorem handleUnsuback (hs : s.ZeroFree) (body : Bytes) : (s.handleUnsuback body).ZeroFree :=
  hs.of_shrink (fun _ h => h) fun _ => update_none

theorem eraseEntry (hs : s.ZeroFree) (c : ℕ) : (s.eraseEntry c).ZeroFree := by
  unfold SubscribeState.eraseEntry
  split
  · exact hs.of_shrink (fun _ => update_none) fun _ h => h
  · exact hs.of_shrink (fun _ h => h) fun _ => update_none

theorem register (hs : s.ZeroFree) {c : ℕ} (hid : (s.calls c).id ≠ 0) :
    (s.register c).ZeroFree := by
  unfold SubscribeState.register
  split
  · exact ⟨(Function.update_of_ne hid.symm ..).trans hs.1, hs.2⟩
  · exact ⟨hs.1, (Function.update_of_ne hid.symm ..).trans hs.2⟩

/-- Requests keep identifier 0 free as long as none registers under it. -/
theorem step (hs : s.ZeroFree) {l : SubscribeLabel κ} (h : subscribeStep s l = some s')
    (hid : ∀ c, l = .register c → (s.calls c).id ≠ 0) : s'.ZeroFree := by
  cases SubscribeStep.of_eq h with
  | register c hpc => exact hs.register (hid c rfl)
  | eraseEntry c cause hpc => exact hs.eraseEntry c
  | suback body => exact hs.handleSuback body
  | unsuback body => exact hs.handleUnsuback body
  | failAllAcks => exact ⟨rfl, rfl⟩
  | _ => exact hs

end SubscribeState.ZeroFree

/-- The tables, with callbacks that may be empty. -/
structure Tables (κ : Type) extends SubscribeState (Option κ) where
  fallbackCallback : Option κ
  zero_free : toSubscribeState.ZeroFree

/-- What a callback does to the tables, and the `what()` of the exception it throws. -/
abbrev Callbacks (κ : Type) := κ → Message → Tables κ → Tables κ × Except Bytes Unit

inductive LoopEvent (κ : Type) where
  | sent (packet : Bytes)
  | invoked (callback : κ) (msg : Message)
  deriving DecidableEq, Repr

structure RecvLoop (κ : Type) where
  tables : Tables κ
  messagesReceived : ℕ := 0
  droppedMessages : ℕ := 0
  reconnectCount : ℕ := 0
  metricsConnected : Bool := true
  state : ConnectionState := .connected
  log : List (LoopEvent κ) := []

namespace Tables

def handleSuback (t : Tables κ) (body : Bytes) : Tables κ where
  toSubscribeState := t.toSubscribeState.handleSuback body
  fallbackCallback := t.fallbackCallback
  zero_free := t.zero_free.handleSuback body

def handleUnsuback (t : Tables κ) (body : Bytes) : Tables κ where
  toSubscribeState := t.toSubscribeState.handleUnsuback body
  fallbackCallback := t.fallbackCallback
  zero_free := t.zero_free.handleUnsuback body

def failAllAcks (t : Tables κ) : Tables κ where
  toSubscribeState := t.toSubscribeState.failAllAcks
  fallbackCallback := t.fallbackCallback
  zero_free := ⟨rfl, rfl⟩

/-- The handler that `dispatchPublish` picks: an exact entry, else a pattern, else the fallback. -/
def findCallback (t : Tables κ) (topic : Bytes) : Option κ :=
  match t.subscriptions.lookup topic with
  | some sub => sub.callback
  | none =>
    let cb := (t.subscriptions.entries.find? fun e => topicMatchesFilter topic e.1).bind
      fun e => e.2.callback
    if cb.isNone then t.fallbackCallback else cb

end Tables

namespace RecvLoop

variable (callbacks : Callbacks κ)

def message (info : PublishInfo) : Message :=
  ⟨info.topic, info.payload, info.qos, info.retained, info.dup⟩

/-- The result of `sendAll` is not looked at. -/
def ack (info : PublishInfo) (s : RecvLoop κ) : RecvLoop κ :=
  if info.qos = 1 then { s with log := s.log ++ [.sent (buildPuback info.packetId)] } else s

def deliver (info : PublishInfo) (s : RecvLoop κ) : RecvLoop κ :=
  match s.tables.findCallback info.topic with
  | some cb =>
    let s := { s with log := s.log ++ [LoopEvent.invoked cb (message info)] }
    match callbacks cb (message info) s.tables with
    | (tables, .ok ()) => { s with tables := tables }
    -- the exception is logged
    | (tables, .error _) => { s with tables := tables }
  | none => { s with droppedMessages := s.droppedMessages + 1 }

def dispatchPublish (s : RecvLoop κ) (info : PublishInfo) : RecvLoop κ :=
  deliver callbacks info (ack info { s with messagesReceived := s.messagesReceived + 1 })

/-- The `switch` on the packet type. -/
def handlePacket (s : RecvLoop κ) (pkt : IncomingPacket) : RecvLoop κ :=
  if pkt.type = .publish then
    match parsePublish pkt.flags pkt.body with
    | .ok info => dispatchPublish callbacks s info
    | .error _ => s
  else if pkt.type = .suback then { s with tables := s.tables.handleSuback pkt.body }
  else if pkt.type = .unsuback then { s with tables := s.tables.handleUnsuback pkt.body }
  -- PINGRESP and all other types are only traced
  else s

/-- The loop's way out when `readPacket` fails. -/
def connectionLost (stopRequested : Bool) (s : RecvLoop κ) : RecvLoop κ :=
  if stopRequested then s
  else
    { s with
      metricsConnected := false
      reconnectCount := s.reconnectCount + 1
      state := .reconnecting
      tables := s.tables.failAllAcks }

/-- The packets up to the read that fails. -/
def run (stopRequested : Bool) (s : RecvLoop κ) (ps : List IncomingPacket) : RecvLoop κ :=
  connectionLost stopRequested (ps.foldl (handlePacket callbacks) s)

/-! ## One packet -/

/-- The message of a well-formed PUBLISH. -/
def message? (pkt : IncomingPacket) : Option PublishInfo :=
  if pkt.type = .publish then (parsePublish pkt.flags pkt.body).toOption else none

/-- The messages of a run, in arrival order. -/
def messages (ps : List IncomingPacket) : List PublishInfo := ps.filterMap message?

/-- What one message adds to the log, once it is known which callback it finds. -/
def events (info : PublishInfo) (cb : Option κ) : List (LoopEvent κ) :=
  (if info.qos = 1 then [.sent (buildPuback info.packetId)] else []) ++
    cb.toList.map fun cb => .invoked cb (message info)

/-- A body that its parser rejects. -/
def Unparsed (pkt : IncomingPacket) : Prop :=
  pkt.type = .publish ∧ (parsePublish pkt.flags pkt.body).isOk = false ∨
    pkt.type = .suback ∧ (parseSuback pkt.body).isOk = false ∨
    pkt.type = .unsuback ∧ pkt.body.length < 2

variable {callbacks : Callbacks κ} {s : RecvLoop κ} {pkt : IncomingPacket}

variable (callbacks s) in
theorem deliver_spec (info : PublishInfo) :
    (deliver callbacks info s).log = s.log ++
      (s.tables.findCallback info.topic).toList.map (fun cb => .invoked cb (message info)) ∧
    (deliver callbacks info s).messagesReceived = s.messagesReceived ∧
    (deliver callbacks info s).droppedMessages +
      (s.tables.findCallback info.topic).toList.length = s.droppedMessages + 1 := by
  cases hcb : s.tables.findCallback info.topic with
  | none => simp [deliver, hcb]
  | some cb =>
    rcases hr : callbacks cb (message info) s.tables with ⟨tables, _ | ⟨⟩⟩ <;>
      simp [deliver, hcb, hr]

theorem ack_tables (info : PublishInfo) : (ack info s).tables = s.tables := by
  rw [ack]
  split <;> rfl

variable (callbacks s) in
/-- A message is acknowledged, then handed to the callback it finds or else dropped. -/
theorem dispatchPublish_spec (info : PublishInfo) :
    (dispatchPublish callbacks s info).log =
      s.log ++ events info (s.tables.findCallback info.topic) ∧
    (dispatchPublish callbacks s info).messagesReceived = s.messagesReceived + 1 ∧
    (dispatchPublish callbacks s info).droppedMessages +
      (s.tables.findCallback info.topic).toList.length = s.droppedMessages + 1 := by
  obtain ⟨hlog, hreceived, hdropped⟩ := deliver_spec callbacks
    (ack info { s with messagesReceived := s.messagesReceived + 1 }) info
  rw [ack_tables] at hlog hdropped
  refine ⟨?_, ?_, ?_⟩
  · rw [dispatchPublish, hlog, ack, events]
    split <;> simp
  · rw [dispatchPublish, hreceived, ack]
    split <;> rfl
  · rw [dispatchPublish, hdropped, ack]
    split <;> rfl

variable (callbacks s) in
/-- A packet that is not a well-formed PUBLISH is neither logged nor counted. -/
theorem handlePacket_of_none (h : message? pkt = none) :
    (handlePacket callbacks s pkt).log = s.log ∧
      (handlePacket callbacks s pkt).messagesReceived = s.messagesReceived ∧
      (handlePacket callbacks s pkt).droppedMessages = s.droppedMessages := by
  unfold handlePacket
  split
  · next ht =>
    rw [message?, if_pos ht] at h
    cases hp : parsePublish pkt.flags pkt.body with
    | ok info => simp [hp, Except.toOption] at h
    | error e => exact ⟨rfl, rfl, rfl⟩
  · split
    · exact ⟨rfl, rfl, rfl⟩
    · split <;> exact ⟨rfl, rfl, rfl⟩

theorem handlePacket_of_some {info : PublishInfo} (h : message? pkt = some info) :
    handlePacket callbacks s pkt = dispatchPublish callbacks s info := by
  rw [message?, Option.ite_none_right_eq_some] at h
  obtain ⟨ht, h⟩ := h
  rw [handlePacket, if_pos ht]
  cases hp : parsePublish pkt.flags pkt.body with
  | ok info' =>
    rw [hp] at h
    rw [Option.some.inj h]
  | error e => simp [hp, Except.toOption] at h

/-- An UNSUBACK without an identifier asks for entry 0, which there never is. -/
theorem handleUnsuback_of_short (t : Tables κ) {body : Bytes} (h : body.length < 2) :
    t.handleUnsuback body = t := by
  obtain ⟨t, fallback, hzero⟩ := t
  have hid : parsePacketId body = 0 := dif_pos h
  have hpromises : Pending.resolve t.pendingUnsubacks t.promises 0 (fun _ => .answered 0) =
      t.promises :=
    funext fun c => Pending.resolve_of_ne (by simp [hzero.2])
  have hpending : Function.update t.pendingUnsubacks 0 none = t.pendingUnsubacks :=
    Function.update_eq_self_iff.mpr hzero.2.symm
  simp only [Tables.handleUnsuback, SubscribeState.handleUnsuback, hid, hpromises, hpending]

/-- A packet that does not parse changes nothing. -/
theorem handlePacket_of_unparsed (h : Unparsed pkt) : handlePacket callbacks s pkt = s := by
  rcases h with ⟨ht, h⟩ | ⟨ht, h⟩ | ⟨ht, h⟩
  · rw [handlePacket, if_pos ht]
    cases hp : parsePublish pkt.flags pkt.body with
    | ok info => simp [hp, Except.isOk, Except.toBool] at h
    | error e => rfl
  · have hs : s.tables.handleSuback pkt.body = s.tables := by
      cases hp : parseSuback pkt.body with
      | ok info => simp [hp, Except.isOk, Except.toBool] at h
      | error e => simp [Tables.handleSuback, SubscribeState.handleSuback, hp]
    rw [handlePacket, if_neg (by simp [ht]), if_pos ht, hs]
  · rw [handlePacket, if_neg (by simp [ht]), if_neg (by simp [ht]), if_pos ht,
      handleUnsuback_of_short s.tables h]

/-- The loop as it would be with nothing behind it. -/
def fresh (s : RecvLoop κ) : RecvLoop κ :=
  { s with messagesReceived := 0, droppedMessages := 0, log := [] }

/-- What a loop did, put after what another had done before. -/
def after (s d : RecvLoop κ) : RecvLoop κ :=
  { d with
    messagesReceived := s.messagesReceived + d.messagesReceived
    droppedMessages := s.droppedMessages + d.droppedMessages
    log := s.log ++ d.log }

theorem dispatchPublish_alone (s : RecvLoop κ) (info : PublishInfo) :
    dispatchPublish callbacks s info = s.after (dispatchPublish callbacks s.fresh info) := by
  cases hcb : s.tables.findCallback info.topic with
  | none =>
    by_cases hq : info.qos = 1 <;>
      simp [dispatchPublish, deliver, ack, fresh, after, hcb, hq]
  | some cb =>
    rcases hr : callbacks cb (message info) s.tables with ⟨tables, _ | ⟨⟩⟩ <;>
      by_cases hq : info.qos = 1 <;>
        simp [dispatchPublish, deliver, ack, fresh, after, hcb, hq, hr]

/-- A packet does what it would do if it were the first. -/
theorem handlePacket_alone (s : RecvLoop κ) (pkt : IncomingPacket) :
    handlePacket callbacks s pkt = s.after (handlePacket callbacks s.fresh pkt) := by
  have hsame : s.after s.fresh = s := by simp [after, fresh]
  unfold handlePacket
  split
  · cases parsePublish pkt.flags pkt.body with
    | ok info => exact dispatchPublish_alone s info
    | error e => exact hsame.symm
  · split
    · simp [after, fresh]
    · split
      · simp [after, fresh]
      · exact hsame.symm

/-! ## The whole run -/

theorem dispatchPublish_reconnectCount (s : RecvLoop κ) (info : PublishInfo) :
    (dispatchPublish callbacks s info).reconnectCount = s.reconnectCount := by
  cases hcb : s.tables.findCallback info.topic with
  | none => by_cases hq : info.qos = 1 <;> simp [dispatchPublish, deliver, ack, hcb, hq]
  | some cb =>
    rcases hr : callbacks cb (message info) s.tables with ⟨tables, _ | ⟨⟩⟩ <;>
      by_cases hq : info.qos = 1 <;> simp [dispatchPublish, deliver, ack, hcb, hq, hr]

theorem handlePacket_reconnectCount (s : RecvLoop κ) (pkt : IncomingPacket) :
    (handlePacket callbacks s pkt).reconnectCount = s.reconnectCount := by
  unfold handlePacket
  split
  · cases parsePublish pkt.flags pkt.body with
    | ok info => exact dispatchPublish_reconnectCount s info
    | error e => rfl
  · split
    · rfl
    · split <;> rfl

variable (callbacks) in
/-- Packets are no losses. -/
theorem foldl_handlePacket_reconnectCount (s : RecvLoop κ) (ps : List IncomingPacket) :
    (ps.foldl (handlePacket callbacks) s).reconnectCount = s.reconnectCount := by
  induction ps generalizing s with
  | nil => rfl
  | cons p ps ih => rw [List.foldl_cons, ih, handlePacket_reconnectCount]

variable (callbacks s) in
theorem foldl_handlePacket_spec (ps : List IncomingPacket) :
    ∃ cbs : List (Option κ), cbs.length = (messages ps).length ∧
      (ps.foldl (handlePacket callbacks) s).log =
        s.log ++ ((messages ps).zip cbs).flatMap (fun m => events m.1 m.2) ∧
      (ps.foldl (handlePacket callbacks) s).messagesReceived =
        s.messagesReceived + (messages ps).length ∧
      (ps.foldl (handlePacket callbacks) s).droppedMessages + (cbs.filter Option.isSome).length =
        s.droppedMessages + (messages ps).length := by
  induction ps generalizing s with
  | nil => exact ⟨[], rfl, by simp [messages], rfl, rfl⟩
  | cons p ps ih =>
    obtain ⟨cbs, hlen, hlog, hreceived, hdropped⟩ := ih (handlePacket callbacks s p)
    cases h : message? p with
    | none =>
      obtain ⟨hl, hr, hd⟩ := handlePacket_of_none callbacks s h
      have hm : messages (p :: ps) = messages ps := List.filterMap_cons_none h
      rw [hl] at hlog
      rw [hr] at hreceived
      rw [hd] at hdropped
      exact ⟨cbs, by rw [hm, hlen], by rw [hm]; exact hlog, by rw [hm]; exact hreceived,
        by rw [hm]; exact hdropped⟩
    | some info =>
      obtain ⟨hl, hr, hd⟩ := dispatchPublish_spec callbacks s info
      generalize s.tables.findCallback info.topic = cb at hl hd
      have hm : messages (p :: ps) = info :: messages ps := List.filterMap_cons_some h
      rw [handlePacket_of_some h] at hlog hreceived hdropped
      refine ⟨cb :: cbs, by rw [hm, List.length_cons, List.length_cons, hlen], ?_, ?_, ?_⟩
      · rw [hm, List.foldl_cons, handlePacket_of_some h, hlog, hl]
        simp
      · rw [hm, List.foldl_cons, handlePacket_of_some h, hreceived, hr, List.length_cons]
        omega
      · rw [hm, List.foldl_cons, handlePacket_of_some h, List.length_cons]
        cases cb <;> simp at hd ⊢ <;> omega

/-- The packet that an event hands to `sendAll`. -/
def sent? : LoopEvent κ → Option Bytes
  | .sent packet => some packet
  | .invoked _ _ => none

def isInvoked : LoopEvent κ → Bool
  | .sent _ => false
  | .invoked _ _ => true

theorem filterMap_sent_events (info : PublishInfo) (cb : Option κ) :
    (events info cb).filterMap sent? =
      if info.qos = 1 then [buildPuback info.packetId] else [] := by
  unfold events
  cases cb <;> split <;> simp [sent?]

theorem countP_invoked_events (info : PublishInfo) (cb : Option κ) :
    (events info cb).countP isInvoked = cb.toList.length := by
  unfold events
  cases cb <;> split <;> simp [isInvoked]

theorem filterMap_sent_zip (infos : List PublishInfo) (cbs : List (Option κ))
    (h : cbs.length = infos.length) :
    ((infos.zip cbs).flatMap fun m => events m.1 m.2).filterMap sent? =
      (infos.filter fun info => info.qos = 1).map fun info => buildPuback info.packetId := by
  induction infos generalizing cbs with
  | nil => rfl
  | cons info infos ih =>
    cases cbs with
    | nil => simp at h
    | cons cb cbs =>
      simp only [List.zip_cons_cons, List.flatMap_cons, List.filterMap_append,
        filterMap_sent_events, ih cbs (by simpa using h), List.filter_cons, decide_eq_true_eq]
      split <;> simp

theorem countP_invoked_zip (infos : List PublishInfo) (cbs : List (Option κ))
    (h : cbs.length = infos.length) :
    ((infos.zip cbs).flatMap fun m => events m.1 m.2).countP isInvoked =
      (cbs.filter Option.isSome).length := by
  induction infos generalizing cbs with
  | nil =>
    obtain rfl : cbs = [] := List.length_eq_zero_iff.mp h
    rfl
  | cons info infos ih =>
    cases cbs with
    | nil => simp at h
    | cons cb cbs =>
      simp only [List.zip_cons_cons, List.flatMap_cons, List.countP_append,
        countP_invoked_events, ih cbs (by simpa using h)]
      cases cb <;> simp
      omega

theorem connectionLost_log (stopRequested : Bool) (s : RecvLoop κ) :
    (connectionLost stopRequested s).log = s.log ∧
      (connectionLost stopRequested s).messagesReceived = s.messagesReceived ∧
      (connectionLost stopRequested s).droppedMessages = s.droppedMessages := by
  unfold connectionLost
  split <;> exact ⟨rfl, rfl, rfl⟩

/--
What a run of the loop sends, calls and counts is told by the well-formed messages alone: an
acknowledgement for each at QoS 1, then its callback if it finds one, else a dropped message.
A packet that does not parse can be left out, and every packet acts as if it were the first.
-/
theorem run_spec (callbacks : Callbacks κ) (stopRequested : Bool) (s : RecvLoop κ)
    (ps : List IncomingPacket) :
    let s' := run callbacks stopRequested s ps
    (∃ cbs : List (Option κ), cbs.length = (messages ps).length ∧
      s'.log = s.log ++ ((messages ps).zip cbs).flatMap fun m => events m.1 m.2) ∧
    s'.log.filterMap sent? = s.log.filterMap sent? ++
      ((messages ps).filter fun info => info.qos = 1).map (fun info =>
        buildPuback info.packetId) ∧
    (∀ pre p post, ps = pre ++ p :: post →
      (Unparsed p → run callbacks stopRequested s (pre ++ post) = s') ∧
        ∀ t, t = pre.foldl (handlePacket callbacks) s →
          (pre ++ [p]).foldl (handlePacket callbacks) s =
            t.after (handlePacket callbacks t.fresh p)) ∧
    s'.messagesReceived = s.messagesReceived + (messages ps).length ∧
    s'.log.countP isInvoked + s'.droppedMessages =
      s.log.countP isInvoked + s.droppedMessages + (messages ps).length := by
  intro s'
  obtain ⟨hlog, hreceived, hdropped⟩ :=
    connectionLost_log stopRequested (ps.foldl (handlePacket callbacks) s)
  obtain ⟨cbs, hlen, hl, hr, hd⟩ := foldl_handlePacket_spec callbacks s ps
  have hlog' : s'.log = s.log ++ ((messages ps).zip cbs).flatMap fun m => events m.1 m.2 :=
    hlog.trans hl
  refine ⟨⟨cbs, hlen, hlog'⟩, ?_, fun pre p post hps => ⟨fun hp => ?_, fun t ht => ?_⟩,
    hreceived.trans hr, ?_⟩
  · rw [hlog', List.filterMap_append, filterMap_sent_zip _ _ hlen]
  · simp only [s', run, hps, List.foldl_append, List.foldl_cons, handlePacket_of_unparsed hp]
  · rw [List.foldl_append, ← ht, List.foldl_cons, List.foldl_nil]
    exact handlePacket_alone t p
  · have hd' : s'.droppedMessages + (cbs.filter Option.isSome).length =
        s.droppedMessages + (messages ps).length := by rw [← hd, ← hdropped]; rfl
    rw [hlog', List.countP_append, countP_invoked_zip _ _ hlen]
    omega

end RecvLoop

end MqttNativeSocket
