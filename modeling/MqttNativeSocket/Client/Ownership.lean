import MqttNativeSocket.Client.Connect
import MqttNativeSocket.Foundations.Runs
import MqttNativeSocket.Transport.Handles

/-! # Sockets and TLS objects over the life of a client

Calls of `connect`, `reconnect` and `disconnect`, losses seen by the receive loop
and attempts of the reconnect worker, one after the other, as far as they create
and release descriptors and TLS objects. The outcome of the system calls and of
the CONNECT and CONNACK exchange is the label of a step. Publisher and
subscriber do the same here.
-/

namespace MqttNativeSocket

/-- How the exchange of CONNECT and CONNACK ends. -/
inductive Exchange where
  | accepted
  /-- CONNECT is not sent, no packet comes, it is not a CONNACK, or it refuses. -/
  | failed (e : MqttException)
  /-- `parseConnack` throws. -/
  | thrown (e : MqttException)

/-- `reconnectThread`; a worker that has left its loop stays joinable. -/
inductive Worker where
  | absent
  | running (attempt : UInt32)
  | finished

structure SessionConfig where
  host : Bytes
  tls : TlsConfig
  reconnect : ReconnectPolicy

/-- `connectFailed` records that the last `connect` to end has returned an error. -/
structure Session where
  state : ConnectionState := .disconnected
  recvLoop : Bool := false
  worker : Worker := .absent
  transport : SocketTransport := {}
  connectFailed : Bool := false

inductive SessionEvent where
  | connect (calls : DialCalls) (x : Exchange)
  | reconnect (calls : DialCalls) (x : Exchange)
  | attempt (calls : DialCalls) (x : Exchange)
  | loss
  | disconnect

variable {cfg : SessionConfig} {calls : DialCalls} {x : Exchange} {s s' : Session}

namespace Session

/-- The part of `connect` after the transport has connected: no exit calls `disconnect`. -/
def exchange (x : Exchange) (s : Session) : Completion Unit × Session :=
  match x with
  | .failed e => (.returned (.error e), { s with state := .failed })
  | .thrown e => (.thrown e, { s with state := .connecting })
  | .accepted => (.returned (.ok ()), { s with state := .connected, recvLoop := true })

def connect (cfg : SessionConfig) (calls : DialCalls) (x : Exchange) (s : Session) :
    Completion Unit × Session :=
  if s.state = .connected then
    (.returned (.error ⟨.alreadyConnected, ascii "Already connected"⟩), s)
  else
    match s.transport.connect cfg.host cfg.tls calls with
    | (.error e, t) => (.returned (.error e), { s with state := .failed, transport := t })
    | (.ok (), t) => exchange x { s with transport := t }

/-- The session a call of `connect` leaves, with the note how it ended. -/
def recorded : Completion Unit × Session → Session
  | (.returned (.error _), s) => { s with connectFailed := true }
  | (.returned (.ok ()), s) => { s with connectFailed := false }
  | (.thrown _, s) => { s with connectFailed := false }

def disconnect (s : Session) : Session :=
  if s.state = .connected then
    { s with state := .disconnected, recvLoop := false, transport := s.transport.disconnect }
  else s

/-- The loss path of the receive loop; the transport is not touched. -/
def lose (cfg : SessionConfig) (s : Session) : Session :=
  { s with
    state := .reconnecting
    recvLoop := false
    worker := match s.worker with
      | .absent => if cfg.reconnect.enabled then .running 0 else .absent
      | .running n => .running n
      | .finished => .finished }

/-- The next attempt would be one more than the policy allows. -/
def exhausted (cfg : SessionConfig) (n : UInt32) : Bool :=
  0 < cfg.reconnect.maxRetries && cfg.reconnect.maxRetries < n + 1

/-- The worker on the way from its wait for a request to the next. -/
def attempt (cfg : SessionConfig) (calls : DialCalls) (x : Exchange) (n : UInt32) (s : Session) :
    Option Session :=
  if s.state = .connected then some { s with worker := .finished }
  else if exhausted cfg n then some { s with state := .failed, worker := .finished }
  else
    match s.connect cfg calls x with
    | (.returned (.ok ()), s) => some { s with worker := .finished, connectFailed := false }
    | (.returned (.error _), s) => some { s with worker := .running (n + 1), connectFailed := true }
    -- an exception that leaves the function of a thread ends the process
    | (.thrown _, _) => none

def step (cfg : SessionConfig) (s : Session) : SessionEvent → Option Session
  | .connect calls x => some (recorded (s.connect cfg calls x))
  | .reconnect calls x => some (recorded (s.disconnect.connect cfg calls x))
  | .attempt calls x =>
    match s.worker with
    | .running n => s.attempt cfg calls x n
    | .absent => none
    | .finished => none
  | .loss => if s.recvLoop then some (s.lose cfg) else none
  | .disconnect => some s.disconnect

/-- No object is lost, and after a `connect` that returned an error none is held. -/
def Sound (s : Session) : Prop :=
  s.transport.Accounted ∧ (s.connectFailed = true →
    s.transport.fd.held = none ∧ s.transport.ctx.held = none ∧ s.transport.ssl.held = none)

/-- What holds along a run that has lost nothing. -/
structure Inv (s : Session) : Prop where
  sound : s.Sound
  nested : s.transport.Nested
  connected : s.state = .connected → ¬ s.transport.Vacant

/-- If the transport connects, the CONNACK exchange does not come to an error return. -/
def Completes (cfg : SessionConfig) (calls : DialCalls) (x : Exchange) : Prop :=
  SocketTransport.Opens cfg.tls calls → ∀ e, x ≠ .failed e

/-- The worker comes to its call of `connect`. -/
def Dials (cfg : SessionConfig) (s : Session) : Prop :=
  s.state ≠ .connected ∧ ∀ n, s.worker = .running n → exhausted cfg n = false

/-- A step dials only while `fd` is -1, and an exchange that is begun does not fail. -/
def Meets (cfg : SessionConfig) (s : Session) : SessionEvent → Prop
  | .connect calls x =>
    s.state ≠ .connected ∧ s.transport.fd.held = none ∧ Completes cfg calls x
  | .reconnect calls x =>
    (s.state ≠ .connected → s.transport.fd.held = none) ∧ Completes cfg calls x
  | .attempt calls x => s.Dials cfg → s.transport.fd.held = none ∧ Completes cfg calls x
  | .loss => True
  | .disconnect => True

/-! ## One step -/

theorem sound_iff_of_failed (h : s.connectFailed = true) : s.Sound ↔ s.transport.Vacant := by
  rw [Sound, SocketTransport.vacant_iff, h]
  simp only [true_imp_iff]

theorem sound_iff_of_not_failed (h : s.connectFailed = false) :
    s.Sound ↔ s.transport.Accounted := by
  simp [Sound, h]

theorem Inv.vacant_iff (h : s.Inv) : s.transport.Vacant ↔ s.transport.fd.held = none := by
  constructor
  · exact fun hv => hv.1.held
  · exact fun hfd => h.nested ((Holder.accounted_iff_vacant hfd).mp h.sound.1.1)

theorem Inv.disconnect (h : s.Inv) : s.disconnect.Inv := by
  rw [Session.disconnect]
  split
  · have hv : s.transport.disconnect.Vacant :=
      SocketTransport.disconnect_vacant_iff.mpr h.sound.1
    exact ⟨⟨hv.accounted, fun _ => (SocketTransport.vacant_iff.mp hv).2⟩, hv.nested, by simp⟩
  · exact h

theorem disconnect_not_connected : s.disconnect.state ≠ .connected := by
  rw [Session.disconnect]
  split
  · simp
  · assumption

theorem Inv.disconnect_held_iff (h : s.Inv) :
    s.disconnect.transport.fd.held = none ↔
      (s.state ≠ .connected → s.transport.fd.held = none) := by
  rw [Session.disconnect]
  split <;> rename_i hs
  · have hv : s.transport.disconnect.Vacant :=
      SocketTransport.disconnect_vacant_iff.mpr h.sound.1
    simp [hs, hv.1.held]
  · simp [hs]

/-- A call of `connect` that dials fails in the transport, or comes to the exchange. -/
theorem connect_cases (hs : s.state ≠ .connected) :
    (¬ SocketTransport.Opens cfg.tls calls ∧ ∃ e t,
        s.connect cfg calls x =
          (.returned (.error e), { s with state := .failed, transport := t }) ∧
          (t.Vacant ↔ s.transport.Vacant)) ∨
      (SocketTransport.Opens cfg.tls calls ∧
        s.connect cfg calls x = exchange x { s with transport := s.transport.opened cfg.tls }) := by
  rw [connect, if_neg hs]
  rcases SocketTransport.connect_cases cfg.host cfg.tls calls s.transport with
    ⟨hno, ⟨e, he⟩, hv⟩ | ⟨hopens, heq⟩
  · rcases hr : s.transport.connect cfg.host cfg.tls calls with ⟨r, t⟩
    rw [hr] at he hv
    obtain rfl : r = .error e := he
    exact .inl ⟨hno, e, t, rfl, hv⟩
  · rw [heq]
    exact .inr ⟨hopens, rfl⟩

/-- A `connect` that dials keeps everything sound just when nothing was open and it completes. -/
theorem Inv.connect_sound_iff (h : s.Inv) (hs : s.state ≠ .connected) :
    (recorded (s.connect cfg calls x)).Sound ↔
      s.transport.fd.held = none ∧ Completes cfg calls x := by
  rw [← h.vacant_iff, Completes]
  rcases connect_cases hs with ⟨hno, e, t, heq, hv⟩ | ⟨hopens, heq⟩
  · rw [heq, recorded, sound_iff_of_failed rfl]
    simp only [hv, hno, false_imp_iff, and_true]
  · have hacc : (s.transport.opened cfg.tls).Accounted ↔ _ :=
      SocketTransport.opened_accounted_iff h.sound.1 h.nested
    rw [heq]
    cases x with
    | accepted =>
      rw [exchange, recorded, sound_iff_of_not_failed rfl]
      simpa using hacc
    | thrown e =>
      rw [exchange, recorded, sound_iff_of_not_failed rfl]
      simpa using hacc
    | failed e =>
      rw [exchange, recorded, sound_iff_of_failed rfl]
      simp [hopens]

theorem Inv.connect_inv (h : s.Inv) (hs : s.state ≠ .connected)
    (hfd : s.transport.fd.held = none) (hx : Completes cfg calls x) :
    (recorded (s.connect cfg calls x)).Inv := by
  have hsound := (h.connect_sound_iff hs).mpr ⟨hfd, hx⟩
  rcases connect_cases (x := x) hs with ⟨hno, e, t, heq, hv⟩ | ⟨hopens, heq⟩
  · rw [heq] at hsound ⊢
    exact ⟨hsound, (hv.mpr (h.vacant_iff.mpr hfd)).nested, by simp [recorded]⟩
  · rw [heq] at hsound ⊢
    cases x <;>
      exact ⟨hsound, SocketTransport.opened_nested, fun _ => SocketTransport.opened_not_vacant⟩

/-- Only the worker changes beside what `connect` does. -/
theorem attempt_of_dials {n : UInt32} (hs : s.state ≠ .connected) (hn : exhausted cfg n = false)
    (h : s.attempt cfg calls x n = some s') :
    ∃ w, s' = { recorded (s.connect cfg calls x) with worker := w } := by
  rw [attempt, if_neg hs, hn] at h
  rcases hr : s.connect cfg calls x with ⟨⟨e | ⟨⟩⟩ | e, t⟩
  all_goals simp only [hr, Bool.false_eq_true, if_false, reduceCtorEq, Option.some.injEq] at h
  · exact ⟨_, h.symm⟩
  · exact ⟨_, h.symm⟩

/-- The worker leaves its loop without dialling. -/
theorem attempt_of_not_dials {n : UInt32} (hd : ¬ (s.state ≠ .connected ∧ exhausted cfg n = false))
    (h : s.attempt cfg calls x n = some s') : s'.transport = s.transport ∧
      s'.connectFailed = s.connectFailed ∧ (s'.state = .connected → s.state = .connected) := by
  rw [attempt] at h
  by_cases hs : s.state = .connected
  · rw [if_pos hs, Option.some.injEq] at h
    subst h
    exact ⟨rfl, rfl, id⟩
  · have hn : exhausted cfg n = true := by
      cases hn : exhausted cfg n with
      | true => rfl
      | false => exact absurd ⟨hs, hn⟩ hd
    rw [if_neg hs, if_pos hn, Option.some.injEq] at h
    subst h
    exact ⟨rfl, rfl, by simp⟩

theorem Inv.of_transport_eq (h : s.Inv) (ht : s'.transport = s.transport)
    (hf : s'.connectFailed = s.connectFailed) (hc : s'.state = .connected → s.state = .connected) :
    s'.Inv := by
  refine ⟨?_, ht ▸ h.nested, fun hs => ht ▸ h.connected (hc hs)⟩
  rw [Sound, ht, hf]
  exact h.sound

/-- One step: sound afterwards just when it meets the condition, and then the invariant stays. -/
theorem Inv.step (h : s.Inv) (a : SessionEvent) (hstep : step cfg s a = some s') :
    (s'.Sound ↔ Meets cfg s a) ∧ (Meets cfg s a → s'.Inv) := by
  cases a with
  | connect calls x =>
    obtain rfl := Option.some.inj hstep
    by_cases hs : s.state = .connected
    · have hv := h.connected hs
      rw [connect, if_pos hs, recorded, sound_iff_of_failed rfl, Meets]
      simp [hs, hv]
    · refine ⟨?_, fun hm => h.connect_inv hs hm.2.1 hm.2.2⟩
      rw [h.connect_sound_iff hs, Meets]
      simp [hs]
  | reconnect calls x =>
    obtain rfl := Option.some.inj hstep
    have hd := h.disconnect
    rw [Meets, hd.connect_sound_iff disconnect_not_connected, h.disconnect_held_iff]
    refine ⟨Iff.rfl, fun hm => ?_⟩
    exact hd.connect_inv disconnect_not_connected (h.disconnect_held_iff.mpr hm.1) hm.2
  | attempt calls x =>
    rw [Session.step] at hstep
    cases hw : s.worker with
    | absent => simp [hw] at hstep
    | finished => simp [hw] at hstep
    | running n =>
      simp only [hw] at hstep
      by_cases hd : s.state ≠ .connected ∧ exhausted cfg n = false
      · obtain ⟨w, rfl⟩ := attempt_of_dials hd.1 hd.2 hstep
        have hdials : s.Dials cfg := ⟨hd.1, fun m hm => by
          obtain rfl := Worker.running.inj (hw.symm.trans hm)
          exact hd.2⟩
        rw [Meets, imp_iff_right hdials]
        refine ⟨h.connect_sound_iff hd.1, fun hm => ?_⟩
        exact (h.connect_inv hd.1 hm.1 hm.2).of_transport_eq rfl rfl id
      · obtain ⟨ht, hf, hc⟩ := attempt_of_not_dials hd hstep
        have hinv := h.of_transport_eq ht hf hc
        have hm : Meets cfg s (.attempt calls x) := fun hdials =>
          absurd ⟨hdials.1, hdials.2 n hw⟩ hd
        exact ⟨iff_of_true hinv.sound hm, fun _ => hinv⟩
  | loss =>
    rw [Session.step] at hstep
    split at hstep
    · obtain rfl := Option.some.inj hstep
      have hinv : (s.lose cfg).Inv := h.of_transport_eq rfl rfl (by simp [lose])
      exact ⟨iff_of_true hinv.sound trivial, fun _ => hinv⟩
    · simp at hstep
  | disconnect =>
    obtain rfl := Option.some.inj hstep
    exact ⟨iff_of_true h.disconnect.sound trivial, fun _ => h.disconnect⟩

/-! ## The exchange that `establish` runs -/

end Session

def Client.sessionConfig (c : Client) : SessionConfig :=
  let addr := parseBrokerUrl (c.config.brokerUrls.head c.brokerUrls_ne)
  { host := addr.host
    tls := if addr.useTls then { c.tlsConfig with enabled := true } else c.tlsConfig
    reconnect := c.config.reconnect }

/-- What the network answers when this client dials. -/
def Client.dialCalls (net : Network) (c : Client) : DialCalls :=
  let addr := parseBrokerUrl (c.config.brokerUrls.head c.brokerUrls_ne)
  net addr.host addr.port c.sessionConfig.tls c.config.connectTimeout

def Opened.completion : Opened → Completion Unit
  | .ended out _ => out
  | .connected _ _ => .returned (.ok ())

def Opened.state : Opened → ConnectionState
  | .ended _ c => c.state
  | .connected _ c => c.state

/-- The outcome of the exchange as the session sees it. -/
def Opened.exchange (o : Opened) : Exchange :=
  match o.completion with
  | .returned (.ok ()) => .accepted
  | .returned (.error e) => .failed e
  | .thrown e => .thrown e

theorem Client.handshake_exchange {params : ConnectParams} {t : Transport} {c : Client} {o : Opened}
    (h : c.handshake params t = some o) (hc : c.state = .connecting) (s : Session) :
    (Session.exchange o.exchange s).1 = o.completion ∧
      (Session.exchange o.exchange s).2.state = o.state := by
  rw [Client.handshake] at h
  rcases hsent : sendAll (buildConnect params) t with _ | ⟨e | ⟨⟨⟩⟩, t₁⟩
  all_goals simp only [hsent, reduceCtorEq] at h
  · obtain rfl := Option.some.inj h
    exact ⟨rfl, rfl⟩
  rcases hread : readPacket t₁ with _ | ⟨e | p, t₂⟩
  all_goals simp only [hread, reduceCtorEq] at h
  · obtain rfl := Option.some.inj h
    exact ⟨rfl, rfl⟩
  split at h
  · obtain rfl := Option.some.inj h
    exact ⟨rfl, rfl⟩
  rcases hparse : parseConnack p.body with e | connack
  all_goals simp only [hparse] at h
  · obtain rfl := Option.some.inj h
    exact ⟨rfl, hc.symm⟩
  · split at h <;> obtain rfl := Option.some.inj h <;> exact ⟨rfl, rfl⟩

/-- A session's `connect` ends as the client's does and leaves the same state. -/
theorem Client.establish_session {net : Network} {params : ConnectParams} {c : Client} {o : Opened}
    (h : c.establish net params = some o) {s : Session} (hs : s.state = c.state) :
    (s.connect c.sessionConfig (c.dialCalls net) o.exchange).1 = o.completion ∧
      (s.connect c.sessionConfig (c.dialCalls net) o.exchange).2.state = o.state := by
  rw [Client.establish] at h
  rw [Session.connect, hs]
  split at h <;> rename_i hstate
  · obtain rfl := Option.some.inj h
    rw [if_pos hstate]
    exact ⟨rfl, hs⟩
  · rw [if_neg hstate]
    have hdial : (s.transport.connect c.sessionConfig.host c.sessionConfig.tls
        (c.dialCalls net)).1 = (c.dial net).map fun _ => () := SocketTransport.connect_result
    rcases hr : s.transport.connect c.sessionConfig.host c.sessionConfig.tls (c.dialCalls net)
      with ⟨r, t⟩
    rw [hr] at hdial
    cases hd : (c.transitionState .connecting).dial net with
    | error e =>
      rw [show c.dial net = .error e from hd] at hdial
      obtain rfl : r = .error e := hdial
      simp only [hd] at h
      obtain rfl := Option.some.inj h
      exact ⟨rfl, rfl⟩
    | ok t' =>
      rw [show c.dial net = .ok t' from hd] at hdial
      obtain rfl : r = .ok () := hdial
      simp only [hd] at h
      exact Client.handshake_exchange h rfl _

namespace Session

/-! ## Whole runs -/

theorem inv_init : ({} : Session).Inv where
  sound := ⟨by decide, fun _ => ⟨rfl, rfl, rfl⟩⟩
  nested := fun _ => ⟨rfl, rfl, rfl⟩
  connected := by simp

/--
Along a run no object is lost, and none is held after a `connect` that returned an error, exactly
when every step dials with the `fd` field empty and no exchange fails after the transport connected.
-/
theorem nothing_lost_iff (cfg : SessionConfig) (es : List SessionEvent) :
    (∀ pre, pre <+: es → ∀ s, Runs.exec (step cfg) {} pre = some s → s.Sound) ↔
      Runs.Along (step cfg) (fun s e => (step cfg s e).isSome → Meets cfg s e) {} es :=
  Runs.forall_prefix_iff_along inv_init (fun _ h => h.sound) (fun _ a _ h hs => (h.step a hs).1)
    fun _ a _ h hm hs => (h.step a hs).2 hm

/-- A connection is lost and the worker connects again: the first descriptor is never closed. -/
def reconnectedRun : List SessionEvent :=
  [.connect {} .accepted, .loss, .attempt {} .accepted]

theorem first_descriptor_lost : ∃ s, Runs.exec (step ⟨[], {}, {}⟩) {} reconnectedRun = some s ∧
    s.state = .connected ∧ ¬ s.Sound := by
  refine ⟨_, rfl, rfl, fun h => ?_⟩
  exact absurd h.1 (by decide)

end Session

end MqttNativeSocket
