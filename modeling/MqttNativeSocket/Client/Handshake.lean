import MqttNativeSocket.Client.Connect

/-! # The outcome of connect

What `connect` makes of the bytes that follow a successful dial. Every exit is an
error with the state Failed or success with the state Connected, with one
exception: `parseConnack` throws on a short body and nothing catches it.
-/

namespace MqttNativeSocket

/-- The first packet is a well-formed CONNACK with return code zero. -/
def Accepts (stream : Bytes) : Prop :=
  ∃ p rest, frame stream = .packet p rest ∧ p.type = .connack ∧
    2 ≤ p.body.length ∧ p.body[1]? = some 0

/-- The first packet is a CONNACK with fewer than two bytes of body. -/
def ShortConnack (stream : Bytes) : Prop :=
  ∃ p rest, frame stream = .packet p rest ∧ p.type = .connack ∧ p.body.length < 2

/-- The kernel takes all of `data`. -/
def Transport.Takes (t : Transport) (data : Bytes) : Prop :=
  ∃ t', sendAll data t = some (.ok (), t')

/-- No exception; Ok and Connected when the broker accepts, an error and Failed otherwise. -/
def Promised (accepted : Prop) : Completion Unit → ConnectionState → Prop
  | .returned (.ok ()), s => accepted ∧ s = .connected
  | .returned (.error _), s => ¬ accepted ∧ s = .failed
  | .thrown _, _ => False

theorem parseConnack_short {body : Bytes} (h : body.length < 2) :
    parseConnack body = .error (deserializationFailed "CONNACK body too short") := by
  rw [parseConnack, dif_pos h]
  rfl

theorem parseConnack_long {body : Bytes} (h : 2 ≤ body.length) :
    ∃ info, parseConnack body = .ok info ∧ body[1]? = some info.returnCode := by
  refine ⟨_, by rw [parseConnack, dif_neg (by omega)]; rfl, ?_⟩
  exact List.getElem?_eq_getElem (by omega)

/-- Sending leaves what is received alone. -/
theorem sendAll_feeds {t t' : Transport} {data stream : Bytes} {tail : List RecvCall}
    {r : Result Unit} (hf : t.Feeds stream tail) (h : sendAll data t = some (r, t')) :
    t'.Feeds stream tail := by
  rw [sendAll] at h
  obtain ⟨⟨r', sends, wire⟩, -, he⟩ := Option.map_eq_some_iff.mp h
  simp only [Prod.mk.injEq] at he
  obtain ⟨-, rfl⟩ := he
  exact ⟨hf.running, hf.script⟩

/-- The three ways a handshake ends, each with what it says about the stream. -/
inductive HandshakeEnds (c : Client) (taken accepted short : Prop) : Opened → Prop where
  | connected (t' : Transport) (c' : Client) : taken → accepted → ¬ short →
      c'.state = .connected → HandshakeEnds c taken accepted short (.connected t' c')
  | failed (e : MqttException) (c' : Client) : ¬ (taken ∧ accepted) → ¬ (taken ∧ short) →
      c'.state = .failed → HandshakeEnds c taken accepted short (.ended (.returned (.error e)) c')
  | thrown (e : MqttException) (c' : Client) : taken → short → ¬ accepted →
      c'.state = c.state → HandshakeEnds c taken accepted short (.ended (.thrown e) c')

theorem accepts_packet {stream rest : Bytes} {p : IncomingPacket}
    (h : frame stream = .packet p rest) :
    Accepts stream ↔ p.type = .connack ∧ 2 ≤ p.body.length ∧ p.body[1]? = some 0 := by
  constructor
  · rintro ⟨q, rest', hq, hrest⟩
    rw [h, Frame.packet.injEq] at hq
    rwa [hq.1]
  · exact fun hp => ⟨p, rest, h, hp⟩

theorem shortConnack_packet {stream rest : Bytes} {p : IncomingPacket}
    (h : frame stream = .packet p rest) :
    ShortConnack stream ↔ p.type = .connack ∧ p.body.length < 2 := by
  constructor
  · rintro ⟨q, rest', hq, hrest⟩
    rw [h, Frame.packet.injEq] at hq
    rwa [hq.1]
  · exact fun hp => ⟨p, rest, h, hp⟩

/-- Without a first packet the reader gives an error or blocks. -/
theorem readPacket_no_packet {t : Transport} {stream : Bytes} {tail : List RecvCall}
    (hf : t.Feeds stream tail) (hend : Ends tail) (h : ∀ p rest, frame stream ≠ .packet p rest) :
    Net.Fails readPacket t := by
  cases hfr : frame stream with
  | packet p rest => exact (h p rest hfr).elim
  | malformed rest =>
    obtain ⟨recvs, hr, -⟩ := readPacket_malformed hf hfr
    intro p t'
    rw [hr]
    simp
  | incomplete => exact readPacket_incomplete hf hend hfr

theorem handshake_ends {params : ConnectParams} {t : Transport} {c : Client} {stream : Bytes}
    {tail : List RecvCall} {o : Opened} (hf : t.Feeds stream tail) (hend : Ends tail)
    (h : c.handshake params t = some o) :
    HandshakeEnds c (t.Takes (buildConnect params)) (Accepts stream) (ShortConnack stream) o := by
  rw [Client.handshake] at h
  rcases hs : sendAll (buildConnect params) t with _ | ⟨e | ⟨⟨⟩⟩, t₁⟩
  · simp [hs] at h
  · -- CONNECT does not go out whole
    simp only [hs, Option.some.injEq] at h
    subst h
    have hno : ¬ t.Takes (buildConnect params) := by
      rintro ⟨t', ht⟩
      simp [hs] at ht
    exact .failed _ _ (fun ht => hno ht.1) (fun ht => hno ht.1) rfl
  have htaken : t.Takes (buildConnect params) := ⟨t₁, hs⟩
  have hf₁ := sendAll_feeds hf hs
  simp only [hs] at h
  by_cases hp : ∃ p rest, frame stream = .packet p rest
  · obtain ⟨p, rest, hfr⟩ := hp
    obtain ⟨recvs, hr, -⟩ := readPacket_packet hf₁ hfr
    simp only [hr] at h
    rw [accepts_packet hfr, shortConnack_packet hfr]
    by_cases htype : p.type = .connack
    · rw [if_neg (not_not.mpr htype)] at h
      rcases Nat.lt_or_ge p.body.length 2 with hlen | hlen
      · rw [parseConnack_short hlen] at h
        simp only [Option.some.injEq] at h
        subst h
        exact .thrown _ _ htaken ⟨htype, hlen⟩ (fun ha => by omega) rfl
      · obtain ⟨info, hparse, hcode⟩ := parseConnack_long hlen
        simp only [hparse] at h
        by_cases hrc : info.returnCode = 0
        · rw [if_neg (not_not.mpr hrc), Option.some.injEq] at h
          subst h
          exact .connected _ _ htaken ⟨htype, hlen, hrc ▸ hcode⟩ (fun hx => by omega) rfl
        · rw [if_pos hrc, Option.some.injEq] at h
          subst h
          refine .failed _ _ (fun ha => hrc ?_) (fun hx => by omega) rfl
          simpa [hcode] using ha.2.2.2
    · rw [if_pos htype, Option.some.injEq] at h
      subst h
      exact .failed _ _ (fun ha => htype ha.2.1) (fun hx => htype hx.2.1) rfl
  · have hnp : ∀ p rest, frame stream ≠ .packet p rest := fun p rest hfr => hp ⟨p, rest, hfr⟩
    have hfails := readPacket_no_packet hf₁ hend hnp
    rcases hr : readPacket t₁ with _ | ⟨e | p, t₂⟩
    · simp [hr] at h
    · simp only [hr, Option.some.injEq] at h
      subst h
      exact .failed _ _ (fun ⟨_, p, rest, hfr, _⟩ => hnp p rest hfr)
        (fun ⟨_, p, rest, hfr, _⟩ => hnp p rest hfr) rfl
    · exact (hfails p t₂ hr).elim

theorem establish_of_dial {net : Network} {params : ConnectParams} {c : Client} {t : Transport}
    (hstate : c.state ≠ .connected) (hdial : c.dial net = .ok t) :
    c.establish net params = (c.transitionState .connecting).handshake params t := by
  have hd : (c.transitionState .connecting).dial net = .ok t := hdial
  rw [Client.establish, if_neg hstate]
  simp only [hd]

/-- The contract is kept exactly when no short CONNACK is read. -/
theorem HandshakeEnds.promised_iff {c : Client} {taken accepted short : Prop} {o : Opened}
    (h : HandshakeEnds c taken accepted short o) :
    match o with
    | .connected _ c' =>
      Promised (taken ∧ accepted) (.returned (.ok ())) c'.state ∧ ¬ (taken ∧ short)
    | .ended out c' => Promised (taken ∧ accepted) out c'.state ↔ ¬ (taken ∧ short) := by
  cases h with
  | connected t' c' ht ha hs hst => exact ⟨⟨⟨ht, ha⟩, hst⟩, fun h => hs h.2⟩
  | failed e c' hta hts hst => exact iff_of_true ⟨hta, hst⟩ hts
  | thrown e c' ht hs ha hst => exact iff_of_false id (not_not.mpr ⟨ht, hs⟩)

/--
After a successful dial, `connect` of either class keeps its contract on a stream exactly when
CONNECT does not go out or the first packet is not a CONNACK with a body of under two bytes.
-/
theorem connect_promised_iff {κ : Type} (net : Network) (stream : Bytes) (tail : List RecvCall)
    (hend : Ends tail) (t : Transport) (hf : t.Feeds stream tail) :
    (∀ (c : Client) (out : Completion Unit × Client), c.state ≠ .connected →
      c.dial net = .ok t → MqttPublisher.connect net c = some out →
      let taken := t.Takes (buildConnect (MqttPublisher.connectParams c.config))
      (Promised (taken ∧ Accepts stream) out.1 out.2.state ↔ ¬ (taken ∧ ShortConnack stream))) ∧
    (∀ (s : Subscriber κ) (out : Completion Unit × Subscriber κ), s.state ≠ .connected →
      s.dial net = .ok t → MqttSubscriber.connect net s = some out →
      let taken := t.Takes (buildConnect (MqttSubscriber.connectParams s.config))
      (Promised (taken ∧ Accepts stream) out.1 out.2.state ↔ ¬ (taken ∧ ShortConnack stream))) := by
  constructor
  · intro c out hstate hdial h
    rw [MqttPublisher.connect, establish_of_dial hstate hdial] at h
    rcases ho : (c.transitionState .connecting).handshake
      (MqttPublisher.connectParams c.config) t with _ | ⟨out', c'⟩ | ⟨t', c'⟩
    · simp [ho] at h
    · simp only [ho, Option.some.injEq] at h
      subst h
      exact (handshake_ends hf hend ho).promised_iff
    · simp only [ho, Option.some.injEq] at h
      subst h
      obtain ⟨hp, hs⟩ := (handshake_ends hf hend ho).promised_iff
      exact iff_of_true hp hs
  · intro s out hstate hdial h
    rw [MqttSubscriber.connect, establish_of_dial hstate hdial] at h
    rcases ho : (s.toClient.transitionState .connecting).handshake
      (MqttSubscriber.connectParams s.config) t with _ | ⟨out', c'⟩ | ⟨t', c'⟩
    · simp [ho] at h
    · simp only [ho, Option.some.injEq] at h
      subst h
      exact (handshake_ends hf hend ho).promised_iff
    · simp only [ho] at h
      obtain ⟨⟨next, t''⟩, -, rfl⟩ := Option.map_eq_some_iff.mp h
      obtain ⟨hp, hs⟩ := (handshake_ends hf hend ho).promised_iff
      exact iff_of_true hp hs

/-! ## A broker that answers with a one-byte CONNACK -/

/-- The default CONNECT of a client with an empty identifier is fourteen bytes. -/
theorem buildConnect_default :
    buildConnect { clientId := [] } =
      [0x10, 12, 0, 4, 0x4D, 0x51, 0x54, 0x54, 4, 2, 0, 60, 0, 0] := by
  have hv : varLen 12 = [12] := by rw [varLen, appendVarLen, if_neg (by decide)]; decide
  have h : buildConnect { clientId := [] } = prependFixedHeader
      [0, 4, 0x4D, 0x51, 0x54, 0x54, 4, 2, 0, 60, 0, 0] 0x10 := rfl
  rw [h, prependFixedHeader_eq]
  simp only [List.length_cons, List.length_nil]
  exact congrArg (fun l => (0x10 : UInt8) :: (l ++ _)) hv

def shortConnack : Network := fun _ _ _ _ =>
  { recvs := [⟨.data 0x20 [1, 0], false⟩, ⟨.eof, false⟩], sends := [.accept 20] }

def idleClient : Client where
  config := { brokerUrls := [[]] }
  tlsConfig := {}
  brokerUrls_ne := by simp

def idleSubscriber : Subscriber Unit := { idleClient with subscriptions := ∅ }

def shortConnackTransport : Transport where
  recvs := [⟨.data 0x20 [1, 0], false⟩, ⟨.eof, false⟩]
  sends := [.accept 20]

theorem shortConnack_feeds : shortConnackTransport.Feeds [0x20, 1, 0] [⟨.eof, false⟩] :=
  ⟨rfl, [⟨.data 0x20 [1, 0], false⟩], rfl, by simp [RecvCall.Quiet], rfl⟩

theorem establish_shortConnack :
    ∃ c', c'.state = .connecting ∧ idleClient.establish shortConnack { clientId := [] } =
      some (.ended (.thrown (deserializationFailed "CONNACK body too short")) c') := by
  let t' : Transport := { recvs := [⟨.eof, false⟩], wire := buildConnect { clientId := [] } }
  have hs : sendAll (buildConnect { clientId := [] }) shortConnackTransport =
      some (.ok (), { shortConnackTransport with
        sends := [], wire := buildConnect { clientId := [] } }) := by
    rw [buildConnect_default]
    rfl
  have hr : readPacket { shortConnackTransport with
      sends := [], wire := buildConnect { clientId := [] } } =
      some (.ok ⟨.connack, 0, [0]⟩, t') := rfl
  refine ⟨{ idleClient.transitionState .connecting with transport := some t' }, rfl, ?_⟩
  rw [establish_of_dial (t := shortConnackTransport) (by decide) rfl, Client.handshake, hs]
  simp only [hr]
  rfl

/-- Both classes throw on that stream, and the state stays Connecting. -/
theorem connect_shortConnack :
    (∃ out, MqttPublisher.connect shortConnack idleClient = some out ∧
      out.1 = .thrown (deserializationFailed "CONNACK body too short") ∧
      out.2.state = .connecting) ∧
    (∃ out, MqttSubscriber.connect shortConnack idleSubscriber = some out ∧
      out.1 = .thrown (deserializationFailed "CONNACK body too short") ∧
      out.2.state = .connecting) := by
  obtain ⟨c', hst, he⟩ := establish_shortConnack
  constructor
  · refine ⟨(.thrown (deserializationFailed "CONNACK body too short"), c'), ?_, rfl, hst⟩
    rw [MqttPublisher.connect,
      show MqttPublisher.connectParams idleClient.config = { clientId := [] } from rfl, he]
  · refine ⟨(.thrown (deserializationFailed "CONNACK body too short"),
      { idleSubscriber with toClient := c' }), ?_, rfl, hst⟩
    rw [MqttSubscriber.connect,
      show MqttSubscriber.connectParams idleSubscriber.config = { clientId := [] } from rfl,
      show idleSubscriber.toClient = idleClient from rfl, he]

/-- The promise is broken there. -/
theorem connect_breaks_promise :
    ∃ (net : Network) (c : Client) (s : Subscriber Unit) (t : Transport)
      (out : Completion Unit × Client) (out' : Completion Unit × Subscriber Unit),
      t.Feeds [0x20, 1, 0] [⟨.eof, false⟩] ∧
      (c.state ≠ .connected ∧ c.dial net = .ok t ∧ MqttPublisher.connect net c = some out ∧
        ¬ Promised (t.Takes (buildConnect (MqttPublisher.connectParams c.config)) ∧
          Accepts [0x20, 1, 0]) out.1 out.2.state) ∧
      (s.state ≠ .connected ∧ s.dial net = .ok t ∧ MqttSubscriber.connect net s = some out' ∧
        ¬ Promised (t.Takes (buildConnect (MqttSubscriber.connectParams s.config)) ∧
          Accepts [0x20, 1, 0]) out'.1 out'.2.state) := by
  obtain ⟨⟨out, h, ht, -⟩, ⟨out', h', ht', -⟩⟩ := connect_shortConnack
  exact ⟨shortConnack, idleClient, idleSubscriber, shortConnackTransport, out, out',
    shortConnack_feeds, ⟨by decide, rfl, h, by rw [ht]; exact id⟩,
    ⟨by decide, rfl, h', by rw [ht']; exact id⟩⟩

/-- On that stream both sides of the equivalence fail. -/
theorem connect_promised_iff_shortConnack :
    (∃ out, MqttPublisher.connect shortConnack idleClient = some out ∧
      (Promised (shortConnackTransport.Takes (buildConnect { clientId := [] }) ∧
        Accepts [0x20, 1, 0]) out.1 out.2.state ↔
        ¬ (shortConnackTransport.Takes (buildConnect { clientId := [] }) ∧
          ShortConnack [0x20, 1, 0]))) ∧
    (∃ out, MqttSubscriber.connect shortConnack idleSubscriber = some out ∧
      (Promised (shortConnackTransport.Takes (buildConnect { clientId := [] }) ∧
        Accepts [0x20, 1, 0]) out.1 out.2.state ↔
        ¬ (shortConnackTransport.Takes (buildConnect { clientId := [] }) ∧
          ShortConnack [0x20, 1, 0]))) := by
  obtain ⟨⟨out, h, -⟩, ⟨out', h', -⟩⟩ := connect_shortConnack
  obtain ⟨hpub, hsub⟩ := connect_promised_iff (κ := Unit) shortConnack [0x20, 1, 0]
    [⟨.eof, false⟩] (.inl rfl) shortConnackTransport shortConnack_feeds
  exact ⟨⟨out, h, hpub idleClient out (by decide) rfl h⟩,
    ⟨out', h', hsub idleSubscriber out' (by decide) rfl h'⟩⟩

end MqttNativeSocket
