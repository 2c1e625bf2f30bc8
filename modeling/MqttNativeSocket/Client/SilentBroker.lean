import MqttNativeSocket.Client.Handshake
import MqttNativeSocket.Protocol.EndOfStream

/-! # A broker that does not answer

The receiving calls of `connect` answer one after the other, without end and without a
failure. `connect` comes back once they have brought a packet or a malformed length, and
not before. Nothing counts the timeouts on the way.
-/

namespace MqttNativeSocket

/-- One answer of `recv` while the connection stands; a `timeout` took 500 ms. -/
inductive RecvAnswer where
  | data (b : UInt8) (bs : Bytes)
  | eintr
  | again
  | timeout
  deriving DecidableEq, Repr

def RecvAnswer.call : RecvAnswer → RecvCall
  | .data b bs => ⟨.data b bs, false⟩
  | .eintr => ⟨.eintr, false⟩
  | .again => ⟨.again, false⟩
  | .timeout => ⟨.again, false⟩

/-- The first `n` answers. -/
def script (answers : ℕ → RecvAnswer) (n : ℕ) : List RecvCall :=
  (List.range n).map fun i => (answers i).call

/-- How many of the first `n` answers are timeouts. -/
def timeouts (answers : ℕ → RecvAnswer) (n : ℕ) : ℕ :=
  (List.range n).countP fun i => answers i = .timeout

/-- The network with these receiving calls on the connection. -/
def Network.answering (net : Network) (recvs : List RecvCall) : Network :=
  fun host port tls timeout => { net host port tls timeout with recvs := recvs }

/-- A whole CONNACK has arrived. -/
def ConnackArrived (recvs : List RecvCall) : Prop :=
  ∃ p rest, frame (delivered recvs) = .packet p rest ∧ p.type = .connack

/-- The calls answer the question that `readPacket` asks, in one way or another. -/
def Settled (recvs : List RecvCall) : Prop := frame (delivered recvs) ≠ .incomplete

/--
`connect` comes back after finitely many answers, and with an error by the time that the timeouts
exceed `connectTimeout` and no CONNACK has arrived.
-/
def WaitIsBounded (net : Network) (c : Client) (answers : ℕ → RecvAnswer) : Prop :=
  (∃ n, (MqttPublisher.connect (net.answering (script answers n)) c).isSome) ∧
  ∀ n, c.config.connectTimeout < 500 * timeouts answers n → ¬ ConnackArrived (script answers n) →
    ∃ e c', MqttPublisher.connect (net.answering (script answers n)) c =
      some (.returned (.error e), c')

/-! ## Answers -/

variable {answers : ℕ → RecvAnswer}

theorem script_succ (n : ℕ) : script answers (n + 1) = script answers n ++ [(answers n).call] := by
  rw [script, List.range_succ, List.map_append]
  rfl

theorem timeouts_succ (n : ℕ) :
    timeouts answers (n + 1) = timeouts answers n + if answers n = .timeout then 1 else 0 := by
  rw [timeouts, List.range_succ, List.countP_append]
  simp [timeouts, List.countP_cons]

theorem timeouts_monotone : Monotone (timeouts answers) :=
  monotone_nat_of_le_succ fun n => by
    rw [timeouts_succ]
    exact Nat.le_add_right ..

theorem delivered_append (xs ys : List RecvCall) :
    delivered (xs ++ ys) = delivered xs ++ delivered ys := List.flatMap_append ..

theorem BeginsWithPacket.append {stream rest : Bytes} {p : IncomingPacket}
    (h : BeginsWithPacket stream p rest) (more : Bytes) :
    BeginsWithPacket (stream ++ more) p (rest ++ more) := by
  obtain ⟨b0, field, rfl, hfield⟩ := h
  exact ⟨b0, field, by simp, hfield⟩

theorem BeginsOverlong.append {stream rest : Bytes} (h : BeginsOverlong stream rest)
    (more : Bytes) : BeginsOverlong (stream ++ more) (rest ++ more) := by
  obtain ⟨b0, field, rfl, hfield⟩ := h
  exact ⟨b0, field, by simp, hfield⟩

/-- Whatever follows, what has been found stays found. -/
theorem frame_append_ne_incomplete {stream : Bytes} (h : frame stream ≠ .incomplete)
    (more : Bytes) : frame (stream ++ more) ≠ .incomplete := by
  cases hframe : frame stream with
  | packet p rest =>
    rw [frame_eq_packet_iff.mpr ((frame_eq_packet_iff.mp hframe).append more)]
    nofun
  | malformed rest =>
    rw [frame_eq_malformed_iff.mpr ((frame_eq_malformed_iff.mp hframe).append more)]
    nofun
  | incomplete => exact absurd hframe h

theorem Settled.append {recvs : List RecvCall} (h : Settled recvs) (more : List RecvCall) :
    Settled (recvs ++ more) := by
  rw [Settled, delivered_append]
  exact frame_append_ne_incomplete h _

theorem settled_mono {n m : ℕ} (hnm : n ≤ m) (h : Settled (script answers n)) :
    Settled (script answers m) := by
  induction m, hnm using Nat.le_induction with
  | base => exact h
  | succ m _ ih =>
    rw [script_succ]
    exact ih.append _

/-- Only bytes settle anything. -/
theorem settled_succ_of_timeout {n : ℕ} (h : Settled (script answers (n + 1)))
    (ht : answers n = .timeout) : Settled (script answers n) := by
  rw [Settled, script_succ, ht, delivered_append] at h
  simpa [Settled, RecvAnswer.call, RecvResult.payload] using h

/-! ## What the reader makes of them -/

theorem call_quiet (a : RecvAnswer) : a.call.Quiet := by
  cases a <;> exact ⟨rfl, trivial⟩

/-- Calls that answer without a failure and without the stop flag. -/
def Unfailing (recvs : List RecvCall) : Prop := ∀ c ∈ recvs, ∃ a : RecvAnswer, c = a.call

theorem unfailing_script (n : ℕ) : Unfailing (script answers n) := by
  intro c hc
  obtain ⟨i, -, rfl⟩ := List.mem_map.mp hc
  exact ⟨answers i, rfl⟩

theorem Unfailing.feeds {t : Transport} (h : Unfailing t.recvs) (hrun : t.stopFlag = false) :
    t.Feeds (delivered t.recvs) [] := by
  refine ⟨hrun, t.recvs, (List.append_nil _).symm, fun c hc => ?_, rfl⟩
  obtain ⟨a, rfl⟩ := h c hc
  exact call_quiet a

/-- The reader comes back exactly when the calls settle the matter. -/
theorem readPacket_of_unfailing {t : Transport} (h : Unfailing t.recvs)
    (hrun : t.stopFlag = false) :
    (¬ Settled t.recvs → readPacket t = none) ∧
    (Settled t.recvs → (∃ e t', readPacket t = some (.error e, t')) ∨
      ∃ p rest t', readPacket t = some (.ok p, t') ∧
        frame (delivered t.recvs) = .packet p rest) := by
  have hf := h.feeds hrun
  cases hframe : frame (delivered t.recvs) with
  | packet p rest =>
    obtain ⟨recvs, hr, -⟩ := readPacket_packet hf hframe
    have hsettled : Settled t.recvs := by
      rw [Settled, hframe]
      nofun
    exact ⟨fun h => absurd hsettled h, fun _ => .inr ⟨p, rest, _, hr, rfl⟩⟩
  | malformed rest =>
    obtain ⟨recvs, hr, -⟩ := readPacket_malformed hf hframe
    have hsettled : Settled t.recvs := by
      rw [Settled, hframe]
      nofun
    exact ⟨fun h => absurd hsettled h, fun _ => .inl ⟨_, _, hr⟩⟩
  | incomplete =>
    refine ⟨fun _ => ?_, fun hsettled => absurd hframe hsettled⟩
    obtain ⟨f, hread⟩ | ⟨n, hn, f, hread⟩ := readPacket_incomplete_eq hf hframe
    · rw [hread]
      exact Net.bind_none (by simp only [recvByte, hrun, recvByteLoop]; rfl)
    · have hlt : ¬ n ≤ ([] : Bytes).length := not_le.mpr hn
      rw [hread]
      exact Net.bind_none (by simp only [recvExact, hrun, recvExactLoop, if_neg hlt]; rfl)

/-! ## What connect makes of them -/

/-- Dialing ends before the first receiving call. -/
theorem dial_answering {net : Network} {c : Client} {t : Transport} (h : c.dial net = .ok t)
    (recvs : List RecvCall) :
    t.stopFlag = false ∧ c.dial (net.answering recvs) = .ok { t with recvs := recvs } := by
  obtain ⟨htcp, htls, rfl⟩ := dial_eq_ok_iff.mp h
  exact ⟨rfl, dial_eq_ok_iff.mpr ⟨htcp, htls, rfl⟩⟩

theorem sendAll_answering {t t' : Transport} {data : Bytes} {r : Result Unit}
    (h : sendAll data t = some (r, t')) (recvs : List RecvCall) :
    sendAll data { t with recvs := recvs } = some (r, { t' with recvs := recvs }) ∧
      t'.stopFlag = t.stopFlag := by
  rw [sendAll] at h ⊢
  obtain ⟨⟨r', sends, wire⟩, hloop, he⟩ := Option.map_eq_some_iff.mp h
  obtain ⟨rfl, rfl⟩ := Prod.mk.inj he
  exact ⟨Option.map_eq_some_iff.mpr ⟨_, hloop, rfl⟩, rfl⟩

/-- Once CONNECT is sent, the answers decide whether and how the call ends. -/
theorem connect_of_unfailing {net : Network} {c : Client} {t t' : Transport} {recvs : List RecvCall}
    (hstate : c.state ≠ .connected) (hdial : c.dial net = .ok t)
    (hsend : sendAll (buildConnect (MqttPublisher.connectParams c.config)) t = some (.ok (), t'))
    (h : Unfailing recvs) :
    (¬ Settled recvs → MqttPublisher.connect (net.answering recvs) c = none) ∧
    (Settled recvs → ∃ out, MqttPublisher.connect (net.answering recvs) c = some out ∧
      (¬ ConnackArrived recvs → ∃ e, out.1 = .returned (.error e))) := by
  obtain ⟨hrun, hdial'⟩ := dial_answering hdial recvs
  obtain ⟨hsend', hstop⟩ := sendAll_answering hsend recvs
  obtain ⟨hnone, hsome⟩ :=
    readPacket_of_unfailing (t := { t' with recvs := recvs }) h (hstop.trans hrun)
  rw [MqttPublisher.connect, establish_of_dial hstate hdial', Client.handshake, hsend']
  simp only
  refine ⟨fun hno => by simp only [hnone hno], fun hyes => ?_⟩
  obtain ⟨e, t'', hr⟩ | ⟨p, rest, t'', hr, hframe⟩ := hsome hyes
  · simp only [hr]
    exact ⟨_, rfl, fun _ => ⟨e, rfl⟩⟩
  · simp only [hr]
    by_cases htype : p.type = .connack
    · have harrived : ConnackArrived recvs := ⟨p, rest, hframe, htype⟩
      rw [if_neg (not_not.mpr htype)]
      cases parseConnack p.body with
      | error e => exact ⟨_, rfl, fun h => absurd harrived h⟩
      | ok info =>
        by_cases hcode : info.returnCode = 0
        · simp only [if_neg (not_not.mpr hcode)]
          exact ⟨_, rfl, fun h => absurd harrived h⟩
        · simp only [if_pos hcode]
          exact ⟨_, rfl, fun h => absurd harrived h⟩
    · rw [if_pos htype]
      exact ⟨_, rfl, fun _ => ⟨_, rfl⟩⟩

/-- Where CONNECT cannot be sent, no answer is waited for. -/
theorem connect_of_send_error {net : Network} {c : Client} {t t' : Transport} {e : MqttException}
    (hstate : c.state ≠ .connected) (hdial : c.dial net = .ok t)
    (hsend : sendAll (buildConnect (MqttPublisher.connectParams c.config)) t = some (.error e, t'))
    (recvs : List RecvCall) :
    ∃ c', MqttPublisher.connect (net.answering recvs) c = some (.returned (.error e), c') := by
  obtain ⟨-, hdial'⟩ := dial_answering hdial recvs
  obtain ⟨hsend', -⟩ := sendAll_answering hsend recvs
  rw [MqttPublisher.connect, establish_of_dial hstate hdial', Client.handshake, hsend']
  exact ⟨_, rfl⟩

theorem exists_settled_step {n : ℕ} (h : Settled (script answers n)) :
    ∃ m, ¬ Settled (script answers m) ∧ Settled (script answers (m + 1)) := by
  induction n with
  | zero => exact absurd rfl h
  | succ n ih =>
    by_cases hn : Settled (script answers n)
    · exact ih hn
    · exact ⟨n, hn, h⟩

theorem not_connackArrived_of_not_settled {recvs : List RecvCall}
    (h : ¬ Settled recvs) : ¬ ConnackArrived recvs := by
  rintro ⟨p, rest, hframe, -⟩
  refine h ?_
  rw [Settled, hframe]
  nofun

/--
The wait is bounded by `connectTimeout` exactly if CONNECT cannot be sent, or the answers settle
the matter while the timeouts before still add up to no more than that.
-/
theorem waitIsBounded_iff (net : Network) (c : Client) (t : Transport) (answers : ℕ → RecvAnswer)
    (hstate : c.state ≠ .connected) (hdial : c.dial net = .ok t)
    (hsend : sendAll (buildConnect (MqttPublisher.connectParams c.config)) t ≠ none) :
    WaitIsBounded net c answers ↔
      ¬ t.Takes (buildConnect (MqttPublisher.connectParams c.config)) ∨
      ∃ n, Settled (script answers n) ∧
        500 * (timeouts answers n : ℤ) ≤ c.config.connectTimeout := by
  obtain ⟨⟨e | ⟨⟨⟩⟩, t'⟩, hsent⟩ := Option.ne_none_iff_exists'.mp hsend
  · have hno : ¬ t.Takes (buildConnect (MqttPublisher.connectParams c.config)) := by
      rintro ⟨t'', ht⟩
      rw [hsent] at ht
      cases ht
    refine iff_of_true ⟨⟨0, ?_⟩, fun n _ _ => ?_⟩ (.inl hno)
    · obtain ⟨c', hc⟩ := connect_of_send_error hstate hdial hsent (script answers 0)
      rw [hc]
      rfl
    · obtain ⟨c', hc⟩ := connect_of_send_error hstate hdial hsent (script answers n)
      exact ⟨e, c', hc⟩
  · have htaken : t.Takes (buildConnect (MqttPublisher.connectParams c.config)) := ⟨t', hsent⟩
    have hends (n : ℕ) := connect_of_unfailing hstate hdial hsent
      (unfailing_script n : Unfailing (script answers n))
    rw [or_iff_right (not_not.mpr htaken)]
    constructor
    · rintro ⟨⟨n, hn⟩, hbound⟩
      have hsettled : Settled (script answers n) := by
        by_contra hno
        rw [(hends n).1 hno] at hn
        cases hn
      -- one answer before, the call still waits
      obtain ⟨m, hno, hyes⟩ := exists_settled_step hsettled
      have htimeouts : timeouts answers (m + 1) = timeouts answers m := by
        rw [timeouts_succ, if_neg fun ht => hno (settled_succ_of_timeout hyes ht), Nat.add_zero]
      refine ⟨m + 1, hyes, ?_⟩
      rw [htimeouts]
      by_contra hlate
      obtain ⟨e, c', hc⟩ := hbound m (not_le.mp hlate) (not_connackArrived_of_not_settled hno)
      rw [(hends m).1 hno] at hc
      cases hc
    · rintro ⟨n, hsettled, hn⟩
      obtain ⟨out, hout, -⟩ := (hends n).2 hsettled
      refine ⟨⟨n, by rw [hout]; rfl⟩, fun m hm hno => ?_⟩
      have hnm : n ≤ m := by
        by_contra hlt
        have hle : timeouts answers m ≤ timeouts answers n := timeouts_monotone (not_le.mp hlt).le
        omega
      obtain ⟨⟨r, c'⟩, hc, herror⟩ := (hends m).2 (settled_mono hnm hsettled)
      obtain ⟨e, rfl⟩ := herror hno
      exact ⟨e, c', hc⟩

/-! ## A broker that never answers -/

/-- A network that takes the whole CONNECT of the idle client. -/
def takingNetwork : Network := fun _ _ _ _ => { sends := [.accept 20] }

def takingTransport : Transport where
  sends := [.accept 20]

theorem takingTransport_sends :
    sendAll (buildConnect (MqttPublisher.connectParams idleClient.config)) takingTransport =
      some (.ok (), { wire := buildConnect { clientId := [] } }) := by
  rw [show MqttPublisher.connectParams idleClient.config = { clientId := [] } from rfl,
    buildConnect_default]
  rfl

theorem not_settled_of_silence (n : ℕ) : ¬ Settled (script (fun _ => .timeout) n) := by
  induction n with
  | zero => exact fun h => h rfl
  | succ n ih => exact fun h => ih (settled_succ_of_timeout h rfl)

/-- Ten seconds were allowed, and the call still waits after any number of timeouts. -/
theorem connect_waits_forever :
    (∀ n, MqttPublisher.connect
      (takingNetwork.answering (script (fun _ => .timeout) n)) idleClient = none) ∧
    ¬ WaitIsBounded takingNetwork idleClient fun _ => .timeout := by
  have hwaits (n : ℕ) : MqttPublisher.connect
      (takingNetwork.answering (script (fun _ => .timeout) n)) idleClient = none :=
    (connect_of_unfailing (t := takingTransport) (by decide) rfl takingTransport_sends
      (unfailing_script n)).1 (not_settled_of_silence n)
  refine ⟨hwaits, fun h => ?_⟩
  obtain ⟨n, hn⟩ := h.1
  rw [hwaits] at hn
  cases hn

/-- The first call already brings the CONNACK. -/
theorem waitIsBounded_iff_prompt :
    WaitIsBounded takingNetwork idleClient
        (fun i => if i = 0 then .data 0x20 [2, 0, 0] else .timeout) ↔
      ¬ takingTransport.Takes (buildConnect (MqttPublisher.connectParams idleClient.config)) ∨
      ∃ n, Settled (script (fun i => if i = 0 then .data 0x20 [2, 0, 0] else .timeout) n) ∧
        500 * (timeouts (fun i => if i = 0 then .data 0x20 [2, 0, 0] else .timeout) n : ℤ) ≤
          10000 :=
  waitIsBounded_iff takingNetwork idleClient takingTransport _ (by decide) rfl
    (by rw [takingTransport_sends]; nofun)

end MqttNativeSocket
