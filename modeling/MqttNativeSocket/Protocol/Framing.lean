import MqttNativeSocket.Protocol.EndOfStream

/-! # Framing

A framed body below `2 ^ 28` bytes is found again by `frame`, whatever follows
it; a longer one never is, since its length field is cut to 32 bits or takes a
fifth byte. Sending a list of frames with partial writes and interrupts and
reading it back over any segmentation returns the list, unless an interrupt
comes under TLS: there `sendAll` gives up in the middle of a frame.
-/

namespace MqttNativeSocket

theorem map_varLen_toNat (n : ℕ) :
    (varLen (UInt32.ofNat n)).map UInt8.toNat = VarLen.groups 128 (n % 2 ^ 32) := by
  rw [map_varLen, UInt32.toNat_ofNat']

/-- The packet cut out of a framed body: its length field is taken modulo `2 ^ 32`. -/
theorem frame_framed (body rest : Bytes) (typeByte : UInt8) (h : body.length % 2 ^ 32 < 2 ^ 28) :
    frame (prependFixedHeader body typeByte ++ rest) =
      .packet ⟨PacketType.ofUInt8 (typeByte >>> 4), typeByte &&& 0x0F,
        body.take (body.length % 2 ^ 32)⟩ (body.drop (body.length % 2 ^ 32) ++ rest) := by
  have hl : (varLen (UInt32.ofNat body.length)).length ≤ 4 :=
    (length_varLen_le_four_iff _).mpr (by rw [UInt32.toNat_ofNat']; exact h)
  have hs := VarLen.scan_groups_append (by norm_num) (map_varLen_toNat body.length)
    (body ++ rest) hl
  have hle : body.length % 2 ^ 32 ≤ body.length := Nat.mod_le _ _
  rw [prependFixedHeader_eq, List.cons_append, List.append_assoc, frame, hs]
  simp only [List.length_append, List.take_append_of_le_length hle,
    List.drop_append_of_le_length hle]
  rw [if_pos (by omega)]

theorem frame_framed_overlong (body rest : Bytes) (typeByte : UInt8)
    (h : 2 ^ 28 ≤ body.length % 2 ^ 32) :
    ∃ rest', frame (prependFixedHeader body typeByte ++ rest) = .malformed rest' := by
  have hl : 4 < (varLen (UInt32.ofNat body.length)).length := by
    have := length_varLen_le_four_iff (UInt32.ofNat body.length)
    rw [UInt32.toNat_ofNat'] at this
    omega
  have hs := VarLen.scan_groups_overlong (by norm_num) (map_varLen_toNat body.length)
    (body ++ rest) hl
  exact ⟨_, by rw [prependFixedHeader_eq, List.cons_append, List.append_assoc, frame, hs]⟩

theorem frame_prependFixedHeader (body rest : Bytes) (typeByte : UInt8)
    (h : body.length < 2 ^ 28) :
    frame (prependFixedHeader body typeByte ++ rest) =
      .packet ⟨PacketType.ofUInt8 (typeByte >>> 4), typeByte &&& 0x0F, body⟩ rest := by
  have hm : body.length % 2 ^ 32 = body.length := Nat.mod_eq_of_lt (by omega)
  rw [frame_framed body rest typeByte (by omega), hm, List.take_length, List.drop_length,
    List.nil_append]

theorem length_prependFixedHeader_lt (body : Bytes) (typeByte : UInt8)
    (h : body.length < 2 ^ 28) : (prependFixedHeader body typeByte).length < 2 ^ 31 := by
  have := length_varLen_le (UInt32.ofNat body.length)
  rw [prependFixedHeader_eq, List.length_cons, List.length_append]
  omega

/-! ## Lists of frames -/

/-- The frames of a list of first bytes and bodies, one after the other. -/
def frames (ps : List (UInt8 × Bytes)) : Bytes :=
  ps.flatMap fun p => prependFixedHeader p.2 p.1

@[simp] theorem frames_nil : frames [] = [] := rfl

@[simp] theorem frames_cons (p : UInt8 × Bytes) (ps : List (UInt8 × Bytes)) :
    frames (p :: ps) = prependFixedHeader p.2 p.1 ++ frames ps := rfl

@[simp] theorem frames_append (ps qs : List (UInt8 × Bytes)) :
    frames (ps ++ qs) = frames ps ++ frames qs := by
  simp [frames]

/-- One `sendAll` for each frame. -/
def sendPackets : List (UInt8 × Bytes) → Net Unit
  | [] => return ()
  | p :: ps => do
    sendAll (prependFixedHeader p.2 p.1)
    sendPackets ps

/-- Repeated calls of `readPacket`. -/
def readPackets : ℕ → Net (List IncomingPacket)
  | 0 => return []
  | n + 1 => do
    let p ← readPacket
    let ps ← readPackets n
    return p :: ps

/-- The packet meant by a first byte and a body. -/
def received (p : UInt8 × Bytes) : IncomingPacket :=
  ⟨PacketType.ofUInt8 (p.1 >>> 4), p.1 &&& 0x0F, p.2⟩

theorem length_prependFixedHeader_pos (body : Bytes) (typeByte : UInt8) :
    0 < (prependFixedHeader body typeByte).length := by
  rw [prependFixedHeader_eq]
  exact Nat.succ_pos _

theorem sendAll_of_loop {tx : Transport} {data wire : Bytes} {r : Result Unit}
    {sends : List SendResult}
    (h : sendAllLoop tx.ssl tx.sends data tx.wire = some (r, sends, wire)) :
    sendAll data tx = some (r, { tx with sends := sends, wire := wire }) := by
  rw [sendAll, h]
  rfl

/-- The length of a frame: its first byte, its length field and its body. -/
def frameLength (body : Bytes) : ℕ := 1 + (VarLen.groups 128 body.length).length + body.length

/-- What the calls that write the frames are asked for. -/
def frameLengths (ps : List (UInt8 × Bytes)) : List ℕ := ps.map fun p => frameLength p.2

theorem frameLength_eq {body : Bytes} (typeByte : UInt8) (h : body.length < 2 ^ 28) :
    frameLength body = (prependFixedHeader body typeByte).length := by
  have hv := congrArg List.length (map_varLen_toNat body.length)
  rw [List.length_map, Nat.mod_eq_of_lt (by omega)] at hv
  rw [frameLength, prependFixedHeader_eq, List.length_cons, List.length_append, hv]
  omega

theorem frameLengths_cons {p : UInt8 × Bytes} (ps : List (UInt8 × Bytes))
    (h : p.2.length < 2 ^ 28) :
    frameLengths (p :: ps) = (prependFixedHeader p.2 p.1).length :: frameLengths ps := by
  rw [frameLengths, List.map_cons, frameLength_eq p.1 h]
  rfl

theorem sendPackets_proceeds {ps : List (UInt8 × Bytes)} {tx tx' : Transport} {r : Result Unit}
    (hps : ∀ p ∈ ps, p.2.length < 2 ^ 28) (hc : ∀ c ∈ tx.sends, c.Proceeds)
    (h : sendPackets ps tx = some (r, tx')) :
    (r = .ok () ∧ tx'.wire = tx.wire ++ frames ps ∧
        (tx.ssl = true → interrupted (frameLengths ps) tx.sends = false)) ∨
      (tx.ssl = true ∧ interrupted (frameLengths ps) tx.sends = true ∧
        ∃ j < (frames ps).length, tx'.wire = tx.wire ++ (frames ps).take j) := by
  induction ps generalizing tx with
  | nil =>
    obtain ⟨rfl, rfl⟩ := Prod.mk.inj (Option.some.inj h)
    exact .inl ⟨rfl, by simp, fun _ => interrupted_nil _⟩
  | cons p ps ih =>
    obtain ⟨hp, hps⟩ := List.forall_mem_cons.mp hps
    have hl := length_prependFixedHeader_lt p.2 p.1 hp
    have hd := length_prependFixedHeader_pos p.2 p.1
    rw [frameLengths_cons ps hp]
    cases hloop : sendAllLoop tx.ssl tx.sends (prependFixedHeader p.2 p.1) tx.wire with
    | none =>
      have hs : sendAll (prependFixedHeader p.2 p.1) tx = none := by
        rw [sendAll, hloop]
        rfl
      rw [sendPackets, Net.bind_none hs] at h
      contradiction
    | some x =>
      obtain ⟨r₁, sends, wire⟩ := x
      have hs := sendAll_of_loop hloop
      obtain ⟨hsuffix, hcases⟩ := sendAllLoop_proceeds hc hl hd (frameLengths ps) hloop
      rcases hcases with ⟨rfl, rfl, hnext⟩ | ⟨hssl, hint, ⟨e, rfl⟩, j, hj, rfl⟩
      · rw [sendPackets, Net.bind_ok hs] at h
        rcases ih hps (fun c hmem => hc c (hsuffix.subset hmem)) h with
          ⟨hr, hw, hno⟩ | ⟨hssl, hint, j, hj, hw⟩
        · refine .inl ⟨hr, ?_, fun hssl => (hnext hssl).trans (hno hssl)⟩
          rw [hw, frames_cons, List.append_assoc]
        · refine .inr ⟨hssl, (hnext hssl).trans hint, (prependFixedHeader p.2 p.1).length + j,
            ?_, ?_⟩
          · rw [frames_cons, List.length_append]
            omega
          · rw [hw, frames_cons, List.take_length_add_append, List.append_assoc]
      · -- the rest of the frame and the frames after it are not sent
        rw [sendPackets, Net.bind_error hs] at h
        obtain ⟨rfl, rfl⟩ := Prod.mk.inj (Option.some.inj h)
        refine .inr ⟨hssl, hint, j, ?_, ?_⟩
        · rw [frames_cons, List.length_append]
          omega
        · rw [frames_cons, List.take_append_of_le_length hj.le]

theorem sendPackets_of_interrupted {ps : List (UInt8 × Bytes)} {tx : Transport}
    (hps : ∀ p ∈ ps, p.2.length < 2 ^ 28) (hc : ∀ c ∈ tx.sends, c.Proceeds) (hssl : tx.ssl = true)
    (hint : interrupted (frameLengths ps) tx.sends = true) : sendPackets ps tx ≠ none := by
  induction ps generalizing tx with
  | nil => simp [frameLengths, interrupted_nil] at hint
  | cons p ps ih =>
    obtain ⟨hp, hps⟩ := List.forall_mem_cons.mp hps
    have hl := length_prependFixedHeader_lt p.2 p.1 hp
    have hd := length_prependFixedHeader_pos p.2 p.1
    rw [frameLengths_cons ps hp] at hint
    cases hloop : sendAllLoop tx.ssl tx.sends (prependFixedHeader p.2 p.1) tx.wire with
    | none =>
      rw [hssl] at hloop
      have hno := sendAllLoop_of_interrupted tx.wire hl hd (frameLengths ps) hloop
      exact (Bool.false_ne_true (hno.symm.trans hint)).elim
    | some x =>
      obtain ⟨r, sends, wire⟩ := x
      have hs := sendAll_of_loop hloop
      obtain ⟨hsuffix, ⟨rfl, -, hnext⟩ | ⟨-, -, ⟨e, rfl⟩, -⟩⟩ :=
        sendAllLoop_proceeds hc hl hd (frameLengths ps) hloop
      · rw [sendPackets, Net.bind_ok hs]
        refine @ih { tx with sends := sends, wire := wire } hps
          (fun c hmem => hc c (hsuffix.subset hmem)) hssl ?_
        exact (hnext hssl).symm.trans hint
      · rw [sendPackets, Net.bind_error hs]
        nofun

theorem sendPackets_returns {ps : List (UInt8 × Bytes)} {tx : Transport}
    (hps : ∀ p ∈ ps, p.2.length < 2 ^ 28) (hc : ∀ c ∈ tx.sends, c.Proceeds)
    (hn : (frames ps).length ≤ tx.sends.countP SendResult.accepts) :
    ∃ r tx', sendPackets ps tx = some (r, tx') := by
  induction ps generalizing tx with
  | nil => exact ⟨_, tx, rfl⟩
  | cons p ps ih =>
    obtain ⟨hp, hps⟩ := List.forall_mem_cons.mp hps
    have hl := length_prependFixedHeader_lt p.2 p.1 hp
    have hd := length_prependFixedHeader_pos p.2 p.1
    rw [frames_cons, List.length_append] at hn
    obtain ⟨r, sends, wire, hloop, hk⟩ := sendAllLoop_returns tx.wire hc hl (by omega)
    have hs := sendAll_of_loop hloop
    cases r with
    | error e => exact ⟨_, _, by rw [sendPackets, Net.bind_error hs]⟩
    | ok u =>
      have hsuffix := (sendAllLoop_proceeds hc hl hd [] hloop).1
      have hcount := hk rfl
      obtain ⟨r, tx', ht⟩ := @ih { tx with sends := sends, wire := wire } hps
        (fun c hmem => hc c (hsuffix.subset hmem)) (by show _ ≤ sends.countP _; omega)
      exact ⟨r, tx', by rw [sendPackets, Net.bind_ok hs]; exact ht⟩

theorem readPackets_frames {ps : List (UInt8 × Bytes)} {rx : Transport} {rest : Bytes}
    {tail : List RecvCall} (hps : ∀ p ∈ ps, p.2.length < 2 ^ 28)
    (hf : rx.Feeds (frames ps ++ rest) tail) :
    ∃ rx', readPackets ps.length rx = some (.ok (ps.map received), rx') ∧
      rx'.Feeds rest tail := by
  induction ps generalizing rx with
  | nil => exact ⟨rx, rfl, hf⟩
  | cons p ps ih =>
    obtain ⟨hp, hps⟩ := List.forall_mem_cons.mp hps
    rw [frames_cons, List.append_assoc] at hf
    obtain ⟨recvs, hr, hf'⟩ := readPacket_packet hf (frame_prependFixedHeader _ _ _ hp)
    obtain ⟨rx', hrs, hf''⟩ := ih hps hf'
    refine ⟨rx', ?_, hf''⟩
    rw [List.length_cons, readPackets, Net.bind_ok hr, Net.bind_ok hrs]
    rfl

/-! ## Frames that are cut short -/

/-- What follows a packet does not matter to it. -/
theorem frame_append {stream rest : Bytes} {p : IncomingPacket} (h : frame stream = .packet p rest)
    (more : Bytes) : frame (stream ++ more) = .packet p (rest ++ more) := by
  obtain ⟨b0, field, rfl, hfield⟩ := frame_eq_packet_iff.mp h
  refine frame_eq_packet_iff.mpr ⟨b0, field, ?_, hfield⟩
  simp [List.append_assoc]

/-- No packet begins in a part of a frame. -/
theorem frame_take_ne_packet {p : IncomingPacket} {rest : Bytes} {q : UInt8 × Bytes} {k : ℕ}
    (hq : q.2.length < 2 ^ 28) (hk : k < (prependFixedHeader q.2 q.1).length) (more : Bytes) :
    frame ((prependFixedHeader q.2 q.1 ++ more).take k) ≠ .packet p rest := by
  intro h
  have hwhole := frame_append h ((prependFixedHeader q.2 q.1 ++ more).drop k)
  rw [List.take_append_drop, frame_prependFixedHeader _ _ _ hq] at hwhole
  have hlen := congrArg List.length (Frame.packet.inj hwhole).2
  simp only [List.length_append, List.length_drop] at hlen
  omega

/-- Where the last frame is not complete, there are not as many packets to read. -/
theorem readPackets_cut {ps : List (UInt8 × Bytes)} {rx : Transport} {j : ℕ}
    (hps : ∀ p ∈ ps, p.2.length < 2 ^ 28) (hj : j < (frames ps).length)
    (hf : rx.Feeds ((frames ps).take j) []) : Net.Fails (readPackets ps.length) rx := by
  induction ps generalizing rx j with
  | nil => simp at hj
  | cons p ps ih =>
    obtain ⟨hp, hps⟩ := List.forall_mem_cons.mp hps
    rw [frames_cons] at hf hj
    rcases Nat.lt_or_ge j (prependFixedHeader p.2 p.1).length with hlt | hge
    · -- the first frame is cut
      refine Net.Fails.bind ?_
      cases hframe : frame ((prependFixedHeader p.2 p.1 ++ frames ps).take j) with
      | packet q rest => exact absurd hframe (frame_take_ne_packet hp hlt _)
      | malformed rest =>
        obtain ⟨recvs, hr, -⟩ := readPacket_malformed hf hframe
        intro q rx' h
        rw [hr] at h
        cases h
      | incomplete => exact readPacket_incomplete hf trivial hframe
    · rw [List.take_append, List.take_of_length_le hge] at hf
      rw [List.length_append] at hj
      obtain ⟨recvs, hr, hf'⟩ := readPacket_packet hf (frame_prependFixedHeader _ _ _ hp)
      intro out rx' h
      rw [List.length_cons, readPackets, Net.bind_ok hr] at h
      exact (ih hps (by omega) hf').bind out rx' h

/-- A receiving side on which the stream has arrived, and nothing more. -/
theorem exists_feeds (stream : Bytes) : ∃ rx : Transport, rx.Feeds stream [] := by
  refine ⟨{ recvs := pushBack stream [] }, rfl, pushBack stream [], (List.append_nil _).symm,
    quiet_pushBack _ (by simp), ?_⟩
  rw [delivered_pushBack, delivered_nil, List.append_nil]

/-! ## Segmentation -/

/--
Enough accepting calls write the frames; and what has been written when `sendAll` is through with
them comes back, over any segmentation, frame by frame.
-/
structure Survives (ps : List (UInt8 × Bytes)) (tx : Transport) : Prop where
  written : (frames ps).length ≤ tx.sends.countP SendResult.accepts →
    ∃ tx', sendPackets ps tx = some (.ok (), tx')
  readBack : ∀ r tx', sendPackets ps tx = some (r, tx') → ∃ sent, tx'.wire = tx.wire ++ sent ∧
    ∀ (rx : Transport) (more : Bytes) (tail : List RecvCall), rx.Feeds (sent ++ more) tail →
      ∀ qs rs, ps = qs ++ rs →
        ∃ rx', readPackets qs.length rx = some (.ok (qs.map received), rx') ∧
          rx'.Feeds (frames rs ++ more) tail

/--
Whatever partial writes and interrupts there are, framing survives exactly if none of the calls that
write the frames is interrupted under TLS.
-/
theorem framing_survives_iff (ps : List (UInt8 × Bytes)) (hps : ∀ p ∈ ps, p.2.length < 2 ^ 28)
    (tx : Transport) (hc : ∀ c ∈ tx.sends, c.Proceeds) :
    Survives ps tx ↔ ¬ (tx.ssl = true ∧ interrupted (frameLengths ps) tx.sends = true) := by
  constructor
  · rintro hsurvives ⟨hssl, hint⟩
    obtain ⟨⟨r, tx'⟩, hsend⟩ :=
      Option.ne_none_iff_exists'.mp (sendPackets_of_interrupted hps hc hssl hint)
    obtain ⟨-, -, hno⟩ | ⟨-, -, j, hj, hwire⟩ := sendPackets_proceeds hps hc hsend
    · exact Bool.false_ne_true ((hno hssl).symm.trans hint)
    · obtain ⟨sent, hsent, hread⟩ := hsurvives.readBack r tx' hsend
      obtain rfl : (frames ps).take j = sent := List.append_cancel_left (hwire.symm.trans hsent)
      obtain ⟨rx, hf⟩ := exists_feeds ((frames ps).take j)
      obtain ⟨rx', hr, -⟩ := hread rx [] [] (by rwa [List.append_nil]) ps [] (by simp)
      exact readPackets_cut hps hj hf _ _ hr
  · intro hno
    have hsent {r : Result Unit} {tx' : Transport} (h : sendPackets ps tx = some (r, tx')) :
        r = .ok () ∧ tx'.wire = tx.wire ++ frames ps := by
      obtain ⟨hr, hw, -⟩ | ⟨hssl, hint, -⟩ := sendPackets_proceeds hps hc h
      · exact ⟨hr, hw⟩
      · exact absurd ⟨hssl, hint⟩ hno
    refine ⟨fun hn => ?_, fun r tx' h => ⟨frames ps, (hsent h).2, ?_⟩⟩
    · obtain ⟨r, tx', h⟩ := sendPackets_returns hps hc hn
      exact ⟨tx', (hsent h).1 ▸ h⟩
    · intro rx more tail hf qs rs hsplit
      subst hsplit
      rw [frames_append, List.append_assoc] at hf
      exact readPackets_frames (fun p hp => hps p (List.mem_append_left _ hp)) hf

/-- A one-byte body written in two pieces around an interrupt, without TLS. -/
theorem framing_survives_iff_oneByte :
    Survives [(0x32, [7])] { sends := [.accept 0, .eintr, .accept 0, .accept 5, .accept 9] } ↔
      ¬ ((false : Bool) = true ∧ interrupted (frameLengths [(0x32, [7])])
        [.accept 0, .eintr, .accept 0, .accept 5, .accept 9] = true) :=
  framing_survives_iff [(0x32, [7])] (by simp)
    { sends := [.accept 0, .eintr, .accept 0, .accept 5, .accept 9] }
    (by simp [SendResult.Proceeds])

/-- Under TLS the write of the frame is interrupted: `sendAll` fails, and the reader waits. -/
theorem framing_lost_under_tls :
    (∃ tx', sendPackets [(0x32, [7])] { ssl := true, sends := [.eintr, .accept 9] } =
      some (.error ⟨.connectionLost, ascii "SSL_write: unknown SSL error"⟩, tx') ∧
        tx'.wire = []) ∧
    readPackets 1 {} = none ∧
    ¬ Survives [(0x32, [7])] { ssl := true, sends := [.eintr, .accept 9] } := by
  have hframe : prependFixedHeader [7] 0x32 = [0x32, 1, 7] := by
    have hv : varLen (UInt32.ofNat [(7 : UInt8)].length) = [1] := by
      rw [varLen, appendVarLen, if_neg (by decide)]
      decide
    rw [prependFixedHeader_eq, hv]
    rfl
  have hsend : sendPackets [(0x32, [7])] { ssl := true, sends := [.eintr, .accept 9] } =
      some (.error ⟨.connectionLost, ascii "SSL_write: unknown SSL error"⟩,
        { ssl := true, sends := [.accept 9] }) := by
    rw [sendPackets]
    refine Net.bind_error ?_
    rw [hframe]
    rfl
  have hread : readPackets 1 {} = none := rfl
  refine ⟨⟨_, hsend, rfl⟩, hread, fun h => ?_⟩
  obtain ⟨sent, hsent, hback⟩ := h.readBack _ _ hsend
  obtain rfl : [] = sent := hsent
  obtain ⟨rx', hr, -⟩ := hback {} [] []
    ⟨rfl, [], rfl, by simp, rfl⟩ [(0x32, [7])] [] rfl
  rw [show [((0x32 : UInt8), ([7] : Bytes))].length = 1 from rfl, hread] at hr
  contradiction

end MqttNativeSocket
