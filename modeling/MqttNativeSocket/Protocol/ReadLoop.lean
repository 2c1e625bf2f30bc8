import MqttNativeSocket.Protocol.Framing

/-! # A loop over packets

Both clients read packet after packet until `readPacket` fails, and leave the
loop then. What such a loop handles is told by the bytes that arrived alone: the
packets that are complete in them, in order. A stream that is cut short gives an
initial part of the packets of the whole.
-/

namespace MqttNativeSocket

/-- The packets that are complete in a stream, up to the first place where none begins. -/
def packetsUpTo : ℕ → Bytes → List IncomingPacket
  | 0, _ => []
  | n + 1, bs =>
    match frame bs with
    | .packet p rest => p :: packetsUpTo n rest
    | _ => []

/-- A packet takes at least two bytes, so there are no more packets than bytes. -/
def packets (stream : Bytes) : List IncomingPacket := packetsUpTo stream.length stream

/--
`n` rounds of a receive loop, which handles what it reads and leaves when a read fails. `stops`
says what its looks at the stop token find: look `2 * i` at the top of round `i`, and look
`2 * i + 1` after its read, if that has failed.
-/
def recvLoop {σ : Type} (handle : σ → IncomingPacket → σ) (lost : σ → σ) :
    (ℕ → Bool) → ℕ → σ → Transport → σ × Transport
  | _, 0, s, rx => (s, rx)
  | stops, n + 1, s, rx =>
    if stops 0 then (s, rx)
    else
      match readPacket rx with
      | some (.ok p, rx') => recvLoop handle lost (fun i => stops (i + 2)) n (handle s p) rx'
      | some (.error _, rx') => (if stops 1 then s else lost s, rx')
      -- the call has not returned
      | none => (s, rx)

/-- The loop of a thread that nobody asks to stop. -/
def readLoop {σ : Type} (handle : σ → IncomingPacket → σ) (lost : σ → σ) :
    ℕ → σ → Transport → σ × Transport :=
  recvLoop handle lost fun _ => false

/-- One `sendAll` after the other, up to the first that fails. -/
def sendEach : List Bytes → Net Unit
  | [] => return ()
  | p :: ps => do
    sendAll p
    sendEach ps

variable {stream more rest : Bytes} {p : IncomingPacket} {n m : ℕ}

/-! ## The packets of a stream -/

theorem length_rest_of_frame (h : frame stream = .packet p rest) :
    rest.length + 2 ≤ stream.length := by
  obtain ⟨b0, field, rfl, -, hfield, -⟩ := frame_eq_packet_iff.mp h
  have hne : field ≠ [] := by
    rintro rfl
    simp [VarLen.IsField] at hfield
  have := List.length_pos_iff.mpr hne
  simp only [List.length_cons, List.length_append]
  omega

theorem packetsUpTo_of_frame (h : frame stream = .packet p rest) :
    packetsUpTo (n + 1) stream = p :: packetsUpTo n rest := by
  rw [packetsUpTo, h]

theorem packetsUpTo_of_not (h : ∀ p rest, frame stream ≠ .packet p rest) :
    packetsUpTo n stream = [] := by
  cases n with
  | zero => rfl
  | succ n =>
    rw [packetsUpTo]
    split
    · next p rest hp => exact (h p rest hp).elim
    · rfl

/-- Enough rounds are as good as any number above. -/
theorem packetsUpTo_eq (hn : stream.length ≤ n) (hm : stream.length ≤ m) :
    packetsUpTo n stream = packetsUpTo m stream := by
  induction n generalizing stream m with
  | zero =>
    obtain rfl : stream = [] := List.eq_nil_of_length_eq_zero (by omega)
    exact (packetsUpTo_of_not fun p rest h => by simp [frame] at h).symm
  | succ n ih =>
    by_cases h : ∃ p rest, frame stream = .packet p rest
    · obtain ⟨p, rest, h⟩ := h
      have hlen := length_rest_of_frame h
      cases m with
      | zero => omega
      | succ m =>
        rw [packetsUpTo_of_frame h, packetsUpTo_of_frame h,
          ih (show rest.length ≤ n by omega) (show rest.length ≤ m by omega)]
    · have hnot : ∀ p rest, frame stream ≠ .packet p rest := fun p rest hp => h ⟨p, rest, hp⟩
      rw [packetsUpTo_of_not hnot, packetsUpTo_of_not hnot]

@[simp] theorem packets_nil : packets [] = [] := rfl

theorem packets_of_frame (h : frame stream = .packet p rest) :
    packets stream = p :: packets rest := by
  have hlen := length_rest_of_frame h
  obtain ⟨n, hn⟩ : ∃ n, stream.length = n + 1 := ⟨stream.length - 1, by omega⟩
  rw [packets, hn, packetsUpTo_of_frame h, packets,
    packetsUpTo_eq (show rest.length ≤ n by omega) le_rfl]

theorem packets_of_not (h : ∀ p rest, frame stream ≠ .packet p rest) : packets stream = [] :=
  packetsUpTo_of_not h

/-- Induction over the packets of a stream. -/
theorem packets_induction {P : Bytes → Prop}
    (none : ∀ stream, (∀ p rest, frame stream ≠ .packet p rest) → P stream)
    (packet : ∀ stream p rest, frame stream = .packet p rest → P rest → P stream)
    (stream : Bytes) : P stream := by
  induction h : stream.length using Nat.strong_induction_on generalizing stream with
  | _ k ih =>
    by_cases hp : ∃ p rest, frame stream = .packet p rest
    · obtain ⟨p, rest, hp⟩ := hp
      have hlen := length_rest_of_frame hp
      exact packet stream p rest hp (ih rest.length (by omega) rest rfl)
    · exact none stream fun p rest hf => hp ⟨p, rest, hf⟩

theorem length_packets_le (stream : Bytes) : (packets stream).length ≤ stream.length := by
  induction stream using packets_induction with
  | none stream h => simp [packets_of_not h]
  | packet stream p rest h ih =>
    have := length_rest_of_frame h
    rw [packets_of_frame h, List.length_cons]
    omega

/-- A stream that is cut short has the first of its packets. -/
theorem packets_prefix (stream more : Bytes) : packets stream <+: packets (stream ++ more) := by
  induction stream using packets_induction with
  | none stream h =>
    rw [packets_of_not h]
    exact List.nil_prefix
  | packet stream p rest h ih =>
    rw [packets_of_frame h, packets_of_frame (frame_append h more)]
    exact List.cons_prefix_cons.mpr ⟨rfl, ih⟩

/-- The packets of a stream of frames, whatever comes after them. -/
theorem packets_frames {ps : List (UInt8 × Bytes)} (hps : ∀ p ∈ ps, p.2.length < 2 ^ 28)
    (more : Bytes) : packets (frames ps ++ more) = ps.map received ++ packets more := by
  induction ps with
  | nil => rfl
  | cons p ps ih =>
    obtain ⟨hp, hps⟩ := List.forall_mem_cons.mp hps
    rw [frames_cons, List.append_assoc, packets_of_frame (frame_prependFixedHeader _ _ _ hp),
      ih hps]
    rfl

/-- `j` of the frames are complete in the first `k` bytes, and the next one is not. -/
structure Whole (ps : List (UInt8 × Bytes)) (k j : ℕ) : Prop where
  le_length : j ≤ ps.length
  complete : (frames (ps.take j)).length ≤ k
  next : j < ps.length → k < (frames (ps.take (j + 1))).length

/-- The packets of a stream of frames that is cut after `k` bytes. -/
theorem exists_whole {ps : List (UInt8 × Bytes)} (hps : ∀ p ∈ ps, p.2.length < 2 ^ 28) (k : ℕ) :
    ∃ j, Whole ps k j ∧ packets ((frames ps).take k) = (ps.take j).map received := by
  induction ps generalizing k with
  | nil => exact ⟨0, ⟨le_rfl, by simp, by simp⟩, by simp⟩
  | cons q ps ih =>
    obtain ⟨hq, hps⟩ := List.forall_mem_cons.mp hps
    rcases Nat.lt_or_ge k (prependFixedHeader q.2 q.1).length with hlt | hge
    · refine ⟨0, ⟨Nat.zero_le _, by simp, fun _ => by simpa using hlt⟩, ?_⟩
      rw [frames_cons]
      exact packets_of_not fun p rest => frame_take_ne_packet hq hlt _
    · obtain ⟨j, ⟨hj, hcomplete, hnext⟩, hpackets⟩ :=
        ih hps (k - (prependFixedHeader q.2 q.1).length)
      refine ⟨j + 1, ⟨by simpa using hj, ?_, fun hlt => ?_⟩, ?_⟩
      · rw [List.take_succ_cons, frames_cons, List.length_append]
        omega
      · have := hnext (by simpa using hlt)
        rw [List.take_succ_cons, frames_cons, List.length_append]
        omega
      · rw [frames_cons, List.take_append, List.take_of_length_le hge,
          packets_of_frame (frame_prependFixedHeader _ _ _ hq), hpackets]
        rfl

/-! ## The loop -/

section Loop

variable {σ : Type} {handle : σ → IncomingPacket → σ} {lost : σ → σ} {s : σ} {rx rx' : Transport}
  {tail : List RecvCall}

theorem readLoop_ok (h : readPacket rx = some (.ok p, rx')) :
    readLoop handle lost (n + 1) s rx = readLoop handle lost n (handle s p) rx' := by
  simp only [readLoop, recvLoop, h, Bool.false_eq_true, if_false]

theorem readLoop_error {e : MqttException} (h : readPacket rx = some (.error e, rx')) :
    readLoop handle lost (n + 1) s rx = (lost s, rx') := by
  simp only [readLoop, recvLoop, h, Bool.false_eq_true, if_false]

variable (handle lost s) in
/-- As many rounds as there are packets handle them all, and leave what comes after. -/
theorem readLoop_frames {ps : List (UInt8 × Bytes)} (hps : ∀ p ∈ ps, p.2.length < 2 ^ 28)
    (hf : rx.Feeds (frames ps ++ rest) tail) :
    ∃ rx', readLoop handle lost ps.length s rx = ((ps.map received).foldl handle s, rx') ∧
      rx'.Feeds rest tail := by
  induction ps generalizing s rx with
  | nil => exact ⟨rx, rfl, hf⟩
  | cons p ps ih =>
    obtain ⟨hp, hps⟩ := List.forall_mem_cons.mp hps
    rw [frames_cons, List.append_assoc] at hf
    obtain ⟨recvs, hr, hf'⟩ := readPacket_packet hf (frame_prependFixedHeader _ _ _ hp)
    obtain ⟨rx', hl, hf''⟩ := ih (handle s (received p)) hps hf'
    refine ⟨rx', ?_, hf''⟩
    rw [List.length_cons, readLoop_ok hr]
    exact hl

variable (handle lost s) in
/-- A stream with the end of the file behind it: its packets are handled, and the loop is left. -/
theorem readLoop_eof {stop : Bool} (hf : rx.Feeds stream (⟨.eof, stop⟩ :: tail))
    (hn : (packets stream).length < n) :
    ∃ rx', readLoop handle lost n s rx = (lost ((packets stream).foldl handle s), rx') := by
  induction stream using packets_induction generalizing n s rx with
  | none stream h =>
    obtain ⟨n, rfl⟩ : ∃ m, n = m + 1 := ⟨n - 1, by omega⟩
    obtain ⟨e, rx', hr⟩ : ∃ e rx', readPacket rx = some (.error e, rx') := by
      cases hframe : frame stream with
      | packet p rest => exact (h p rest hframe).elim
      | malformed rest =>
        obtain ⟨recvs, hr, -⟩ := readPacket_malformed hf hframe
        exact ⟨_, _, hr⟩
      | incomplete =>
        obtain ⟨e, rx', hr, -⟩ := readPacket_eof hf hframe
        exact ⟨e, rx', hr⟩
    refine ⟨rx', ?_⟩
    rw [readLoop_error hr, packets_of_not h, List.foldl_nil]
  | packet stream p rest h ih =>
    rw [packets_of_frame h, List.length_cons] at hn
    obtain ⟨n, rfl⟩ : ∃ m, n = m + 1 := ⟨n - 1, by omega⟩
    obtain ⟨recvs, hr, hf'⟩ := readPacket_packet hf h
    have hlt : (packets rest).length < n := by omega
    obtain ⟨rx', hl⟩ := ih (handle s p) hf' hlt
    refine ⟨rx', ?_⟩
    rw [readLoop_ok hr, hl, packets_of_frame h, List.foldl_cons]

end Loop

/-! ## The sending side -/

/-- Where the loop reports success, all bytes are on the wire. -/
theorem sendAllLoop_ok {ssl : Bool} {calls calls' : List SendResult} {data wire wire' : Bytes}
    (h : sendAllLoop ssl calls data wire = some (.ok (), calls', wire')) :
    wire' = wire ++ data := by
  induction calls generalizing data wire with
  | nil =>
    cases data with
    | nil => simp_all [sendAllLoop]
    | cons d ds => simp [sendAllLoop] at h
  | cons c calls ih =>
    cases data with
    | nil => simp_all [sendAllLoop]
    | cons d ds =>
      rw [sendAllLoop] at h
      split at h
      · simp at h
      · exact ih h
      · rw [ih h, List.append_assoc, List.take_append_drop]

theorem sendEach_ok {ps : List Bytes} {tx tx' : Transport}
    (h : sendEach ps tx = some (.ok (), tx')) : tx'.wire = tx.wire ++ ps.flatten := by
  induction ps generalizing tx with
  | nil =>
    obtain ⟨-, rfl⟩ := Prod.mk.inj (Option.some.inj h)
    simp
  | cons p ps ih =>
    rw [sendEach] at h
    cases hs : sendAll p tx with
    | none => simp [Net.bind_none hs] at h
    | some x =>
      obtain ⟨e | u, tx₁⟩ := x
      · simp [Net.bind_error hs] at h
      · rw [Net.bind_ok hs] at h
        simp only [sendAll, Option.map_eq_some_iff, Prod.exists, Prod.mk.injEq] at hs
        obtain ⟨r, sends, wire, hloop, rfl, rfl⟩ := hs
        rw [ih h, List.flatten_cons, ← List.append_assoc, ← sendAllLoop_ok hloop]

end MqttNativeSocket
