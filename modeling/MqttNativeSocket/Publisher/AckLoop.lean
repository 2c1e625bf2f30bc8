import MqttNativeSocket.Protocol.ReadLoop
import MqttNativeSocket.Publisher.Requests

/-! # The publisher's receive loop

The loop takes PUBACKs to their requests and passes over all other packets. When
a read fails it fails every request that is left. Whatever the bytes are and
however they arrive, a request is completed if one of the packets that are
complete in them acknowledges its identifier, and is failed if none does; how
often and in which order the broker acknowledges does not matter.
-/

namespace MqttNativeSocket

structure PublisherLoop where
  requests : PublishState
  reconnectCount : ℕ := 0
  metricsConnected : Bool := true
  state : ConnectionState := .connected

namespace PublisherLoop

/-- The `switch` on the packet type. -/
def handlePacket (s : PublisherLoop) (pkt : IncomingPacket) : PublisherLoop :=
  if pkt.type = .puback then
    { s with requests := s.requests.handlePuback none (parsePacketId pkt.body) }
  -- PINGRESP and all other types are only traced
  else s

/-- The loop's way out when `readPacket` fails. -/
def connectionLost (stopRequested : Bool) (s : PublisherLoop) : PublisherLoop :=
  if stopRequested then s
  else
    { s with
      metricsConnected := false
      reconnectCount := s.reconnectCount + 1
      state := .reconnecting
      requests := s.requests.failAllPending }

/-- `n` rounds of the loop. -/
def run (stopRequested : Bool) (n : ℕ) (s : PublisherLoop) (rx : Transport) :
    PublisherLoop × Transport :=
  readLoop handlePacket (connectionLost stopRequested) n s rx

/-- The identifiers that the PUBACKs among the packets acknowledge. -/
def acknowledged (ps : List IncomingPacket) : List UInt16 :=
  ps.filterMap fun p => if p.type = .puback then some (parsePacketId p.body) else none

variable {s : PublisherLoop} {p : IncomingPacket} {ps : List IncomingPacket} {id : UInt16} {c : ℕ}

theorem acknowledged_cons_puback (h : p.type = .puback) :
    acknowledged (p :: ps) = parsePacketId p.body :: acknowledged ps :=
  List.filterMap_cons_some (if_pos h)

theorem acknowledged_cons_other (h : p.type ≠ .puback) :
    acknowledged (p :: ps) = acknowledged ps :=
  List.filterMap_cons_none (if_neg h)

/-- The entries that the packets take out of the table. -/
theorem foldl_pendingPubacks (s : PublisherLoop) (ps : List IncomingPacket) (id : UInt16) :
    (ps.foldl handlePacket s).requests.pendingPubacks id =
      if id ∈ acknowledged ps then none else s.requests.pendingPubacks id := by
  induction ps generalizing s with
  | nil => simp [acknowledged]
  | cons p ps ih =>
    rw [List.foldl_cons, ih]
    by_cases hp : p.type = .puback
    · rw [acknowledged_cons_puback hp, handlePacket, if_pos hp]
      by_cases hid : id = parsePacketId p.body
      · simp [PublishState.handlePuback, hid]
      · simp [PublishState.handlePuback, hid]
    · rw [acknowledged_cons_other hp, handlePacket, if_neg hp]

/-- The promises that they fulfil, each with the entry that it stood in at the start. -/
theorem foldl_promises (s : PublisherLoop) (ps : List IncomingPacket) (c : ℕ) :
    (ps.foldl handlePacket s).requests.promises c =
      if ∃ id ∈ acknowledged ps, s.requests.pendingPubacks id = some c then .fulfilled .ok
      else s.requests.promises c := by
  induction ps generalizing s with
  | nil => simp [acknowledged]
  | cons p ps ih =>
    rw [List.foldl_cons, ih]
    by_cases hp : p.type = .puback
    · have hpromise : (handlePacket s p).requests.promises c =
          Pending.resolve s.requests.pendingPubacks s.requests.promises (parsePacketId p.body)
            (fun _ => .fulfilled .ok) c := by
        rw [handlePacket, if_pos hp]
        rfl
      have hpending : (handlePacket s p).requests.pendingPubacks =
          Function.update s.requests.pendingPubacks (parsePacketId p.body) none := by
        rw [handlePacket, if_pos hp]
        rfl
      rw [acknowledged_cons_puback hp, hpromise, hpending]
      by_cases hown : s.requests.pendingPubacks (parsePacketId p.body) = some c
      · have hfirst : ∃ id ∈ parsePacketId p.body :: acknowledged ps,
            s.requests.pendingPubacks id = some c := ⟨_, List.mem_cons_self, hown⟩
        rw [if_pos hfirst]
        split
        · rfl
        · exact Pending.resolve_owner hown
      · have hiff : (∃ id ∈ acknowledged ps, Function.update s.requests.pendingPubacks
            (parsePacketId p.body) none id = some c) ↔
            ∃ id ∈ parsePacketId p.body :: acknowledged ps,
              s.requests.pendingPubacks id = some c := by
          constructor
          · rintro ⟨id, hid, h⟩
            exact ⟨id, List.mem_cons_of_mem _ hid, Pending.of_remove h⟩
          · rintro ⟨id, hid, h⟩
            have hne : id ≠ parsePacketId p.body := by
              rintro rfl
              exact hown h
            exact ⟨id, (List.mem_cons.mp hid).resolve_left hne,
              (Function.update_of_ne hne ..).trans h⟩
        rw [if_congr hiff rfl rfl]
        split
        · rfl
        · exact Pending.resolve_of_ne hown
    · rw [acknowledged_cons_other hp, handlePacket, if_neg hp]

theorem foldl_calls (s : PublisherLoop) (ps : List IncomingPacket) :
    (ps.foldl handlePacket s).requests.calls = s.requests.calls := by
  induction ps generalizing s with
  | nil => rfl
  | cons p ps ih =>
    rw [List.foldl_cons, ih, handlePacket]
    split <;> rfl

/-- A request by what the loop finds out about it. -/
inductive Outcome (s : PublisherLoop) (ids : List UInt16) (c : ℕ) : Promise → Prop where
  | acknowledged (id : UInt16) : s.requests.pendingPubacks id = some c → id ∈ ids →
      Outcome s ids c (.fulfilled .ok)
  | lost (id : UInt16) : s.requests.pendingPubacks id = some c → id ∉ ids →
      Outcome s ids c (.fulfilled .connectionLost)
  | absent : (∀ id, s.requests.pendingPubacks id ≠ some c) → Outcome s ids c (s.requests.promises c)

/--
From any state that calls can bring about, the loop over any bytes, in any segments, with the end of
the file behind them: every request that stands in `pendingPubacks` is completed if a PUBACK for its
identifier is complete in the bytes, and else fails with ConnectionLost; no other promise is
touched, and the table is left empty.
-/
theorem ack_loop_settles (offlineBuffering : Bool) (ls : List PublishLabel) (s : PublisherLoop)
    (hs : Runs.exec (publishStep offlineBuffering) PublishState.initial ls = some s.requests)
    (stream : Bytes) (rx : Transport) (stop : Bool) (tail : List RecvCall)
    (hf : rx.Feeds stream (⟨.eof, stop⟩ :: tail)) (n : ℕ) (hn : stream.length < n) :
    ∃ s' rx', run false n s rx = (s', rx') ∧ s'.state = .reconnecting ∧
      (∀ id, s'.requests.pendingPubacks id = none) ∧
      ∀ c, Outcome s (acknowledged (packets stream)) c (s'.requests.promises c) := by
  obtain ⟨-, he⟩ : CallsFit s.requests ∧ EntriesFit s.requests :=
    Runs.always (I := fun s => CallsFit s ∧ EntriesFit s) hs ⟨.initial, .initial⟩
      fun _ _ _ hi hstep => ⟨hi.1.step hstep, hi.2.step hi.1 hstep⟩
  obtain ⟨rx', hrun⟩ := readLoop_eof handlePacket (connectionLost false) s hf
    ((length_packets_le stream).trans_lt hn)
  refine ⟨_, rx', hrun, rfl, fun _ => rfl, fun c => ?_⟩
  set s₁ := (packets stream).foldl handlePacket s with hs₁
  have hcalls : s₁.requests.calls = s.requests.calls := foldl_calls s _
  have hpromise : (connectionLost false s₁).requests.promises c =
      if s₁.requests.pendingPubacks (s.requests.calls c).id = some c then
        .fulfilled .connectionLost
      else s₁.requests.promises c := by
    rw [← hcalls]
    rfl
  have hpending := foldl_pendingPubacks s (packets stream)
  rw [hpromise, foldl_promises]
  by_cases hin : ∃ id, s.requests.pendingPubacks id = some c
  · obtain ⟨id, hid⟩ := hin
    have honly : ∀ id', s.requests.pendingPubacks id' = some c → id' = id := fun id' h =>
      (he id' c h).1.symm.trans (he id c hid).1
    rw [(he id c hid).1, hpending id]
    by_cases hack : id ∈ acknowledged (packets stream)
    · rw [if_pos hack, if_neg (by simp), if_pos ⟨id, hack, hid⟩]
      exact .acknowledged id hid hack
    · rw [if_neg hack, if_pos hid]
      exact .lost id hid hack
  · have hnone : ∀ id, s.requests.pendingPubacks id ≠ some c := fun id h => hin ⟨id, h⟩
    have hnone₁ : s₁.requests.pendingPubacks (s.requests.calls c).id ≠ some c := by
      rw [hpending]
      split
      · simp
      · exact hnone _
    have hnone₂ : ¬ ∃ id ∈ acknowledged (packets stream),
        s.requests.pendingPubacks id = some c := by
      rintro ⟨id, -, h⟩
      exact hnone id h
    rw [if_neg hnone₁, if_neg hnone₂]
    exact .absent hnone

/-- Two calls of `publish` at QoS 1, which wait under identifiers 1 and 2. -/
def twoPublishes : List PublishLabel :=
  [.begin 0 { sync := true, msgQos := 1 }, .check 0 true, .fetch 0, .register 0, .send 0 true,
    .begin 1 { sync := true, msgQos := 1 }, .check 1 true, .fetch 1, .register 1, .send 1 true]

/-- The connection ends inside the second PUBACK. -/
theorem ack_loop_settles_twoPublishes :
    ∃ r s' rx', Runs.exec (publishStep false) PublishState.initial twoPublishes = some r ∧
      r.pendingPubacks 1 = some 0 ∧ r.pendingPubacks 2 = some 1 ∧
      run false 8 { requests := r }
        { recvs := [⟨.data 0x40 [2, 0], false⟩, ⟨.data 1 [0x40, 2, 0], false⟩, ⟨.eof, false⟩] } =
          (s', rx') ∧
      ∀ c, Outcome { requests := r } [1] c (s'.requests.promises c) := by
  have hrun : (Runs.exec (publishStep false) PublishState.initial twoPublishes).map
      (fun r => (r.pendingPubacks 1, r.pendingPubacks 2)) = some (some 0, some 1) := by
    decide +kernel
  obtain ⟨r, hr, hv⟩ := Option.map_eq_some_iff.mp hrun
  simp only [Prod.mk.injEq] at hv
  have hacks : acknowledged (packets [0x40, 2, 0, 1, 0x40, 2, 0]) = [1] := by decide
  obtain ⟨s', rx', hloop, -, -, hall⟩ := ack_loop_settles false twoPublishes { requests := r } hr
    [0x40, 2, 0, 1, 0x40, 2, 0]
    { recvs := [⟨.data 0x40 [2, 0], false⟩, ⟨.data 1 [0x40, 2, 0], false⟩, ⟨.eof, false⟩] }
    false [] ⟨rfl, [⟨.data 0x40 [2, 0], false⟩, ⟨.data 1 [0x40, 2, 0], false⟩], rfl,
      by simp [RecvCall.Quiet], rfl⟩ 8 (by simp)
  rw [hacks] at hall
  exact ⟨r, s', rx', hr, hv.1, hv.2, hloop, hall⟩

end PublisherLoop

end MqttNativeSocket
