import MqttNativeSocket.Client.Exclusion
import MqttNativeSocket.Protocol.Encoding
import MqttNativeSocket.Transport.Socket

/-! # The bytes on a connection

The threads of a client with the bytes they hand to the socket: a thread that
takes `sendMtx` names the packet it is about to send, and each call of `send` or
`SSL_write` in the loop of `sendAll` is a step of its own. The loop may stop
inside a packet; the results say what then keeps the stream well framed.
-/

namespace MqttNativeSocket

/-- What the encoders build. -/
inductive Outgoing where
  | connect (p : ConnectParams)
  | publish (topic payload : Bytes) (qos : ℤ) (retained dup : Bool) (packetId : UInt16)
  | puback (packetId : UInt16)
  | subscribe (packetId : UInt16) (subs : List (Bytes × ℤ))
  | unsubscribe (packetId : UInt16) (topics : List Bytes)
  | pingreq
  | disconnect

namespace Outgoing

def kind : Outgoing → PacketKind
  | .connect _ => .connect
  | .publish _ _ _ _ _ _ => .publish
  | .puback _ => .puback
  | .subscribe _ _ => .subscribe
  | .unsubscribe _ _ => .unsubscribe
  | .pingreq => .pingreq
  | .disconnect => .disconnect

def bytes : Outgoing → Bytes
  | .connect p => buildConnect p
  | .publish topic payload qos retained dup packetId =>
    buildPublish topic payload qos retained dup packetId
  | .puback packetId => buildPuback packetId
  | .subscribe packetId subs => buildSubscribe packetId subs
  | .unsubscribe packetId topics => buildUnsubscribe packetId topics
  | .pingreq => buildPingreq
  | .disconnect => buildDisconnect

end Outgoing

/-- A call of `sendAll`: `on` records the connection that has taken the bytes sent so far. -/
structure SendJob where
  packet : Outgoing := .pingreq
  rest : Bytes := []
  on : Option Conn := none

/--
`wire` holds the bytes each connection has taken. The last two fields only record what happened:
the packets whose `sendAll` has returned success, and the connections on which one has returned an
error inside its packet.
-/
structure WireState where
  base : ThreadState := .initial
  job : Tid → SendJob := fun _ => {}
  wire : Conn → Bytes := fun _ => []
  sent : Conn → List Outgoing := fun _ => []
  torn : Conn → Bool := fun _ => false

/-- `start` takes `sendMtx`, `send` is one call of the loop, `finish` its end. -/
inductive WireLabel where
  | other (t : Tid) (ch : Choice)
  | start (t : Tid) (ch : Choice) (p : Outgoing)
  | send (t : Tid) (r : SendResult)
  | finish (t : Tid)

namespace WireState

def sending (s : WireState) (t : Tid) : Bool := (s.base.threads t).pc.sendKind.isSome

/-- The socket takes the next `n` bytes of the packet of thread `t`. -/
def take (s : WireState) (t : Tid) (n : ℕ) (base : ThreadState) : WireState :=
  { s with
    base := base
    job := Function.update s.job t
      { s.job t with rest := (s.job t).rest.drop n, on := s.base.fd }
    wire := match s.base.fd with
      | none => s.wire
      | some c => Function.update s.wire c (s.wire c ++ (s.job t).rest.take n) }

/-- `sendAll` of thread `t` returns an error. -/
def giveUp (s : WireState) (t : Tid) (base : ThreadState) : WireState :=
  { s with
    base := base
    torn := match (s.job t).on with
      | none => s.torn
      | some c => Function.update s.torn c true }

/-- `sendAll` of thread `t` returns success. -/
def complete (s : WireState) (t : Tid) (base : ThreadState) : WireState :=
  { s with
    base := base
    sent := match (s.job t).on with
      | none => s.sent
      | some c => Function.update s.sent c (s.sent c ++ [(s.job t).packet]) }

end WireState

/-- Neither inside `sendAll` nor on the way into it. -/
def apart (cfg : ThreadConfig) (pc : Pc) (ch : Choice) : Bool :=
  pc.sendKind.isNone && (program cfg pc ch).all fun x => decide (x.1 ≠ .lock)

/-- The step takes `sendMtx` before a packet of this kind. -/
def entersFor (cfg : ThreadConfig) (pc : Pc) (ch : Choice) (kind : PacketKind) : Bool :=
  (program cfg pc ch).any fun x => decide (x.1 = .lock ∧ x.2.sendKind = some kind)

def wireStep (cfg : ThreadConfig) (ssl : Bool) (s : WireState) : WireLabel → Option WireState
  | .other t ch =>
    if apart cfg (s.base.threads t).pc ch then
      (threadStep cfg s.base (t, ch)).map fun b => { s with base := b }
    else none
  | .start t ch p =>
    if entersFor cfg (s.base.threads t).pc ch p.kind then
      (threadStep cfg s.base (t, ch)).map fun b =>
        { s with base := b, job := Function.update s.job t { packet := p, rest := p.bytes } }
    else none
  | .send t r =>
    if s.sending t && !(s.job t).rest.isEmpty then
      match sendOnce ssl (s.job t).rest r with
      | .error _ => (threadStep cfg s.base (t, .error)).map (s.giveUp t)
      | .ok none => some s
      | .ok (some n) => (threadStep cfg s.base (t, .more)).map (s.take t n)
    else none
  | .finish t =>
    if s.sending t && (s.job t).rest.isEmpty then
      (threadStep cfg s.base (t, .ok)).map (s.complete t)
    else none

/-- The packets in order, and then a part of one more. -/
def FramedBy (ps : List Outgoing) (w : Bytes) : Prop :=
  ∃ (p : Outgoing) (n : ℕ), w = ps.flatMap Outgoing.bytes ++ p.bytes.take n

/--
A call of `send` takes bytes only on a connection on which no `sendAll` has stopped inside its
packet, and none that belong to a packet begun on another connection.
-/
def TakesInOrder (ssl : Bool) (s : WireState) : WireLabel → Prop
  | .send t r => ∀ n c, sendOnce ssl (s.job t).rest r = .ok (some n) → s.base.fd = some c →
      s.torn c = false ∧ ∀ c', (s.job t).on = some c' → c' = c
  | .other _ _ => True
  | .start _ _ _ => True
  | .finish _ => True

/-! ## What one step does -/

variable {cfg : ThreadConfig} {ssl : Bool} {s s' : WireState} {l : WireLabel} {t t' : Tid}
  {ch : Choice} {b : ThreadState}

/-- The ways in which a step changes the bytes and who is sending. -/
inductive WireChange (ssl : Bool) (s : WireState) : WireLabel → WireState → Prop where

  | same {l : WireLabel} {b : ThreadState} :
      (∀ t, ({ s with base := b } : WireState).sending t = true ↔ s.sending t = true) →
      WireChange ssl s l { s with base := b }

  | start {l : WireLabel} {t : Tid} {p : Outgoing} {b : ThreadState} :
      (∀ t', s.sending t' = false) → (∀ t', (b.threads t').pc.sendKind.isSome = true → t' = t) →
      WireChange ssl s l
        { s with base := b, job := Function.update s.job t { packet := p, rest := p.bytes } }

  | take {t : Tid} {r : SendResult} {n : ℕ} {c : Conn} {b : ThreadState} :
      s.sending t = true → s.base.fd = some c →
      sendOnce ssl (s.job t).rest r = .ok (some n) →
      (∀ t', (b.threads t').pc.sendKind.isSome = true ↔ t' = t) →
      WireChange ssl s (.send t r) (s.take t n b)

  | giveUp {t : Tid} {r : SendResult} {b : ThreadState} :
      s.sending t = true → (∀ t', (b.threads t').pc.sendKind.isSome = false) →
      WireChange ssl s (.send t r) (s.giveUp t b)

  | complete {t : Tid} {b : ThreadState} :
      s.sending t = true → (s.job t).rest = [] →
      (∀ t', (b.threads t').pc.sendKind.isSome = false) →
      WireChange ssl s (.finish t) (s.complete t b)

theorem sendKind_start : ∀ q : Pc, q.start = true → q.sendKind.isSome = false :=
  Pc.start_false rfl rfl fun _ => rfl

theorem WireState.holdsSend_of_sending (h : s.sending t = true) :
    (s.base.threads t).pc.holdsSend = true := by
  obtain ⟨kind, hk⟩ := Option.isSome_iff_exists.mp h
  exact Pc.holdsSend_of_sendKind hk

theorem sending_unique (hx : Exclusive s.base) (h : s.sending t = true) (h' : s.sending t' = true) :
    t' = t :=
  hx.unique t' t (WireState.holdsSend_of_sending h') (WireState.holdsSend_of_sending h)

/-- A step of a thread inside `sendAll` leaves that thread in it, or nobody. -/
theorem sending_after (hx : Exclusive s.base) (h : s.sending t = true)
    (hb : threadStep cfg s.base (t, ch) = some b) :
    if ch = .more then ∀ t', (b.threads t').pc.sendKind.isSome = true ↔ t' = t
    else ∀ t', (b.threads t').pc.sendKind.isSome = false := by
  obtain ⟨a, pc, hp, -, rfl⟩ := threadStep_eq_some.mp hb
  have honly : ∀ t', (((effect s.base t a).setPc t pc).threads t').pc.sendKind.isSome = true →
      t' = t ∧ pc.sendKind.isSome = true := by
    intro t' ht'
    rcases step_pc_cases (f := fun q => q.sendKind.isSome) sendKind_start hp ht' with
      hself | ⟨hne, hother⟩
    · exact hself
    · exact absurd (sending_unique hx h hother) hne
  obtain ⟨kind, hk⟩ := Option.isSome_iff_exists.mp h
  have hnobody : pc.sendKind = none →
      ∀ t', (((effect s.base t a).setPc t pc).threads t').pc.sendKind.isSome = false := by
    intro hnone t'
    refine Bool.eq_false_iff.mpr fun hc => ?_
    simpa [hnone] using (honly t' hc).2
  rcases program_sendKind hp hk with ⟨rfl, -, hin⟩ | ⟨rfl, -, hnone⟩ | ⟨rfl, hnone⟩
  · rw [if_pos rfl]
    refine fun t' => ⟨fun ht' => (honly t' ht').1, ?_⟩
    rintro rfl
    rw [ThreadState.setPc_self, hin]
    rfl
  · rw [if_neg (by simp)]
    exact hnobody hnone
  · rw [if_neg (by simp)]
    exact hnobody hnone

theorem wireStep_cases (hx : Exclusive s.base) (h : wireStep cfg ssl s l = some s') :
    WireChange ssl s l s' := by
  cases l with
  | other t ch =>
    rw [wireStep] at h
    split at h
    · next hapart =>
      obtain ⟨b, hb, rfl⟩ := Option.map_eq_some_iff.mp h
      obtain ⟨a, pc, hp, hen, rfl⟩ := threadStep_eq_some.mp hb
      rw [apart, hp] at hapart
      simp only [Bool.and_eq_true, Option.isNone_iff_eq_none, Option.all_some,
        decide_eq_true_eq] at hapart
      refine .same fun t' => ⟨fun ht' => ?_, fun ht' => ?_⟩
      swap
      · have hne : t' ≠ t := by
          rintro rfl
          simp [WireState.sending, hapart.1] at ht'
        have hborn : (s.base.threads t').pc ≠ .unborn := by
          intro hc
          simp [WireState.sending, hc, Pc.sendKind] at ht'
        change ((((effect s.base t a).setPc t pc).threads t').pc.sendKind.isSome) = true
        rw [step_pc_of_ne hen hne hborn]
        exact ht'
      rcases step_pc_cases (f := fun q => q.sendKind.isSome) sendKind_start hp ht' with
        ⟨rfl, hself⟩ | ⟨-, hother⟩
      · rcases program_holdsSend hp with ⟨hlock, -⟩ | ⟨-, -, hout⟩ | ⟨-, -, -, hnone⟩
        · exact absurd hlock hapart.2
        · obtain ⟨kind, hk⟩ := Option.isSome_iff_exists.mp hself
          simp [Pc.holdsSend_of_sendKind hk] at hout
        · simp [hnone hapart.1] at hself
      · exact hother
    · simp at h
  | start t ch p =>
    rw [wireStep] at h
    split at h
    · next henters =>
      obtain ⟨b, hb, rfl⟩ := Option.map_eq_some_iff.mp h
      obtain ⟨a, pc, hp, hen, rfl⟩ := threadStep_eq_some.mp hb
      rw [entersFor, hp] at henters
      obtain ⟨rfl, hkind⟩ : a = .lock ∧ pc.sendKind = some p.kind := by simpa using henters
      have hopen : s.base.sendMtx = false := by simpa [enabled] using hen
      have hno : ∀ t', s.sending t' = false := by
        intro t'
        refine Bool.eq_false_iff.mpr fun hc => ?_
        simpa [hopen] using hx.held t' (WireState.holdsSend_of_sending hc)
      refine .start hno fun t' ht' => ?_
      rcases step_pc_cases (f := fun q => q.sendKind.isSome) sendKind_start hp ht' with
        ⟨hself, -⟩ | ⟨-, hother⟩
      · exact hself
      · simp [show (s.base.threads t').pc.sendKind.isSome = false from hno t'] at hother
    · simp at h
  | send t r =>
    rw [wireStep] at h
    split at h
    · next hin =>
      rw [Bool.and_eq_true] at hin
      split at h
      · obtain ⟨b, hb, rfl⟩ := Option.map_eq_some_iff.mp h
        exact .giveUp hin.1 (sending_after hx hin.1 hb)
      · obtain rfl := Option.some.inj h
        exact .same fun _ => Iff.rfl
      · next n hsend =>
        obtain ⟨b, hb, rfl⟩ := Option.map_eq_some_iff.mp h
        obtain ⟨a, pc, hp, hen, -⟩ := threadStep_eq_some.mp hb
        obtain ⟨kind, hk⟩ := Option.isSome_iff_exists.mp hin.1
        obtain ⟨started, rfl⟩ : ∃ started, a = .piece kind started := by
          rcases program_sendKind hp hk with ⟨-, hpiece, -⟩ | ⟨hok, -⟩ | ⟨herr, -⟩
          · exact hpiece
          · simp at hok
          · simp at herr
        obtain ⟨c, hc⟩ : ∃ c, s.base.fd = some c := Option.isSome_iff_exists.mp hen
        exact .take hin.1 hc hsend (sending_after hx hin.1 hb)
    · simp at h
  | finish t =>
    rw [wireStep] at h
    split at h
    · next hin =>
      rw [Bool.and_eq_true, List.isEmpty_iff] at hin
      obtain ⟨b, hb, rfl⟩ := Option.map_eq_some_iff.mp h
      exact .complete hin.1 hin.2 (sending_after hx hin.1 hb)
    · simp at h

theorem exclusive_wireStep (hx : Exclusive s.base) (h : wireStep cfg ssl s l = some s') :
    Exclusive s'.base := by
  cases l with
  | other t ch =>
    rw [wireStep] at h
    split at h
    · obtain ⟨b, hb, rfl⟩ := Option.map_eq_some_iff.mp h
      exact hx.step hb
    · simp at h
  | start t ch p =>
    rw [wireStep] at h
    split at h
    · obtain ⟨b, hb, rfl⟩ := Option.map_eq_some_iff.mp h
      exact hx.step hb
    · simp at h
  | send t r =>
    rw [wireStep] at h
    split at h
    · split at h
      · obtain ⟨b, hb, rfl⟩ := Option.map_eq_some_iff.mp h
        exact hx.step hb
      · obtain rfl := Option.some.inj h
        exact hx
      · obtain ⟨b, hb, rfl⟩ := Option.map_eq_some_iff.mp h
        exact hx.step hb
    · simp at h
  | finish t =>
    rw [wireStep] at h
    split at h
    · obtain ⟨b, hb, rfl⟩ := Option.map_eq_some_iff.mp h
      exact hx.step hb
    · simp at h

/-! ## Framing -/

theorem Outgoing.bytes_ne_nil (p : Outgoing) : p.bytes ≠ [] := by
  cases p with
  | connect p => simp [bytes, buildConnect, prependFixedHeader_eq]
  | publish topic payload qos retained dup packetId =>
    simp [bytes, buildPublish, prependFixedHeader_eq]
  | puback packetId => simp [bytes, buildPuback]
  | subscribe packetId subs => simp [bytes, buildSubscribe, prependFixedHeader_eq]
  | unsubscribe packetId topics => simp [bytes, buildUnsubscribe, prependFixedHeader_eq]
  | pingreq => simp [bytes, buildPingreq]
  | disconnect => simp [bytes, buildDisconnect]

/-- What has gone out on connection `c` is what the calls of `sendAll` account for. -/
structure WireInv (s : WireState) : Prop where
  exclusive : Exclusive s.base
  unsent : ∀ t, s.sending t = true → (s.job t).on = none → (s.job t).rest = (s.job t).packet.bytes
  begun : ∀ t c, s.sending t = true → (s.job t).on = some c → s.torn c = false ∧
    ∃ taken, (s.job t).packet.bytes = taken ++ (s.job t).rest ∧
      s.wire c = (s.sent c).flatMap Outgoing.bytes ++ taken
  torn : ∀ c, s.torn c = true → FramedBy (s.sent c) (s.wire c)
  whole : ∀ c, s.torn c = false → (∀ t, s.sending t = true → (s.job t).on ≠ some c) →
    s.wire c = (s.sent c).flatMap Outgoing.bytes

/-- A packet begun on a connection is still a part of one more packet there. -/
theorem WireInv.framed_of_begun {c : Conn} (hs : WireInv s) (h : s.sending t = true)
    (hon : (s.job t).on = some c) : FramedBy (s.sent c) (s.wire c) := by
  obtain ⟨-, taken, hbytes, hwire⟩ := hs.begun t c h hon
  exact ⟨(s.job t).packet, taken.length, by rw [hbytes, List.take_left, hwire]⟩

theorem WireInv.framed (hs : WireInv s) (c : Conn) : FramedBy (s.sent c) (s.wire c) := by
  cases ht : s.torn c with
  | true => exact hs.torn c ht
  | false =>
    by_cases h : ∃ t, s.sending t = true ∧ (s.job t).on = some c
    · obtain ⟨t, hin, hon⟩ := h
      exact hs.framed_of_begun hin hon
    · refine ⟨.pingreq, 0, ?_⟩
      rw [List.take_zero, List.append_nil]
      exact hs.whole c ht fun t hin hon => h ⟨t, hin, hon⟩

/-- Nobody is inside `sendAll` before it: all packets on untorn connections are whole. -/
theorem WireInv.start (hs : WireInv s) {p : Outgoing} (hx : Exclusive b)
    (hno : ∀ t', s.sending t' = false)
    (honly : ∀ t', (b.threads t').pc.sendKind.isSome = true → t' = t) :
    WireInv { s with base := b, job := Function.update s.job t ⟨p, p.bytes, none⟩ } := by
  refine ⟨hx, ?_, ?_, hs.torn, ?_⟩
  · intro t' ht' _
    obtain rfl := honly t' ht'
    simp
  · intro t' c ht' hon
    obtain rfl := honly t' ht'
    simp at hon
  · intro c hc _
    exact hs.whole c hc fun t' ht' => by simp [hno t'] at ht'

theorem WireInv.take (hs : WireInv s) {n : ℕ} {c : Conn} (hx : Exclusive b)
    (hin : s.sending t = true) (hfd : s.base.fd = some c)
    (hmeets : s.torn c = false ∧ ∀ c', (s.job t).on = some c' → c' = c)
    (honly : ∀ t', (b.threads t').pc.sendKind.isSome = true ↔ t' = t) :
    WireInv (s.take t n b) := by
  -- the bytes of the packet that connection `c` has taken before this call
  obtain ⟨taken, hbytes, hwire⟩ : ∃ taken, (s.job t).packet.bytes = taken ++ (s.job t).rest ∧
      s.wire c = (s.sent c).flatMap Outgoing.bytes ++ taken := by
    cases hon : (s.job t).on with
    | some c' =>
      obtain rfl := hmeets.2 c' hon
      exact (hs.begun t c' hin hon).2
    | none =>
      refine ⟨[], (hs.unsent t hin hon).symm, ?_⟩
      rw [List.append_nil]
      refine hs.whole c hmeets.1 fun t' ht' hc => ?_
      obtain rfl := sending_unique hs.exclusive hin ht'
      simp [hon] at hc
  have hwire' : ∀ c', c' ≠ c → (s.take t n b).wire c' = s.wire c' := by
    intro c' hc'
    simp [WireState.take, hfd, Function.update_of_ne hc']
  have hnew : (s.take t n b).wire c = (s.sent c).flatMap Outgoing.bytes ++
      (taken ++ (s.job t).rest.take n) := by
    simp [WireState.take, hfd, hwire]
  refine ⟨hx, ?_, ?_, ?_, ?_⟩
  · intro t' ht' hon
    obtain rfl := (honly t').mp ht'
    simp [WireState.take, hfd] at hon
  · intro t' c' ht' hon
    obtain rfl := (honly t').mp ht'
    obtain rfl : c = c' := by simpa [WireState.take, hfd] using hon
    refine ⟨hmeets.1, _, ?_, hnew⟩
    simp only [WireState.take, Function.update_self]
    rw [List.append_assoc, List.take_append_drop, hbytes]
  · intro c' hc'
    have hne : c' ≠ c := by
      rintro rfl
      simp [WireState.take, hmeets.1] at hc'
    rw [hwire' c' hne]
    exact hs.torn c' hc'
  · intro c' hc' hother
    by_cases hne : c' = c
    · subst hne
      exact absurd (by simp [WireState.take, hfd]) (hother t ((honly t).mpr rfl))
    · rw [hwire' c' hne]
      refine hs.whole c' hc' fun t' ht' hon => ?_
      obtain rfl := sending_unique hs.exclusive hin ht'
      exact hne (hmeets.2 c' hon)

theorem WireInv.giveUp (hs : WireInv s) (hx : Exclusive b) (hin : s.sending t = true)
    (hnone : ∀ t', (b.threads t').pc.sendKind.isSome = false) : WireInv (s.giveUp t b) := by
  have hout : ∀ t', (s.giveUp t b).sending t' = false := hnone
  refine ⟨hx, ?_, ?_, ?_, ?_⟩
  · intro t' ht'
    simp [hout t'] at ht'
  · intro t' c ht'
    simp [hout t'] at ht'
  · intro c hc
    cases hon : (s.job t).on with
    | none => exact hs.torn c (by simpa [WireState.giveUp, hon] using hc)
    | some c' =>
      by_cases hne : c = c'
      · subst hne
        exact hs.framed_of_begun hin hon
      · exact hs.torn c (by simpa [WireState.giveUp, hon, Function.update_of_ne hne] using hc)
  · intro c hc _
    cases hon : (s.job t).on with
    | none =>
      refine hs.whole c (by simpa [WireState.giveUp, hon] using hc) fun t' ht' => ?_
      obtain rfl := sending_unique hs.exclusive hin ht'
      simp [hon]
    | some c' =>
      have hne : c ≠ c' := by
        rintro rfl
        simp [WireState.giveUp, hon] at hc
      refine hs.whole c (by simpa [WireState.giveUp, hon, Function.update_of_ne hne] using hc)
        fun t' ht' => ?_
      obtain rfl := sending_unique hs.exclusive hin ht'
      rw [hon, ne_eq, Option.some.injEq]
      exact Ne.symm hne

/-- A packet that has no byte left has gone out whole on the connection that took the last one. -/
theorem WireInv.complete (hs : WireInv s) (hx : Exclusive b) (hin : s.sending t = true)
    (hrest : (s.job t).rest = []) (hnone : ∀ t', (b.threads t').pc.sendKind.isSome = false) :
    WireInv (s.complete t b) := by
  have hout : ∀ t', (s.complete t b).sending t' = false := hnone
  obtain ⟨c, hon⟩ : ∃ c, (s.job t).on = some c := by
    cases hon : (s.job t).on with
    | some c => exact ⟨c, rfl⟩
    | none => exact absurd (hs.unsent t hin hon ▸ hrest) (Outgoing.bytes_ne_nil _)
  obtain ⟨htorn, taken, hbytes, hwire⟩ := hs.begun t c hin hon
  have hwhole : taken = (s.job t).packet.bytes := by rw [hbytes, hrest, List.append_nil]
  have hsent : ∀ c', c' ≠ c → (s.complete t b).sent c' = s.sent c' := by
    intro c' hc'
    simp [WireState.complete, hon, Function.update_of_ne hc']
  refine ⟨hx, ?_, ?_, ?_, ?_⟩
  · intro t' ht'
    simp [hout t'] at ht'
  · intro t' c' ht'
    simp [hout t'] at ht'
  · intro c' hc'
    have hne : c' ≠ c := by
      rintro rfl
      exact absurd hc' (by simp [WireState.complete, htorn])
    rw [hsent c' hne]
    exact hs.torn c' hc'
  · intro c' hc' _
    by_cases hne : c' = c
    · subst hne
      simp only [WireState.complete, hon, Function.update_self, List.flatMap_append,
        List.flatMap_singleton]
      rw [hwire, hwhole]
    · rw [hsent c' hne]
      refine hs.whole c' hc' fun t' ht' => ?_
      obtain rfl := sending_unique hs.exclusive hin ht'
      rw [hon, ne_eq, Option.some.injEq]
      exact Ne.symm hne

theorem WireInv.step (hs : WireInv s) (hm : TakesInOrder ssl s l)
    (h : wireStep cfg ssl s l = some s') : WireInv s' := by
  have hx : Exclusive s'.base := exclusive_wireStep hs.exclusive h
  cases wireStep_cases hs.exclusive h with
  | same hsame =>
    exact ⟨hx, fun t ht => hs.unsent t ((hsame t).mp ht),
      fun t c ht => hs.begun t c ((hsame t).mp ht), hs.torn,
      fun c hc hother => hs.whole c hc fun t ht => hother t ((hsame t).mpr ht)⟩
  | start hno honly => exact hs.start hx hno honly
  | take hin hfd hsend honly => exact hs.take hx hin hfd (hm _ _ hsend hfd) honly
  | giveUp hin hnone => exact hs.giveUp hx hin hnone
  | complete hin hrest hnone => exact hs.complete hx hin hrest hnone

end MqttNativeSocket
