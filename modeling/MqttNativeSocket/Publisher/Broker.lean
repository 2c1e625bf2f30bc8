import MqttNativeSocket.Protocol.Packet
import MqttNativeSocket.Publisher.PacketIds

/-! # The publisher and its broker

The calls of a publisher together with the connection they send on and the broker
at its other end, which takes PUBLISH packets in order and answers those at QoS 1.
An error of `sendAll` is the end of what the socket takes. A connection that ends
takes what is under way with it; a PUBLISH is never sent again.
-/

namespace MqttNativeSocket

/-- A PUBLISH of call `call`, with what the broker reads of it. -/
structure PublishPacket where
  call : ℕ
  id : UInt16
  qos : UInt8
  deriving DecidableEq, Repr

/-- The packet that call `c` sends. -/
def PublishCall.packet (k : PublishCall) (c : ℕ) : PublishPacket := ⟨c, k.id, qosBits k.req.qos⟩

/--
A PUBACK on its way is kept as the PUBLISH it answers. `received` lists what the broker has taken,
and `sent` only records the calls whose `sendAll` succeeded.
-/
structure UplinkState where
  client : PublishState := .initial
  writable : Bool := false
  toBroker : List PublishPacket := []
  toClient : List PublishPacket := []
  received : List ℕ := []
  sent : List ℕ := []

inductive UplinkLabel where
  | call (l : PublishLabel)
  /-- The broker takes the next PUBLISH. -/
  | deliver
  /-- The receive loop handles the next PUBACK. -/
  | receive
  | open
  | close
  deriving DecidableEq, Repr

namespace UplinkState

/-- PUBACKs and the end of a connection come from the other side. -/
def allows (s : UplinkState) : PublishLabel → Bool
  | .send _ ok => !ok || s.writable
  | .puback _ _ => false
  | .loseConnection => false
  | _ => true

/-- What a step of a call does to the connection. -/
def transmit (s : UplinkState) : PublishLabel → UplinkState
  | .send c true =>
    { s with toBroker := s.toBroker ++ [(s.client.calls c).packet c], sent := s.sent ++ [c] }
  | .send _ false => { s with writable := false }
  | _ => s

/-- The connection ends, and perhaps another takes its place. -/
def replace (s : UplinkState) (writable : Bool) : UplinkState :=
  { s with
    client := { s.client with outstanding := [] }
    writable := writable
    toBroker := []
    toClient := [] }

def deliver (s : UplinkState) (p : PublishPacket) (rest : List PublishPacket) : UplinkState :=
  { s with
    toBroker := rest
    received := s.received ++ [p.call]
    toClient := s.toClient ++ if p.qos = 1 then [p] else [] }

def receive (s : UplinkState) (p : PublishPacket) (rest : List PublishPacket) : UplinkState :=
  { s with client := s.client.handlePuback (some p.call) p.id, toClient := rest }

end UplinkState

def uplinkStep (offlineBuffering : Bool) (s : UplinkState) : UplinkLabel → Option UplinkState
  | .call l =>
    if s.allows l then
      (publishStep offlineBuffering s.client l).map fun client =>
        { s.transmit l with client := client }
    else none
  | .deliver =>
    match s.toBroker with
    | p :: rest => some (s.deliver p rest)
    | [] => none
  | .receive =>
    match s.toClient with
    | p :: rest => some (s.receive p rest)
    | [] => none
  | .open => some (s.replace true)
  | .close => some (s.replace false)

/-- What each event asks of the state, and what it makes of it. -/
inductive UplinkStep (offlineBuffering : Bool) (s : UplinkState) :
    UplinkLabel → UplinkState → Prop where

  | send (c : ℕ) (client : PublishState) :
      publishStep offlineBuffering s.client (.send c true) = some client →
      UplinkStep offlineBuffering s (.call (.send c true)) { s with
        client := client
        toBroker := s.toBroker ++ [(s.client.calls c).packet c]
        sent := s.sent ++ [c] }

  | call (l : PublishLabel) (client : PublishState) (writable : Bool) :
      publishStep offlineBuffering s.client l = some client → s.allows l = true →
      (∀ c, l ≠ .send c true) →
      UplinkStep offlineBuffering s (.call l) { s with client := client, writable := writable }

  | deliver (p : PublishPacket) (rest : List PublishPacket) : s.toBroker = p :: rest →
      UplinkStep offlineBuffering s .deliver (s.deliver p rest)

  | receive (p : PublishPacket) (rest : List PublishPacket) : s.toClient = p :: rest →
      UplinkStep offlineBuffering s .receive (s.receive p rest)

  | replace (l : UplinkLabel) (writable : Bool) :
      UplinkStep offlineBuffering s l (s.replace writable)

variable {s s' : UplinkState} {offlineBuffering : Bool}

theorem UplinkStep.of_eq {l : UplinkLabel} (h : uplinkStep offlineBuffering s l = some s') :
    UplinkStep offlineBuffering s l s' := by
  cases l with
  | call l =>
    simp only [uplinkStep, Option.ite_none_right_eq_some, Option.map_eq_some_iff] at h
    obtain ⟨hallows, client, hstep, rfl⟩ := h
    by_cases hsend : ∃ c, l = .send c true
    · obtain ⟨c, rfl⟩ := hsend
      exact .send c client hstep
    · have hne : ∀ c, l ≠ .send c true := fun c hl => hsend ⟨c, hl⟩
      have htransmit : ∃ writable, s.transmit l = { s with writable := writable } := by
        cases l with
        | send c ok =>
          cases ok with
          | true => exact (hne c rfl).elim
          | false => exact ⟨false, rfl⟩
        | _ => exact ⟨s.writable, rfl⟩
      obtain ⟨writable, hw⟩ := htransmit
      rw [hw]
      exact .call l client writable hstep hallows hne
  | deliver =>
    simp only [uplinkStep] at h
    split at h
    · next p rest hup =>
      obtain rfl := Option.some.inj h
      exact .deliver p rest hup
    · contradiction
  | receive =>
    simp only [uplinkStep] at h
    split at h
    · next p rest hdown =>
      obtain rfl := Option.some.inj h
      exact .receive p rest hdown
    · contradiction
  | «open» =>
    obtain rfl := Option.some.inj h
    exact .replace _ true
  | close =>
    obtain rfl := Option.some.inj h
    exact .replace _ false

/-! ## What a call of the client changes -/

section Calls

variable {t t' : PublishState} {l : PublishLabel} {c : ℕ}

/-- A call past its send keeps its request and its identifier, and stays past it. -/
theorem publishStep_past_send (h : publishStep offlineBuffering t l = some t')
    (hstage : 6 < (t.calls c).pc.stage) :
    (t'.calls c).req = (t.calls c).req ∧ (t'.calls c).id = (t.calls c).id ∧
      6 < (t'.calls c).pc.stage := by
  by_cases hc : l.call = some c
  · have hlate : ∀ pc, (t.calls c).pc = pc → 6 < pc.stage := fun pc hpc => hpc ▸ hstage
    cases PublishStep.of_eq h with
    | begin c req hpc =>
      obtain rfl := Option.some.inj hc
      exact absurd (hlate _ hpc) (by decide)
    | check c connected hpc =>
      obtain rfl := Option.some.inj hc
      exact absurd (hlate _ hpc) (by decide)
    | fetch c hpc =>
      obtain rfl := Option.some.inj hc
      exact absurd (hlate _ hpc) (by decide)
    | refetch c hpc =>
      obtain rfl := Option.some.inj hc
      exact absurd (hlate _ hpc) (by decide)
    | register c hpc =>
      obtain rfl := Option.some.inj hc
      exact absurd (hlate _ hpc) (by decide)
    | spawn c stays hpc =>
      obtain rfl := Option.some.inj hc
      exact absurd (hlate _ hpc) (by decide)
    | send c ok hpc =>
      obtain rfl := Option.some.inj hc
      exact absurd (hlate _ hpc) (by decide)
    | erase c ec hpc =>
      obtain rfl := Option.some.inj hc
      simp [PublishState.advance, PublishPc.stage]
    | report c hpc =>
      obtain rfl := Option.some.inj hc
      simp [PublishState.advance, PublishPc.stage]
    | timeout c hpc hp =>
      obtain rfl := Option.some.inj hc
      simp [PublishState.advance, PublishPc.stage]
    | get c r hpc hget =>
      obtain rfl := Option.some.inj hc
      cases r <;> simp [PublishState.advance, PublishPc.stage, PublishPc.afterGet]
    | deliver c r hthread hget =>
      obtain rfl := Option.some.inj hc
      simpa using hstage
    | puback answered id => contradiction
    | loseConnection => contradiction
    | failAllPending => contradiction
  · rw [publishStep_calls_of_ne h hc]
    exact ⟨rfl, rfl, hstage⟩

theorem Promise.drop_eq_fulfilled {p : Promise} {ec : ErrorCode} (h : p.drop = .fulfilled ec) :
    p = .fulfilled ec := by
  cases p <;> simp_all [Promise.drop]

theorem resolve_drop_eq_fulfilled {entries : UInt16 → Option ℕ} {promises : ℕ → Promise}
    {id : UInt16} {ec : ErrorCode}
    (h : Pending.resolve entries promises id Promise.drop c = .fulfilled ec) :
    promises c = .fulfilled ec := by
  by_cases hc : entries id = some c
  · rw [Pending.resolve_owner hc] at h
    exact Promise.drop_eq_fulfilled h
  · rwa [Pending.resolve_of_ne hc] at h

/-- Nothing but a PUBACK fulfils a promise with Ok. -/
theorem publishStep_promises_ok (h : publishStep offlineBuffering t l = some t')
    (hl : ∀ answered id, l ≠ .puback answered id) (hok : t'.promises c = .fulfilled .ok) :
    t.promises c = .fulfilled .ok := by
  cases PublishStep.of_eq h with
  | register c' hpc =>
    by_cases hc : c = c'
    · subst hc
      have hpending : ((t.register c).setCall c { t.calls c with
          pc := if (t.calls c).req.sync then .send else .spawn }).promises c = .pending :=
        Function.update_self ..
      rw [hpending] at hok
      contradiction
    · exact resolve_drop_eq_fulfilled ((Function.update_of_ne hc ..).symm.trans hok)
  | erase c' ec hpc => exact resolve_drop_eq_fulfilled hok
  | puback answered id => exact (hl answered id rfl).elim
  | failAllPending =>
    by_cases hc : t.pendingPubacks (t.calls c).id = some c
    · exact absurd ((if_pos hc).symm.trans hok) (by simp)
    · exact (if_neg hc).symm.trans hok
  | _ => exact hok

theorem Promise.get_ok {p : Promise} (h : p.get = some (some .ok)) : p = .fulfilled .ok := by
  cases p <;> simp_all [Promise.get]

/--
The call has said that its message is published: `publish` above QoS 0 by returning Ok,
`publishAsync` by its callback.
-/
def PublishCall.Succeeded (k : PublishCall) : Prop :=
  k.pc = .done .ok ∧ k.req.sync = true ∧ 0 < k.req.qos ∨ .ok ∈ k.reported

theorem PublishCall.Succeeded.of_moved {k k' : PublishCall} (h : k'.Succeeded)
    (hpc : k'.pc ≠ .done .ok) (hreported : k'.reported = k.reported) : k.Succeeded := by
  rcases h with ⟨hdone, -⟩ | hok
  · exact (hpc hdone).elim
  · exact .inr (hreported ▸ hok)

theorem PublishRequest.afterSend_ne (r : PublishRequest) (ok : Bool) :
    r.afterSend ok ≠ .erase .ok ∧ (r.sync = true → 0 < r.qos → r.afterSend ok ≠ .done .ok) := by
  constructor
  · rcases r.afterSend_cases ok with h | ⟨h, -⟩ | ⟨-, h | ⟨-, h | h⟩⟩ <;> simp [h]
  · intro hsync hq
    cases ok <;> simp [PublishRequest.afterSend, hsync, hq]

/-- It says so when its promise does. -/
theorem publishStep_succeeded (h : publishStep offlineBuffering t l = some t')
    (herase : (t.calls c).pc ≠ .erase .ok) :
    (t'.calls c).pc ≠ .erase .ok ∧
      ((t'.calls c).Succeeded → (t.calls c).Succeeded ∨ t.promises c = .fulfilled .ok) := by
  by_cases hc : l.call = some c
  · cases PublishStep.of_eq h with
    | begin c req hpc =>
      obtain rfl := Option.some.inj hc
      simp [PublishCall.Succeeded]
    | check c connected hpc =>
      obtain rfl := Option.some.inj hc
      rw [PublishState.setCall_self]
      rcases (t.calls c).req.afterCheck_cases offlineBuffering connected
        with ⟨h, -⟩ | ⟨h, -⟩ | h <;>
        exact ⟨by simp [h], fun hok => .inl (hok.of_moved (by simp [h]) rfl)⟩
    | fetch c hpc =>
      obtain rfl := Option.some.inj hc
      rw [PublishState.fetch, PublishState.setCall_self]
      rcases (t.calls c).req.afterAlloc_cases with ⟨h, -⟩ | ⟨h, -⟩ <;>
        by_cases hz : t.nextPacketId = 0 <;>
          exact ⟨by simp [h, hz], fun hok => .inl (hok.of_moved (by simp [h, hz]) rfl)⟩
    | refetch c hpc =>
      obtain rfl := Option.some.inj hc
      rw [PublishState.fetch, PublishState.setCall_self]
      rcases (t.calls c).req.afterAlloc_cases with ⟨h, -⟩ | ⟨h, -⟩ <;>
        exact ⟨by simp [h], fun hok => .inl (hok.of_moved (by simp [h]) rfl)⟩
    | register c hpc =>
      obtain rfl := Option.some.inj hc
      rw [PublishState.setCall_self]
      by_cases hs : (t.calls c).req.sync <;>
        exact ⟨by simp [hs], fun hok => .inl (hok.of_moved (by simp [hs]) rfl)⟩
    | spawn c stays hpc =>
      obtain rfl := Option.some.inj hc
      rw [PublishState.setCall_self]
      exact ⟨by simp, fun hok => .inl (hok.of_moved (by simp) rfl)⟩
    | send c ok hpc =>
      obtain rfl := Option.some.inj hc
      rw [PublishState.advance, PublishState.setCall_self]
      obtain ⟨hne, hdone⟩ := (t.calls c).req.afterSend_ne ok
      refine ⟨hne, ?_⟩
      rintro (⟨hpc', hsync, hq⟩ | hok)
      · exact (hdone hsync hq hpc').elim
      · exact .inl (.inr hok)
    | erase c ec hpc =>
      obtain rfl := Option.some.inj hc
      rw [PublishState.advance, PublishState.setCall_self]
      refine ⟨by simp, fun hok => .inl (hok.of_moved ?_ rfl)⟩
      rw [hpc] at herase
      simpa using herase
    | report c hpc =>
      obtain rfl := Option.some.inj hc
      rw [PublishState.advance, PublishState.setCall_self]
      refine ⟨by simp, ?_⟩
      rintro (⟨hpc', -⟩ | hok)
      · simp at hpc'
      · refine .inl (.inr ?_)
        by_cases hh : (t.calls c).holdsCallback <;> simpa [hh] using hok
    | timeout c hpc hp =>
      obtain rfl := Option.some.inj hc
      rw [PublishState.advance, PublishState.setCall_self]
      exact ⟨by simp, fun hok => .inl (hok.of_moved (by simp) rfl)⟩
    | get c r hpc hget =>
      obtain rfl := Option.some.inj hc
      rw [PublishState.advance, PublishState.setCall_self]
      refine ⟨by cases r <;> simp [PublishPc.afterGet], ?_⟩
      rintro (⟨hpc', -⟩ | hok)
      · refine .inr (Promise.get_ok (hget.trans ?_))
        cases r <;> simp_all [PublishPc.afterGet]
      · exact .inl (.inr hok)
    | deliver c r hthread hget =>
      obtain rfl := Option.some.inj hc
      rw [PublishState.setCall_self]
      refine ⟨herase, ?_⟩
      rintro (hdone | hok)
      · exact .inl (.inl hdone)
      · rcases List.mem_append.mp hok with hok | hok
        · exact .inl (.inr hok)
        · rw [Option.mem_toList.mp hok] at hget
          exact .inr (Promise.get_ok hget)
    | puback answered id => contradiction
    | loseConnection => contradiction
    | failAllPending => contradiction
  · rw [publishStep_calls_of_ne h hc]
    exact ⟨herase, .inl⟩

/-- A call keeps its request once it has begun. -/
theorem publishStep_req {P : PublishRequest → Prop} (hP : ∀ c, P (t.calls c).req)
    (h : publishStep offlineBuffering t l = some t') (hbegin : ∀ c req, l = .begin c req → P req)
    (c : ℕ) : P (t'.calls c).req := by
  by_cases hc : l.call = some c
  · cases PublishStep.of_eq h with
    | begin c req hpc =>
      obtain rfl := Option.some.inj hc
      rw [PublishState.setCall_self]
      exact hbegin c req rfl
    | puback answered id => contradiction
    | loseConnection => contradiction
    | failAllPending => contradiction
    | _ =>
      obtain rfl := Option.some.inj hc
      simpa [PublishState.fetch, PublishState.advance] using hP _
  · rw [publishStep_calls_of_ne h hc]
    exact hP c

theorem publishStep_outstanding (h : publishStep offlineBuffering t l = some t')
    (hsend : ∀ c, l ≠ .send c true) (hpuback : ∀ answered id, l ≠ .puback answered id)
    (hlose : l ≠ .loseConnection) : t'.outstanding = t.outstanding := by
  cases PublishStep.of_eq h with
  | send c ok hpc =>
    cases ok with
    | true => exact (hsend c rfl).elim
    | false => rfl
  | puback answered id => exact (hpuback answered id rfl).elim
  | loseConnection => exact (hlose rfl).elim
  | _ => rfl

end Calls

/-! ## The invariant -/

namespace UplinkState

/-- The broker has the message of call `c`, as one at QoS 1. -/
def Confirmed (s : UplinkState) (c : ℕ) : Prop :=
  c ∈ s.received ∧ qosBits (s.client.calls c).req.qos = 1

/-- A packet at QoS 1 on the connection waits for its PUBACK under its identifier. -/
def Unanswered (s : UplinkState) (p : PublishPacket) : Prop :=
  p.call ∈ s.client.outstanding ∧ p = (s.client.calls p.call).packet p.call

end UplinkState

/--
An identifier in use is less than one round of the counter old, and no QoS is negative: a PUBLISH
with a negative one may carry QoS bits, but no identifier.
-/
def UplinkSound (s : UplinkState) : UplinkLabel → Prop
  | .call l => FewFetches s.client l ∧ ∀ c req, l = .begin c req → 0 ≤ req.qos
  | _ => True

structure UplinkInv (s : UplinkState) : Prop where
  client : PublishInv s.client
  valid : ∀ c, 0 ≤ (s.client.calls c).req.qos
  started : ∀ c ∈ s.sent, 6 < (s.client.calls c).pc.stage
  once : s.sent.Nodup
  inOrder : (s.received ++ s.toBroker.map PublishPacket.call).Sublist s.sent
  answers : (s.toClient.map PublishPacket.call).Sublist s.received
  published : ∀ p ∈ s.toBroker, p.qos = 1 → s.Unanswered p
  acknowledged : ∀ p ∈ s.toClient, p.qos = 1 ∧ s.Unanswered p
  fulfilled : ∀ c, s.client.promises c = .fulfilled .ok → s.Confirmed c
  erasing : ∀ c, (s.client.calls c).pc ≠ .erase .ok
  succeeded : ∀ c, (s.client.calls c).Succeeded → s.Confirmed c

namespace UplinkInv

theorem initial : UplinkInv {} where
  client := .initial
  valid := by simp [PublishState.initial, PublishRequest.qos]
  started := by simp
  once := List.nodup_nil
  inOrder := List.Sublist.refl _
  answers := List.Sublist.refl _
  published := by simp
  acknowledged := by simp
  fulfilled := by simp [PublishState.initial]
  erasing := by simp [PublishState.initial]
  succeeded := by simp [PublishState.initial, PublishCall.Succeeded]

theorem sent_of_received (hs : UplinkInv s) {c : ℕ} (h : c ∈ s.received) : c ∈ s.sent :=
  hs.inOrder.subset (List.mem_append_left _ h)

/-- What the broker has, and has got only once, is not on its way to it. -/
theorem received_disjoint (hs : UplinkInv s) {c : ℕ} (h : c ∈ s.received) :
    ∀ p ∈ s.toBroker, p.call ≠ c := by
  rintro p hp rfl
  have hnodup := (hs.inOrder.nodup hs.once)
  exact (List.nodup_append.mp hnodup).2.2 _ h _ (List.mem_map_of_mem hp) rfl

/-- The calls past their send are as they were, and a success is backed by the broker. -/
theorem confirmed_mono (hs : UplinkInv s) {c : ℕ} (h : s.Confirmed c)
    (hcalls : ∀ c ∈ s.sent, (s'.client.calls c).req = (s.client.calls c).req)
    (hreceived : s.received ⊆ s'.received) : s'.Confirmed c :=
  ⟨hreceived h.1, by rw [hcalls c (hs.sent_of_received h.1)]; exact h.2⟩

/-- A step of a call, with what it hands to the socket. -/
theorem call (hs : UplinkInv s) {l : PublishLabel} {client : PublishState} {writable : Bool}
    (hsound : UplinkSound s (.call l)) (h : publishStep offlineBuffering s.client l = some client)
    (hpuback : ∀ answered id, l ≠ .puback answered id)
    {up : List PublishPacket} {sent : List ℕ}
    (hout : ∀ c ∈ s.client.outstanding, c ∈ client.outstanding)
    (hstarted : ∀ c ∈ sent, 6 < (client.calls c).pc.stage) (honce : sent.Nodup)
    (hinOrder : (s.received ++ up.map PublishPacket.call).Sublist sent)
    (hup : ∀ p ∈ up, p ∈ s.toBroker ∨
      (p.qos = 1 → p.call ∈ client.outstanding ∧ p = (client.calls p.call).packet p.call)) :
    UplinkInv { s with client := client, writable := writable, toBroker := up, sent := sent } := by
  have hkept : ∀ c ∈ s.sent, (client.calls c).req = (s.client.calls c).req ∧
      (client.calls c).id = (s.client.calls c).id := by
    intro c hc
    obtain ⟨hreq, hid, -⟩ := publishStep_past_send h (hs.started c hc)
    exact ⟨hreq, hid⟩
  have hconfirmed : ∀ c, s.Confirmed c → UplinkState.Confirmed
      { s with client := client, writable := writable, toBroker := up, sent := sent } c :=
    fun c hc => hs.confirmed_mono hc (fun c hc => (hkept c hc).1) (List.Subset.refl _)
  have hunanswered : ∀ p, p.call ∈ s.sent → s.Unanswered p → UplinkState.Unanswered
      { s with client := client, writable := writable, toBroker := up, sent := sent } p := by
    rintro p hp ⟨hcall, hpacket⟩
    obtain ⟨hreq, hid⟩ := hkept p.call hp
    refine ⟨hout _ hcall, hpacket.trans ?_⟩
    simp only [PublishCall.packet, hreq, hid]
  constructor
  · exact hs.client.step hsound.1 h
  · exact publishStep_req hs.valid h hsound.2
  · exact hstarted
  · exact honce
  · exact hinOrder
  · exact hs.answers
  · intro p hp hq
    rcases hup p hp with hold | hnew
    · refine hunanswered p (hs.inOrder.subset ?_) (hs.published p hold hq)
      exact List.mem_append_right _ (List.mem_map_of_mem hold)
    · exact hnew hq
  · intro p hp
    obtain ⟨hq, hold⟩ := hs.acknowledged p hp
    refine ⟨hq, hunanswered p (hs.sent_of_received ?_) hold⟩
    exact hs.answers.subset (List.mem_map_of_mem hp)
  · intro c hok
    exact hconfirmed c (hs.fulfilled c (publishStep_promises_ok h hpuback hok))
  · intro c
    exact (publishStep_succeeded h (hs.erasing c)).1
  · intro c hok
    rcases (publishStep_succeeded h (hs.erasing c)).2 hok with hold | hpromise
    · exact hconfirmed c (hs.succeeded c hold)
    · exact hconfirmed c (hs.fulfilled c hpromise)

theorem qos_pos_of_qosBits {q : ℤ} (hq : 0 ≤ q) (h : qosBits q = 1) : 0 < q := by
  rcases hq.lt_or_eq with hlt | rfl
  · exact hlt
  · simp [qosBits] at h

theorem send (hs : UplinkInv s) {c : ℕ} {client : PublishState}
    (hsound : UplinkSound s (.call (.send c true)))
    (h : publishStep offlineBuffering s.client (.send c true) = some client) :
    UplinkInv { s with
      client := client
      toBroker := s.toBroker ++ [(s.client.calls c).packet c]
      sent := s.sent ++ [c] } := by
  have hpc : (s.client.calls c).pc = .send := by
    cases PublishStep.of_eq h with
    | send _ _ hpc => exact hpc
  have hnew : c ∉ s.sent := fun hc => absurd (hs.started c hc) (by rw [hpc]; decide)
  obtain ⟨hstage, hcall, hout⟩ : 6 < (client.calls c).pc.stage ∧
      (client.calls c).packet c = (s.client.calls c).packet c ∧
      client.outstanding = if 0 < (s.client.calls c).req.qos then c :: s.client.outstanding
        else s.client.outstanding := by
    cases PublishStep.of_eq h with
    | send _ _ hpc =>
      simp [PublishState.advance, PublishRequest.stage_afterSend, PublishCall.packet]
  refine hs.call hsound h (by simp) (fun c' hc' => ?_) ?_ ?_ ?_ ?_
  · rw [hout]
    split
    · exact List.mem_cons_of_mem _ hc'
    · exact hc'
  · intro c' hc'
    rcases List.mem_append.mp hc' with hc' | hc'
    · exact (publishStep_past_send h (hs.started c' hc')).2.2
    · rw [List.mem_singleton.mp hc']
      exact hstage
  · exact List.nodup_append.mpr ⟨hs.once, List.nodup_singleton c, by
      rintro a ha b hb rfl
      exact hnew (List.mem_singleton.mp hb ▸ ha)⟩
  · rw [List.map_append, ← List.append_assoc]
    exact hs.inOrder.append (List.Sublist.refl _)
  · intro p hp
    rcases List.mem_append.mp hp with hp | hp
    · exact .inl hp
    · obtain rfl := List.mem_singleton.mp hp
      refine .inr fun hq => ⟨?_, hcall.symm⟩
      rw [hout, if_pos (qos_pos_of_qosBits (hs.valid c) hq)]
      exact List.mem_cons_self ..

theorem deliver (hs : UplinkInv s) {p : PublishPacket} {rest : List PublishPacket}
    (hup : s.toBroker = p :: rest) : UplinkInv (s.deliver p rest) := by
  have hmem : p ∈ s.toBroker := hup ▸ List.mem_cons_self ..
  have hconfirmed : ∀ c, s.Confirmed c → (s.deliver p rest).Confirmed c := fun c hc =>
    hs.confirmed_mono hc (fun _ _ => rfl) (List.subset_append_left ..)
  constructor
  · exact hs.client
  · exact hs.valid
  · exact hs.started
  · exact hs.once
  · have h := hs.inOrder
    rw [hup] at h
    simpa [UplinkState.deliver] using h
  · rw [UplinkState.deliver, List.map_append]
    by_cases hq : p.qos = 1
    · simpa [hq] using hs.answers.append (List.Sublist.refl [p.call])
    · simpa [hq] using hs.answers.trans (List.sublist_append_left ..)
  · exact fun q hq => hs.published q (hup ▸ List.mem_cons_of_mem _ hq)
  · intro q hq
    rcases List.mem_append.mp hq with hq | hq
    · exact hs.acknowledged q hq
    · split at hq
      · next hone =>
        obtain rfl := List.mem_singleton.mp hq
        exact ⟨hone, hs.published q hmem hone⟩
      · simp at hq
  · exact fun c hok => hconfirmed c (hs.fulfilled c hok)
  · exact hs.erasing
  · exact fun c hok => hconfirmed c (hs.succeeded c hok)

/-- The PUBACK completes the call whose PUBLISH it answers, or none. -/
theorem receive (hs : UplinkInv s) {p : PublishPacket} {rest : List PublishPacket}
    (hdown : s.toClient = p :: rest) : UplinkInv (s.receive p rest) := by
  obtain ⟨hq, hcall, hpacket⟩ := hs.acknowledged p (hdown ▸ List.mem_cons_self ..)
  have hanswers := hs.answers
  rw [hdown, List.map_cons] at hanswers
  have hreceived : p.call ∈ s.received := hanswers.subset (List.mem_cons_self ..)
  have hother : ∀ q, q.call ≠ p.call → s.Unanswered q → (s.receive p rest).Unanswered q := by
    rintro q hne ⟨hq, hqp⟩
    refine ⟨List.mem_filter.mpr ⟨hq, ?_⟩, hqp⟩
    simpa using hne
  have hnodup : ∀ q ∈ rest, q.call ≠ p.call := by
    intro q hq he
    have h := hanswers.nodup (hs.inOrder.nodup hs.once).of_append_left
    exact (List.nodup_cons.mp h).1 (he ▸ List.mem_map_of_mem hq)
  have hid : p.id = (s.client.calls p.call).id := congrArg PublishPacket.id hpacket
  have hpuback : publishStep false s.client (.puback (some p.call) p.id) =
      some (s.receive p rest).client := rfl
  have hfew : FewFetches s.client (.puback (some p.call) p.id) := trivial
  constructor
  · exact hs.client.step hfew hpuback
  · exact hs.valid
  · exact hs.started
  · exact hs.once
  · exact hs.inOrder
  · exact (List.sublist_cons_self ..).trans hanswers
  · exact fun q hq hone => hother q (hs.received_disjoint hreceived q hq) (hs.published q hq hone)
  · intro q hq
    obtain ⟨hone, hun⟩ := hs.acknowledged q (hdown ▸ List.mem_cons_of_mem _ hq)
    exact ⟨hone, hother q (hnodup q hq) hun⟩
  · intro c hok
    by_cases hown : s.client.pendingPubacks p.id = some c
    · obtain rfl := Option.some.inj
        (hs.client.ids.puback_answered hs.client.entries hown ⟨hcall, hid⟩)
      exact ⟨hreceived, (congrArg PublishPacket.qos hpacket).symm.trans hq⟩
    · refine hs.fulfilled c ?_
      change Pending.resolve s.client.pendingPubacks s.client.promises p.id
        (fun _ => .fulfilled .ok) c = .fulfilled .ok at hok
      rwa [Pending.resolve_of_ne hown] at hok
  · exact hs.erasing
  · exact hs.succeeded

theorem replace (hs : UplinkInv s) (writable : Bool) : UplinkInv (s.replace writable) where
  client := by
    have hlose : publishStep false s.client .loseConnection = some (s.replace writable).client :=
      rfl
    have hfew : FewFetches s.client .loseConnection := trivial
    exact hs.client.step hfew hlose
  valid := hs.valid
  started := hs.started
  once := hs.once
  inOrder := by
    simpa [UplinkState.replace] using (List.sublist_append_left ..).trans hs.inOrder
  answers := List.nil_sublist _
  published := by simp [UplinkState.replace]
  acknowledged := by simp [UplinkState.replace]
  fulfilled := hs.fulfilled
  erasing := hs.erasing
  succeeded := hs.succeeded

theorem step (hs : UplinkInv s) {l : UplinkLabel} (hsound : UplinkSound s l)
    (h : uplinkStep offlineBuffering s l = some s') : UplinkInv s' := by
  cases UplinkStep.of_eq h with
  | send c client hstep => exact hs.send hsound hstep
  | call l client writable hstep hallows hne =>
    have hpuback : ∀ answered id, l ≠ .puback answered id := by
      rintro answered id rfl
      simp [UplinkState.allows] at hallows
    have hlose : l ≠ .loseConnection := by
      rintro rfl
      simp [UplinkState.allows] at hallows
    have hout := publishStep_outstanding hstep hne hpuback hlose
    exact hs.call hsound hstep hpuback (fun c hc => hout ▸ hc)
      (fun c hc => (publishStep_past_send hstep (hs.started c hc)).2.2) hs.once hs.inOrder
      fun p hp => .inl hp
  | deliver p rest hup => exact hs.deliver hup
  | receive p rest hdown => exact hs.receive hdown
  | replace l writable => exact hs.replace writable

end UplinkInv

/-! ## Runs -/

end MqttNativeSocket
