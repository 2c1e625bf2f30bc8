import MqttNativeSocket.Subscriber.Identifiers

/-! # Client and broker agree on the filters

The table of a subscriber changes before the broker answers, and what goes wrong
afterwards is undone in some cases only. A filter is settled while the table has
what the broker is expected to hold, or while a call or `resubscribeAll` is still
about to bring the two together. The condition on a step says that whoever gives
up such a filter leaves it settled.
-/

namespace MqttNativeSocket

variable {κ : Type} {s s' : BrokerState κ} {c c' : ℕ} {t : Bytes}

/-- The points between the change of the table and the send. -/
def SubscribePc.unsent : SubscribePc → Bool
  | .check => true
  | .fetch => true
  | .refetch => true
  | .register => true
  | .send => true
  | _ => false

namespace BrokerState

/-- A `subscribe` that is going to take its filter out of the table again. -/
inductive Undoing (s : BrokerState κ) (c : ℕ) : Prop where

  /-- It waits, and its refusal is on the way. -/
  | refused : (s.client.calls c).pc = .wait →
      s.client.pendingSubacks (s.client.calls c).id = some c →
      .suback (s.client.calls c).id 0x80 ∈ s.toClient → Undoing s c

  | told (cause : FailureCause) : (s.client.calls c).pc = .wait →
      (s.client.calls c).req.afterGet (s.client.promises c) = some (.eraseTopic cause) →
      Undoing s c

  | eraseEntry (cause : FailureCause) : (s.client.calls c).pc = .eraseEntry cause →
      (s.client.calls c).req.undoes cause = true → Undoing s c

  | eraseTopic (cause : FailureCause) : (s.client.calls c).pc = .eraseTopic cause → Undoing s c

/-- A call that is going to bring table and broker together on its filter. -/
inductive Mends (s : BrokerState κ) (c : ℕ) (t : Bytes) : Prop where

  /-- It has yet to send what the table has. -/
  | send : (s.client.calls c).req.topic = t → (s.client.calls c).pc.unsent = true →
      ((s.client.calls c).req.subscribes = true ↔ t ∈ s.client.subscriptions) → Mends s c t

  | undo : (s.client.calls c).req.topic = t → t ∈ s.client.subscriptions → s.Undoing c →
      Mends s c t

/-- The filters the broker will hold if it refuses nothing that is on its way. -/
def expected (s : BrokerState κ) : Finset Bytes :=
  Replica.expected s.filters (s.toBroker.map BrokerRequest.change)

/-- `resubscribeAll` has yet to come to the filter, if the table keeps it. -/
def Resubscribes (s : BrokerState κ) (t : Bytes) : Prop :=
  match s.connect with
  | .idle => s.state ≠ .connected
  | .handshake => True
  | .table => True
  | .resubscribing todo => t ∈ todo

def Agrees (s : BrokerState κ) (t : Bytes) : Prop :=
  t ∈ s.client.subscriptions ↔ t ∈ s.expected

/-- Table and broker agree on a filter, or are going to. -/
def Settled (s : BrokerState κ) (t : Bytes) : Prop :=
  s.Agrees t ∨ (t ∈ s.client.subscriptions ∧ s.Resubscribes t) ∨ ∃ c, s.Mends c t

/-- They agree, or are going to without call `c`. -/
def SettledWithout (s : BrokerState κ) (c : ℕ) (t : Bytes) : Prop :=
  s.Agrees t ∨ (t ∈ s.client.subscriptions ∧ s.Resubscribes t) ∨ ∃ c' ≠ c, s.Mends c' t

/-- What is asked of a step of a call, whose filter is `t`. -/
def CallKeeps (s : BrokerState κ) (c : ℕ) (t : Bytes) : SubscribeLabel κ → Prop
  -- a packet that goes out fits the table, or another one is to follow
  | .send _ none => s.session = true →
      ((s.client.calls c).req.subscribes = true ↔ t ∈ s.client.subscriptions) ∨
        (t ∈ s.client.subscriptions ∧ s.Resubscribes t) ∨ ∃ c' ≠ c, s.Mends c' t
  -- an `unsubscribe` that sends nothing, as the send fails or the client is not connected
  | .send _ (some _) => (s.client.calls c).req.subscribes = false → s.SettledWithout c t
  | .check _ false => (s.client.calls c).req.subscribes = false → s.SettledWithout c t
  -- a `subscribe` that is refused does not time out
  | .timeout _ => (s.client.calls c).req.subscribes = true →
      .suback (s.client.calls c).id 0x80 ∈ s.toClient → s.SettledWithout c t
  -- the broker does not hold a filter that is taken out
  | .eraseTopic _ => t ∈ s.expected → ∃ c', (s.client.calls c').req.topic = t ∧
      (s.client.calls c').pc.unsent = true ∧ (s.client.calls c').req.subscribes = false
  | _ => True

/-- What is asked of the other steps. -/
def StepKeeps (s : BrokerState κ) : BrokerLabel κ → Prop
  | .call l => ∀ c, l.call = some c → s.CallKeeps c (s.client.calls c).req.topic l
  -- the broker refuses while the call waits
  | .handle rc => ∀ p rest, s.toBroker = p :: rest → p.refused rc = true →
      (∃ c, s.client.pendingSubacks p.id = some c ∧ (s.client.calls c).pc = .wait) ∨
        (p.topic ∈ s.client.subscriptions ↔
          p.topic ∈ Replica.expected s.filters (rest.map BrokerRequest.change)) ∨
        (p.topic ∈ s.client.subscriptions ∧ s.Resubscribes p.topic) ∨ ∃ c, s.Mends c p.topic
  | .resend topic ok => ok = false → topic ∈ s.expected ∨ ∃ c, s.Mends c topic
  | _ => True

/-- The condition on a step. -/
def KeepsFilters (s : BrokerState κ) (l : BrokerLabel κ) : Prop := s.DrawsFresh l ∧ s.StepKeeps l

/-- Nothing is under way. -/
structure Quiet (s : BrokerState κ) : Prop where
  connected : s.state = .connected
  idle : s.connect = .idle
  calls : ∀ c, (s.client.calls c).pc = .unborn ∨ (s.client.calls c).pc.ended = true
  toBroker : s.toBroker = []
  toClient : s.toClient = []

end BrokerState

/-! ## Frames -/

namespace BrokerState

theorem Undoing.frame (h : s.Undoing c) (hcall : s'.client.calls c = s.client.calls c)
    (hprom : s'.client.promises c = s.client.promises c)
    (hentry : s.client.pendingSubacks (s.client.calls c).id = some c →
      s'.client.pendingSubacks (s.client.calls c).id = some c)
    (hdown : s.toClient ⊆ s'.toClient) : s'.Undoing c := by
  cases h with
  | refused hpc hown href =>
    refine .refused ?_ ?_ ?_ <;> rw [hcall]
    · exact hpc
    · exact hentry hown
    · exact hdown href
  | told cause hpc hget =>
    refine .told cause ?_ ?_ <;> rw [hcall]
    · exact hpc
    · rw [hprom]
      exact hget
  | eraseEntry cause hpc hundo =>
    refine .eraseEntry cause ?_ ?_ <;> rw [hcall]
    · exact hpc
    · exact hundo
  | eraseTopic cause hpc =>
    refine .eraseTopic cause ?_
    rw [hcall]
    exact hpc

theorem Mends.frame (h : s.Mends c t) (hcall : s'.client.calls c = s.client.calls c)
    (htable : t ∈ s'.client.subscriptions ↔ t ∈ s.client.subscriptions)
    (hundo : s.Undoing c → s'.Undoing c) : s'.Mends c t := by
  cases h with
  | send htopic hpc hsub =>
    refine .send ?_ ?_ ?_ <;> rw [hcall]
    · exact htopic
    · exact hpc
    · rw [htable]
      exact hsub
  | undo htopic hmem hun =>
    refine .undo ?_ (htable.mpr hmem) (hundo hun)
    rw [hcall]
    exact htopic

theorem Undoing.running (h : s.Undoing c) :
    (s.client.calls c).pc ≠ .unborn ∧ (s.client.calls c).pc.ended = false := by
  cases h with
  | refused hpc => rw [hpc]; exact ⟨by simp, rfl⟩
  | told _ hpc => rw [hpc]; exact ⟨by simp, rfl⟩
  | eraseEntry _ hpc => rw [hpc]; exact ⟨by simp, rfl⟩
  | eraseTopic _ hpc => rw [hpc]; exact ⟨by simp, rfl⟩

theorem Mends.running (h : s.Mends c t) :
    (s.client.calls c).pc ≠ .unborn ∧ (s.client.calls c).pc.ended = false := by
  cases h with
  | send _ hpc _ =>
    constructor
    · intro h
      simp [h, SubscribePc.unsent] at hpc
    · cases hc : (s.client.calls c).pc <;> first | rfl | simp [hc, SubscribePc.unsent] at hpc
  | undo _ _ hun => exact hun.running

/-- The filter is neither in the table nor at the broker now, or in both; parties may go. -/
theorem Settled.transfer (h : s.Settled t)
    (htable : t ∈ s'.client.subscriptions ↔ t ∈ s.client.subscriptions)
    (hexp : t ∈ s'.expected ↔ t ∈ s.expected)
    (hresub : t ∈ s.client.subscriptions → s.Resubscribes t → s'.Settled t)
    (hmends : ∀ c, s.Mends c t → s'.Settled t) : s'.Settled t := by
  rcases h with h | ⟨hmem, h⟩ | ⟨c, h⟩
  · refine .inl ?_
    rw [Agrees, htable, hexp]
    exact h
  · exact hresub hmem h
  · exact hmends c h

end BrokerState

structure BrokerInv (s : BrokerState κ) : Prop extends LinkFits s where
  settled : ∀ t, s.Settled t

/-! ## Calls -/

/-- The other calls go on mending their filters. -/
theorem IdsFit.mends_others (hs : IdsFit s) {l : SubscribeLabel κ} {client : SubscribeState κ}
    (hl : l.call = some c) (hstep : subscribeStep s.client l = some client) (hne : c' ≠ c)
    (htable : t ∈ client.subscriptions ↔ t ∈ s.client.subscriptions) (h : s.Mends c' t) :
    { s with client := client, toBroker := s.toBroker ++ s.sends l : BrokerState κ }.Mends
      c' t := by
  have hcall := subscribeStep_calls_of_ne hl hstep hne
  obtain ⟨hprom, hentry⟩ := hs.others hl hstep hne
  exact h.frame hcall htable fun hun =>
    hun.frame hcall hprom (hentry _) (List.Subset.refl _)

namespace BrokerInv

/-- A call that does not give its filter up. -/
theorem settled_call (hs : BrokerInv s) {l : SubscribeLabel κ} {client : SubscribeState κ}
    (hl : l.call = some c) (hstep : subscribeStep s.client l = some client)
    (hsends : s.sends l = []) (htable : t ∈ client.subscriptions ↔ t ∈ s.client.subscriptions)
    (hself : s.Mends c t → { s with client := client : BrokerState κ }.Settled t) :
    { s with client := client, toBroker := s.toBroker ++ s.sends l : BrokerState κ }.Settled t := by
  have hothers := fun c' (hne : c' ≠ c) => hs.ids.mends_others hl hstep hne htable
  rw [hsends, List.append_nil] at hothers ⊢
  refine (hs.settled t).transfer htable Iff.rfl (fun hmem h => .inr (.inl ⟨htable.mpr hmem, h⟩))
    fun c' h => ?_
  by_cases hne : c' = c
  · subst hne
    exact hself h
  · exact .inr (.inr ⟨c', hothers c' hne h⟩)

/-- A call that gives its filter up leaves it settled. -/
theorem settled_without (hs : BrokerInv s) {l : SubscribeLabel κ} {client : SubscribeState κ}
    (hl : l.call = some c) (hstep : subscribeStep s.client l = some client)
    (hsends : s.sends l = []) (htable : t ∈ client.subscriptions ↔ t ∈ s.client.subscriptions)
    (h : s.SettledWithout c t) : { s with client := client : BrokerState κ }.Settled t := by
  have hothers := fun c' (hne : c' ≠ c) => hs.ids.mends_others hl hstep hne htable
  rw [hsends, List.append_nil] at hothers
  rcases h with h | ⟨hmem, h⟩ | ⟨c', hne, h⟩
  · exact .inl (htable.trans h)
  · exact .inr (.inl ⟨htable.mpr hmem, h⟩)
  · exact .inr (.inr ⟨c', hothers c' hne h⟩)

/-- A client that is not connected will subscribe its table again. -/
theorem resubscribes (hs : BrokerInv s) (hstate : s.state ≠ .connected) (t : Bytes) :
    s.Resubscribes t := by
  unfold BrokerState.Resubscribes
  cases h : s.connect with
  | idle => exact hstate
  | handshake => trivial
  | table => trivial
  | resubscribing todo => exact absurd (hs.connected (.inr (by rw [h]; rfl))) hstate

end BrokerInv

namespace SubscribeRequest

theorem mem_apply_self (r : SubscribeRequest κ) {table : AList fun _ : Bytes => TopicSub κ} :
    r.topic ∈ r.apply table ↔ r.subscribes = true := by
  cases r with
  | subscribe topic qos callback => simp [apply, SubscribeRequest.topic, subscribes]
  | unsubscribe topic => simp [apply, SubscribeRequest.topic, subscribes, AList.mem_erase]

theorem mem_apply_of_ne (r : SubscribeRequest κ) {table : AList fun _ : Bytes => TopicSub κ}
    (h : t ≠ r.topic) : t ∈ r.apply table ↔ t ∈ table := by
  rw [← AList.lookup_isSome, ← AList.lookup_isSome, r.lookup_apply_ne h]

end SubscribeRequest

namespace BrokerState.Mends

theorem topic_eq (h : s.Mends c t) : (s.client.calls c).req.topic = t := by
  cases h with
  | send h _ _ => exact h
  | undo h _ _ => exact h

/-- Before its send, a call mends its filter by sending what the table has. -/
theorem of_unsent (h : s.Mends c t) (hpc : (s.client.calls c).pc.unsent = true) :
    (s.client.calls c).req.subscribes = true ↔ t ∈ s.client.subscriptions := by
  cases h with
  | send _ _ h => exact h
  | undo _ _ hun => cases hun <;> simp_all [SubscribePc.unsent]

/-- After it, by taking the filter out. -/
theorem of_sent (h : s.Mends c t) (hpc : (s.client.calls c).pc.unsent = false) :
    t ∈ s.client.subscriptions ∧ s.Undoing c := by
  cases h with
  | send _ h _ => simp [hpc] at h
  | undo _ hmem hun => exact ⟨hmem, hun⟩

/-- A call that is still before its send, at another point. -/
theorem goto_unsent (h : s.Mends c t) (hpc : (s.client.calls c).pc.unsent = true)
    {client : SubscribeState κ} (hpc' : (client.calls c).pc.unsent = true)
    (hreq : (client.calls c).req = (s.client.calls c).req)
    (htable : client.subscriptions = s.client.subscriptions) :
    { s with client := client : BrokerState κ }.Mends c t := by
  refine .send ?_ hpc' ?_
  · rw [hreq]
    exact h.topic_eq
  · rw [hreq, htable]
    exact h.of_unsent hpc

end BrokerState.Mends

namespace BrokerInv

/-- A call that is before its send, and stays there. -/
theorem settled_unsent (hs : BrokerInv s) {l : SubscribeLabel κ} {client : SubscribeState κ}
    (hl : l.call = some c) (hstep : subscribeStep s.client l = some client)
    (hsends : s.sends l = []) (hpc : (s.client.calls c).pc.unsent = true)
    (hpc' : (client.calls c).pc.unsent = true)
    (hreq : (client.calls c).req = (s.client.calls c).req)
    (htable : client.subscriptions = s.client.subscriptions) :
    { s with client := client, toBroker := s.toBroker ++ s.sends l : BrokerState κ }.Settled t :=
  hs.settled_call hl hstep hsends (by rw [htable]) fun h =>
    .inr (.inr ⟨c, h.goto_unsent hpc hpc' hreq htable⟩)

theorem settled_check (hs : BrokerInv s) {connected : Bool}
    (hallows : s.allows (.check c connected) = true)
    (hkeeps : s.CallKeeps c (s.client.calls c).req.topic (.check c connected))
    (hpc : (s.client.calls c).pc = .check) {client : SubscribeState κ}
    (hstep : subscribeStep s.client (.check c connected) = some client)
    (hclient : client = s.client.goto c (if connected then .fetch else .done)) :
    { s with client := client, toBroker := s.toBroker ++ s.sends (.check c connected) :
      BrokerState κ }.Settled t := by
  subst hclient
  have hunsent : (s.client.calls c).pc.unsent = true := by rw [hpc]; rfl
  cases connected with
  | true =>
    exact hs.settled_unsent (c := c) rfl hstep rfl hunsent (by simp [SubscribePc.unsent]) (by simp)
      rfl
  | false =>
    have hstate : s.state ≠ .connected := by simpa [BrokerState.allows] using hallows
    refine hs.settled_call (c := c) rfl hstep rfl Iff.rfl fun h => ?_
    obtain rfl := h.topic_eq
    cases hr : (s.client.calls c).req.subscribes with
    | true => exact .inr (.inl ⟨(h.of_unsent hunsent).mp hr, hs.resubscribes hstate _⟩)
    | false => exact hs.settled_without (c := c) rfl hstep rfl Iff.rfl (hkeeps hr)

/-- A packet that goes out decides what the broker is expected to hold. -/
theorem settled_sent (hs : BrokerInv s) (hpc : (s.client.calls c).pc = .send)
    (hkeeps : s.CallKeeps c (s.client.calls c).req.topic (.send c none))
    {client : SubscribeState κ} (hstep : subscribeStep s.client (.send c none) = some client)
    (hclient : client = s.client.goto c .wait) :
    { s with client := client, toBroker := s.toBroker ++ s.sends (.send c none) :
      BrokerState κ }.Settled t := by
  subst hclient
  have hothers := fun c' (hne : c' ≠ c) => hs.ids.mends_others (t := t) rfl hstep hne Iff.rfl
  have hunsent : (s.client.calls c).pc.unsent = true := by rw [hpc]; rfl
  cases hsession : s.session with
  | true =>
    have hsends : s.sends (.send c none) = [(s.client.calls c).packet] := by
      simp [BrokerState.sends, hsession]
    rw [hsends] at hothers ⊢
    have hexp : ∀ ps : List BrokerRequest, ({ s with
        client := s.client.goto c .wait, toBroker := s.toBroker ++ ps } : BrokerState κ).expected =
        Replica.expected s.filters (s.toBroker.map BrokerRequest.change ++
          ps.map BrokerRequest.change) := fun ps => by
      rw [BrokerState.expected, List.map_append]
    by_cases ht : t = (s.client.calls c).req.topic
    · subst ht
      rcases hkeeps hsession with h | ⟨hmem, h⟩ | ⟨c', hne, h⟩
      · refine .inl ?_
        rw [BrokerState.Agrees, hexp]
        have hlast := Replica.mem_expected_append_self (s := s.filters)
          (q := s.toBroker.map BrokerRequest.change) (p := (s.client.calls c).packet.change)
        change (s.client.calls c).packet.topic ∈ _ ↔ (s.client.calls c).packet.subscribes = true
          at hlast
        rw [SubscribeCall.packet_topic, SubscribeCall.packet_subscribes] at hlast
        exact h.symm.trans hlast.symm
      · exact .inr (.inl ⟨hmem, h⟩)
      · exact .inr (.inr ⟨c', hothers c' hne h⟩)
    · refine (hs.settled t).transfer Iff.rfl ?_ (fun hmem h => .inr (.inl ⟨hmem, h⟩)) fun c' h => ?_
      · rw [hexp]
        exact Replica.mem_expected_append_of_ne (K := Bytes)
          (p := (s.client.calls c).packet.change) (by simpa [BrokerRequest.change] using ht)
      · refine .inr (.inr ⟨c', hothers c' ?_ h⟩)
        rintro rfl
        exact ht h.topic_eq.symm
  | false =>
    have hsends : s.sends (.send c none) = [] := by simp [BrokerState.sends, hsession]
    obtain ⟨hfilters, hup⟩ := hs.ended hsession
    have hstate : s.state ≠ .connected := by
      simp only [BrokerState.session, Bool.or_eq_false_iff, decide_eq_false_iff_not] at hsession
      exact hsession.2
    rw [hsends, List.append_nil]
    by_cases hmem : t ∈ s.client.subscriptions
    · exact .inr (.inl ⟨hmem, hs.resubscribes hstate t⟩)
    · refine .inl ⟨fun h => absurd h hmem, fun h => ?_⟩
      simp [BrokerState.expected, hfilters, hup] at h

theorem settled_sendFailed (hs : BrokerInv s) {message : Bytes}
    (hpc : (s.client.calls c).pc = .send)
    (hkeeps : s.CallKeeps c (s.client.calls c).req.topic (.send c (some message)))
    {client : SubscribeState κ}
    (hstep : subscribeStep s.client (.send c (some message)) = some client)
    (hclient : client = s.client.goto c (.eraseEntry (.sendError message))) :
    { s with client := client, toBroker := s.toBroker ++ s.sends (.send c (some message)) :
      BrokerState κ }.Settled t := by
  subst hclient
  have hunsent : (s.client.calls c).pc.unsent = true := by rw [hpc]; rfl
  refine hs.settled_call (c := c) rfl hstep rfl Iff.rfl fun h => ?_
  obtain rfl := h.topic_eq
  cases hr : (s.client.calls c).req.subscribes with
  | true =>
    refine .inr (.inr ⟨c, .undo (by simp) ((h.of_unsent hunsent).mp hr)
      (.eraseEntry (.sendError message) (by simp) ?_)⟩)
    rw [SubscribeState.goto_self]
    cases hreq : (s.client.calls c).req with
    | subscribe topic qos callback => rfl
    | unsubscribe topic => simp [hreq, SubscribeRequest.subscribes] at hr
  | false => exact hs.settled_without (c := c) rfl hstep rfl Iff.rfl (hkeeps hr)

theorem settled_timeout (hs : BrokerInv s) (hpc : (s.client.calls c).pc = .wait)
    (hp : s.client.promises c = .pending)
    (hkeeps : s.CallKeeps c (s.client.calls c).req.topic (.timeout c))
    {client : SubscribeState κ} (hstep : subscribeStep s.client (.timeout c) = some client)
    (hclient : client = s.client.goto c (.eraseEntry .ackTimeout)) :
    { s with client := client, toBroker := s.toBroker ++ s.sends (.timeout c) :
      BrokerState κ }.Settled t := by
  subst hclient
  refine hs.settled_call (c := c) rfl hstep rfl Iff.rfl fun h => ?_
  obtain rfl := h.topic_eq
  obtain ⟨-, hun⟩ := h.of_sent (by rw [hpc]; rfl)
  cases hun with
  | refused _ hentry href =>
    have hr := (hs.ids.suback _ c hentry).2.1
    exact hs.settled_without (c := c) rfl hstep rfl Iff.rfl (hkeeps hr href)
  | told cause _ hget => simp [hp, SubscribeRequest.afterGet] at hget
  | eraseEntry cause hpc' => simp [hpc] at hpc'
  | eraseTopic cause hpc' => simp [hpc] at hpc'

theorem settled_get (hs : BrokerInv s) (hpc : (s.client.calls c).pc = .wait) {pc : SubscribePc}
    (hget : (s.client.calls c).req.afterGet (s.client.promises c) = some pc)
    {client : SubscribeState κ} (hstep : subscribeStep s.client (.get c) = some client)
    (hclient : client = s.client.goto c pc) :
    { s with client := client, toBroker := s.toBroker ++ s.sends (.get c) :
      BrokerState κ }.Settled t := by
  subst hclient
  refine hs.settled_call (c := c) rfl hstep rfl Iff.rfl fun h => ?_
  obtain ⟨hmem, hun⟩ := h.of_sent (by rw [hpc]; rfl)
  cases hun with
  | refused _ hentry =>
    exact absurd (hs.ids.suback _ c hentry).2.2.2 (SubscribeRequest.afterGet_holdsId hget).2
  | told cause _ hget' =>
    obtain rfl : SubscribePc.eraseTopic cause = pc := by simpa [hget'] using hget
    exact .inr (.inr ⟨c, .undo (by simpa using h.topic_eq) hmem (.eraseTopic cause (by simp))⟩)
  | eraseEntry cause hpc' => simp [hpc] at hpc'
  | eraseTopic cause hpc' => simp [hpc] at hpc'

theorem settled_eraseEntry (hs : BrokerInv s) {cause : FailureCause}
    (hpc : (s.client.calls c).pc = .eraseEntry cause) {client : SubscribeState κ}
    (hstep : subscribeStep s.client (.eraseEntry c) = some client)
    (hclient : client = (s.client.eraseEntry c).goto c
      (if (s.client.calls c).req.undoes cause then .eraseTopic cause else .failed cause)) :
    { s with client := client, toBroker := s.toBroker ++ s.sends (.eraseEntry c) :
      BrokerState κ }.Settled t := by
  subst hclient
  have hsubs : (s.client.eraseEntry c).subscriptions = s.client.subscriptions := by
    unfold SubscribeState.eraseEntry
    split <;> rfl
  have htable : t ∈ (s.client.eraseEntry c).subscriptions ↔ t ∈ s.client.subscriptions := by
    rw [hsubs]
  refine hs.settled_call (c := c) rfl hstep rfl htable fun h => ?_
  obtain ⟨hmem, hun⟩ := h.of_sent (by rw [hpc]; rfl)
  cases hun with
  | refused hpc' => simp [hpc] at hpc'
  | told cause hpc' => simp [hpc] at hpc'
  | eraseEntry cause' hpc' hundo =>
    obtain rfl : cause = cause' := by simpa [hpc] using hpc'
    rw [if_pos hundo]
    refine .inr (.inr ⟨c, .undo ?_ ?_ (.eraseTopic cause (by simp))⟩)
    · simpa [IdsFit.eraseEntry_calls] using h.topic_eq
    · exact htable.mpr hmem
  | eraseTopic cause' hpc' => simp [hpc] at hpc'

/-- A filter is taken out where the broker does not hold it. -/
theorem settled_eraseTopic (hs : BrokerInv s) {cause : FailureCause}
    (hpc : (s.client.calls c).pc = .eraseTopic cause)
    (hkeeps : s.CallKeeps c (s.client.calls c).req.topic (.eraseTopic c))
    {client : SubscribeState κ} (hstep : subscribeStep s.client (.eraseTopic c) = some client)
    (hclient : client = { s.client.goto c (.failed cause) with
      subscriptions := s.client.subscriptions.erase (s.client.calls c).req.topic }) :
    { s with client := client, toBroker := s.toBroker ++ s.sends (.eraseTopic c) :
      BrokerState κ }.Settled t := by
  subst hclient
  by_cases ht : t = (s.client.calls c).req.topic
  · subst ht
    have hgone : (s.client.calls c).req.topic ∉
        s.client.subscriptions.erase (s.client.calls c).req.topic := by simp [AList.mem_erase]
    by_cases hexp : (s.client.calls c).req.topic ∈ s.expected
    · obtain ⟨c', htopic, hpc', hr⟩ := hkeeps hexp
      have hne : c' ≠ c := by
        rintro rfl
        simp [hpc, SubscribePc.unsent] at hpc'
      have hcall : (s.client.goto c (.failed cause)).calls c' = s.client.calls c' :=
        Function.update_of_ne hne ..
      refine .inr (.inr ⟨c', .send ?_ ?_ ?_⟩)
      · rw [← htopic]
        exact congrArg (fun k => k.req.topic) hcall
      · exact (congrArg (fun k => k.pc.unsent) hcall).trans hpc'
      · have hsub := (congrArg (fun k => k.req.subscribes) hcall).trans hr
        exact ⟨fun h => absurd (h.symm.trans hsub) (by simp), fun h => absurd h hgone⟩
    · refine .inl ⟨fun h => absurd h hgone, fun h => absurd ?_ hexp⟩
      simpa [BrokerState.sends, BrokerState.expected] using h
  · refine hs.settled_call (c := c) rfl hstep rfl ?_ fun h => absurd h.topic_eq.symm ht
    rw [AList.mem_erase]
    exact and_iff_right ht

/-- Every step of a call leaves every filter settled. -/
theorem call_settled (hs : BrokerInv s) {l : SubscribeLabel κ} {client : SubscribeState κ}
    (hallows : s.allows l = true) (hkeeps : s.StepKeeps (.call l))
    (hstep : subscribeStep s.client l = some client) (t : Bytes) :
    { s with client := client, toBroker := s.toBroker ++ s.sends l : BrokerState κ }.Settled t := by
  cases SubscribeStep.of_eq hstep with
  | begin c req hpc =>
    exact hs.settled_call (c := c) rfl hstep rfl Iff.rfl fun h => absurd hpc h.running.1
  | table c hpc =>
    by_cases ht : t = (s.client.calls c).req.topic
    · subst ht
      have hcall : (s.client.goto c .check).calls c = { s.client.calls c with pc := .check } :=
        SubscribeState.goto_self _
      refine .inr (.inr ⟨c, .send (by simp) (by simp [SubscribePc.unsent]) ?_⟩)
      exact (Bool.eq_iff_iff.mp (congrArg (fun k => k.req.subscribes) hcall)).trans
        (s.client.calls c).req.mem_apply_self.symm
    · refine hs.settled_call (c := c) rfl hstep rfl ((s.client.calls c).req.mem_apply_of_ne ht) ?_
      exact fun h => absurd h.topic_eq.symm ht
  | check c connected hpc => exact hs.settled_check hallows (hkeeps c rfl) hpc hstep rfl
  | fetch c hpc =>
    refine hs.settled_unsent (c := c) rfl hstep rfl (by rw [hpc]; rfl) ?_ ?_ rfl
    · simp only [SubscribeState.fetch, SubscribeState.setCall_self]
      split_ifs <;> rfl
    · simp [SubscribeState.fetch]
  | refetch c hpc =>
    refine hs.settled_unsent (c := c) rfl hstep rfl (by rw [hpc]; rfl) ?_ ?_ rfl
    · simp only [SubscribeState.fetch, SubscribeState.setCall_self]
      rfl
    · simp [SubscribeState.fetch]
  | register c hpc =>
    refine hs.settled_unsent (c := c) rfl hstep rfl (by rw [hpc]; rfl) ?_ ?_ ?_
    · rw [SubscribeState.goto_self]
      rfl
    · rw [SubscribeState.goto_self, IdsFit.register_calls]
    · change (s.client.register c).subscriptions = _
      unfold SubscribeState.register
      split <;> rfl
  | sent c hpc => exact hs.settled_sent hpc (hkeeps c rfl) hstep rfl
  | sendFailed c message hpc => exact hs.settled_sendFailed hpc (hkeeps c rfl) hstep rfl
  | timeout c hpc hp => exact hs.settled_timeout hpc hp (hkeeps c rfl) hstep rfl
  | get c pc hpc hget => exact hs.settled_get hpc hget hstep rfl
  | eraseEntry c cause hpc => exact hs.settled_eraseEntry hpc hstep rfl
  | eraseTopic c cause hpc => exact hs.settled_eraseTopic hpc (hkeeps c rfl) hstep rfl
  | suback body => simp [BrokerState.allows] at hallows
  | unsuback body => simp [BrokerState.allows] at hallows
  | failAllAcks => simp [BrokerState.allows] at hallows

end BrokerInv

/-! ## The broker and the receive loop -/

/-- A call mends its filter with packets in flight, whatever comes on top of them. -/
theorem BrokerState.Mends.handle (h : s.Mends c t) (rc : UInt8) (p : BrokerRequest)
    (rest : List BrokerRequest) : (s.handle rc p rest).Mends c t :=
  h.frame rfl Iff.rfl fun hun => hun.frame rfl rfl id (List.subset_append_left _ _)

/-- A `subscribe` that is told the outcome has no entry any more. -/
theorem IdsFit.no_entry (hs : IdsFit s) {pc : SubscribePc}
    (hget : (s.client.calls c).req.afterGet (s.client.promises c) = some pc) :
    (∀ id, s.client.pendingSubacks id ≠ some c) ∧ ∀ id, s.client.pendingUnsubacks id ≠ some c := by
  have hp := (SubscribeRequest.afterGet_holdsId hget).2
  exact ⟨fun id h => hp (hs.suback id c h).2.2.2, fun id h => hp (hs.unsuback id c h).2.2.2⟩

theorem BrokerState.receive_calls (s : BrokerState κ) (a : BrokerAnswer)
    (rest : List BrokerAnswer) : (s.receive a rest).client.calls = s.client.calls := by
  cases a with
  | suback id rc => exact SubscribeState.handleSuback_calls _
  | unsuback id => rfl

/-- A refusal that comes in is told to the call that waits for it. -/
theorem BrokerState.Undoing.receive (hs : IdsFit s) (h : s.Undoing c) {a : BrokerAnswer}
    {rest : List BrokerAnswer} (hdown : s.toClient = a :: rest) : (s.receive a rest).Undoing c := by
  have hcalls := s.receive_calls a rest
  cases h with
  | refused hpc hentry href =>
    rw [hdown] at href
    have hnodup := hs.nodup
    rw [BrokerState.wireIds, hdown, List.map_cons] at hnodup
    have hhead : a.id ∉ rest.map BrokerAnswer.id :=
      (List.nodup_cons.mp (List.nodup_append.mp hnodup).2.1).1
    rcases List.mem_cons.mp href with rfl | hrest
    · -- the refusal itself
      refine .told .rejected (by rw [hcalls]; exact hpc) ?_
      rw [hcalls, BrokerState.receive]
      dsimp only
      rw [SubscribeState.handleSuback_body]
      dsimp only
      rw [Pending.resolve_owner hentry, SubscribeRequest.afterGet,
        if_pos ⟨(hs.suback _ c hentry).2.1, rfl⟩]
    · -- an answer to another call
      have hne : (s.client.calls c).id ≠ a.id := fun he =>
        hhead (he ▸ List.mem_map_of_mem (f := BrokerAnswer.id) hrest)
      refine .refused (by rw [hcalls]; exact hpc) ?_ (by rw [hcalls]; exact hrest)
      rw [hcalls]
      cases a with
      | suback id rc =>
        rw [BrokerState.receive]
        dsimp only
        rw [SubscribeState.handleSuback_body]
        exact (Function.update_of_ne hne ..).trans hentry
      | unsuback id =>
        rw [BrokerState.receive]
        dsimp only
        rw [SubscribeState.handleUnsuback_body]
        exact hentry
  | told cause hpc hget =>
    obtain ⟨hsub, hunsub⟩ := hs.no_entry hget
    refine .told cause (by rw [hcalls]; exact hpc) ?_
    have hprom : (s.receive a rest).client.promises c = s.client.promises c := by
      cases a with
      | suback id rc =>
        exact SubscribeState.handleSuback_promises (BrokerAnswer.suback id rc).body hsub
      | unsuback id =>
        exact SubscribeState.handleUnsuback_promises (BrokerAnswer.unsuback id).body hunsub
    rw [hcalls, hprom]
    exact hget
  | eraseEntry cause hpc hundo =>
    exact .eraseEntry cause (by rw [hcalls]; exact hpc) (by rw [hcalls]; exact hundo)
  | eraseTopic cause hpc => exact .eraseTopic cause (by rw [hcalls]; exact hpc)

/-- A connection that is lost tells every call that waits for a SUBACK that it is refused. -/
theorem BrokerState.Undoing.failAllAcks (hs : IdsFit s) (h : s.Undoing c) :
    BrokerState.Undoing
      { s with client := s.client.failAllAcks, leaving := s.leaving - 1 } c := by
  cases h with
  | refused hpc hentry href =>
    refine .told .connectionLost hpc ?_
    change (s.client.calls c).req.afterGet (if _ then _ else _) = _
    rw [if_pos (.inl hentry), SubscribeRequest.afterGet, if_pos (hs.suback _ c hentry).2.1]
  | told cause hpc hget =>
    obtain ⟨hsub, hunsub⟩ := hs.no_entry hget
    refine .told cause hpc ?_
    change (s.client.calls c).req.afterGet (if _ then _ else _) = _
    rw [if_neg (not_or.mpr ⟨hsub _, hunsub _⟩)]
    exact hget
  | eraseEntry cause hpc hundo => exact .eraseEntry cause hpc hundo
  | eraseTopic cause hpc => exact .eraseTopic cause hpc

namespace BrokerInv

variable {rc : UInt8} {p : BrokerRequest} {rest : List BrokerRequest}

/-- A refusal is told to the call that waits for it, or changes nothing that matters. -/
theorem settled_refuse (hs : BrokerInv s) (hup : s.toBroker = p :: rest)
    (href : p.refused rc = true) (hkeeps : s.StepKeeps (.handle rc)) :
    (s.handle rc p rest).Settled p.topic := by
  obtain ⟨hsub, hrc⟩ : p.subscribes = true ∧ rc = 0x80 := by
    simpa [BrokerRequest.refused] using href
  have hfilters : (s.handle rc p rest).filters = s.filters := if_pos href
  have hexp : (s.handle rc p rest).expected =
      Replica.expected s.filters (rest.map BrokerRequest.change) := by
    rw [BrokerState.expected, hfilters]
    rfl
  rcases hkeeps p rest hup href with ⟨c, hentry, hpc⟩ | h | ⟨hmem, h⟩ | ⟨c, h⟩
  · have hid := (hs.ids.suback p.id c hentry).1
    have hown := hs.ids.own p (by simp [hup]) c (by rw [hpc]; rfl) hid
    by_cases hmem : p.topic ∈ s.client.subscriptions
    · have hanswer : p.answer rc = .suback (s.client.calls c).id 0x80 := by
        cases p with
        | subscribe id topic qos => rw [hrc, hid]; rfl
        | unsubscribe id topic => simp [BrokerRequest.subscribes] at hsub
      have hentry' : s.client.pendingSubacks (s.client.calls c).id = some c := by
        rw [hid]
        exact hentry
      refine .inr (.inr ⟨c, .undo hown.2 hmem (.refused hpc hentry' ?_)⟩)
      exact List.mem_append_right _ (List.mem_singleton.mpr hanswer.symm)
    · rcases hs.settled p.topic with h | ⟨h, -⟩ | ⟨c', h⟩
      · refine .inl ⟨fun h' => absurd h' hmem, fun h' => ?_⟩
        rw [hexp] at h'
        refine h.mpr ?_
        rw [BrokerState.expected, hup]
        exact Replica.mem_expected_of_refuse hsub h'
      · exact absurd h hmem
      · exact .inr (.inr ⟨c', h.handle rc p rest⟩)
  · refine .inl ?_
    rw [BrokerState.Agrees, hexp]
    exact h
  · exact .inr (.inl ⟨hmem, h⟩)
  · exact .inr (.inr ⟨c, h.handle rc p rest⟩)

theorem settled_handle (hs : BrokerInv s) (hup : s.toBroker = p :: rest)
    (hkeeps : s.StepKeeps (.handle rc)) : (s.handle rc p rest).Settled t := by
  by_cases ht : p.refused rc = true ∧ t = p.topic
  · obtain ⟨href, rfl⟩ := ht
    exact hs.settled_refuse hup href hkeeps
  · refine (hs.settled t).transfer Iff.rfl ?_ (fun hmem h => .inr (.inl ⟨hmem, h⟩))
      fun c h => .inr (.inr ⟨c, h.handle rc p rest⟩)
    rw [BrokerState.expected, BrokerState.expected, hup, List.map_cons]
    cases href : p.refused rc with
    | true =>
      have hfilters : (s.handle rc p rest).filters = s.filters := if_pos href
      rw [hfilters]
      exact Replica.mem_expected_refuse fun h => ht ⟨href, h⟩
    | false =>
      have hfilters : (s.handle rc p rest).filters = Replica.apply s.filters p.change :=
        if_neg (by simp [href])
      rw [hfilters]
      exact Iff.rfl

theorem settled_receive (hs : BrokerInv s) {a : BrokerAnswer} {rest : List BrokerAnswer}
    (hdown : s.toClient = a :: rest) : (s.receive a rest).Settled t := by
  have hcalls := s.receive_calls a rest
  have hsubs : (s.receive a rest).client.subscriptions = s.client.subscriptions := by
    cases a with
    | suback id rc => exact congrArg (·.subscriptions) (s.client.handleSuback_body id rc)
    | unsuback id => rfl
  refine (hs.settled t).transfer (by rw [hsubs]) Iff.rfl (fun hmem h => .inr (.inl ⟨?_, h⟩))
    fun c h => .inr (.inr ⟨c, ?_⟩)
  · rw [hsubs]
    exact hmem
  · exact h.frame (by rw [hcalls]) (by rw [hsubs]) fun hun => hun.receive hs.ids hdown

/-- `connect` goes on, and what it has yet to subscribe stays that. -/
theorem settled_advance (hs : BrokerInv s) (hclient : s'.client = s.client)
    (hfilters : s'.filters = s.filters) (hup : s'.toBroker = s.toBroker)
    (hdown : s'.toClient = s.toClient)
    (hresub : t ∈ s.client.subscriptions → s.Resubscribes t → s'.Resubscribes t) :
    s'.Settled t := by
  refine (hs.settled t).transfer (by rw [hclient]) ?_ (fun hmem h => .inr (.inl ⟨?_, ?_⟩))
    fun c h => .inr (.inr ⟨c, ?_⟩)
  · rw [BrokerState.expected, hfilters, hup]
    exact Iff.rfl
  · rw [hclient]
    exact hmem
  · exact hresub hmem h
  · refine h.frame (by rw [hclient]) (by rw [hclient]) fun hun => ?_
    exact hun.frame (by rw [hclient]) (by rw [hclient]) (by rw [hclient]; exact id)
      (by rw [hdown]; exact List.Subset.refl _)

theorem settled_resend (hs : BrokerInv s) {todo : List Bytes} {topic : Bytes} {sub : TopicSub κ}
    {ok : Bool} (hkeeps : s.StepKeeps (.resend topic ok))
    (hconnect : s.connect = .resubscribing todo)
    (hsub : s.client.subscriptions.lookup topic = some sub) :
    (s.resend todo topic sub.qos ok).Settled t := by
  have hmem : topic ∈ s.client.subscriptions := by
    rw [← AList.lookup_isSome, hsub]
    rfl
  have hmends : ∀ {c t}, s.Mends c t → (s.resend todo topic sub.qos ok).Mends c t := fun h =>
    h.frame rfl Iff.rfl fun hun => hun.frame rfl rfl id (List.Subset.refl _)
  have hexp : (s.resend todo topic sub.qos ok).expected = Replica.expected s.filters
      (s.toBroker.map BrokerRequest.change ++ if ok then [(topic, true)] else []) := by
    rw [BrokerState.expected, BrokerState.resend, List.map_append]
    cases ok <;> rfl
  by_cases ht : t = topic
  · subst ht
    cases ok with
    | true =>
      refine .inl ⟨fun _ => ?_, fun _ => hmem⟩
      rw [hexp, if_pos rfl]
      exact (Replica.mem_expected_append_self (p := (t, true))).mpr rfl
    | false =>
      rcases hkeeps rfl with h | ⟨c, h⟩
      · refine .inl ⟨fun _ => ?_, fun _ => hmem⟩
        rw [hexp, if_neg (by simp), List.append_nil]
        exact h
      · exact .inr (.inr ⟨c, hmends h⟩)
  · refine (hs.settled t).transfer Iff.rfl ?_ (fun hmem h => .inr (.inl ⟨hmem, ?_⟩))
      fun c h => .inr (.inr ⟨c, hmends h⟩)
    · rw [hexp]
      cases ok with
      | true => exact Replica.mem_expected_append_of_ne (p := (topic, true)) ht
      | false => simp [BrokerState.expected]
    · rw [BrokerState.Resubscribes, hconnect] at h
      exact (List.mem_erase_of_ne ht).mpr h

end BrokerInv

theorem BrokerState.resubscribes_of_idle (hidle : s.connect = .idle)
    (hstate : s.state ≠ .connected) : s.Resubscribes t := by
  rw [BrokerState.Resubscribes, hidle]
  exact hstate

/-- Without a session, whatever the table has is to be subscribed again. -/
theorem BrokerState.Settled.of_lost (hfilters : s.filters = ∅) (hup : s.toBroker = [])
    (hresub : s.Resubscribes t) : s.Settled t := by
  by_cases hmem : t ∈ s.client.subscriptions
  · exact .inr (.inl ⟨hmem, hresub⟩)
  · refine .inl ⟨fun h => absurd h hmem, fun h => ?_⟩
    simp [BrokerState.expected, hfilters, hup] at h

namespace BrokerInv

/-- A client without a session makes a fresh start, whatever has happened before. -/
theorem of_lost (hs : LinkFits s) (hsession : s.session = false) : BrokerInv s := by
  obtain ⟨hfilters, hup⟩ := hs.ended hsession
  obtain ⟨hconnect, hstate⟩ : s.connect = .idle ∧ s.state ≠ .connected := by
    simpa [BrokerState.session] using hsession
  exact ⟨hs, fun t => .of_lost hfilters hup (BrokerState.resubscribes_of_idle hconnect hstate)⟩

theorem settled_step (hs : BrokerInv s) {l : BrokerLabel κ} (hkeeps : s.StepKeeps l)
    (hstep : brokerStep s l = some s') (t : Bytes) : s'.Settled t := by
  cases BrokerStep.of_eq hstep with
  | call l client hallows hcall => exact hs.call_settled hallows hkeeps hcall t
  | handle rc p rest hup => exact hs.settled_handle hup hkeeps
  | receive a rest _ hdown => exact hs.settled_receive hdown
  | lose hrecv =>
    exact .of_lost rfl rfl (BrokerState.resubscribes_of_idle (hs.listening hrecv).1 (by simp))
  | failAllAcks =>
    exact (hs.settled t).transfer Iff.rfl Iff.rfl (fun hmem h => .inr (.inl ⟨hmem, h⟩)) fun c h =>
      .inr (.inr ⟨c, h.frame rfl Iff.rfl fun hun => hun.failAllAcks hs.ids⟩)
  | disconnect hidle =>
    exact .of_lost rfl rfl (BrokerState.resubscribes_of_idle hidle (by simp))
  | dial hidle hstate => exact .of_lost rfl rfl trivial
  | accepted hconnect => exact hs.settled_advance rfl rfl rfl rfl fun _ _ => trivial
  | refused hconnect =>
    exact .of_lost rfl rfl (BrokerState.resubscribes_of_idle rfl (by simp))
  | table hconnect =>
    exact hs.settled_advance rfl rfl rfl rfl fun hmem _ => AList.mem_keys.mp hmem
  | resend todo topic sub ok hconnect hsub => exact hs.settled_resend hkeeps hconnect hsub
  | listen hconnect =>
    refine hs.settled_advance rfl rfl rfl rfl fun _ h => ?_
    simp [BrokerState.Resubscribes, hconnect] at h

theorem step (hs : BrokerInv s) {l : BrokerLabel κ} (hkeeps : s.KeepsFilters l)
    (hstep : brokerStep s l = some s') : BrokerInv s' :=
  ⟨hs.toLinkFits.step hkeeps.1 hstep, hs.settled_step hkeeps.2 hstep⟩

end BrokerInv

end MqttNativeSocket
