import MqttNativeSocket.Protocol.Encoding
import MqttNativeSocket.Subscriber.Broker
import MqttNativeSocket.Subscriber.Failure

/-! # Identifiers of requests and answers

As long as every identifier drawn is one that no call has and no packet under way
carries, an answer comes to the call whose request it answers, or to none.
-/

namespace MqttNativeSocket

variable {κ : Type} {s s' : BrokerState κ} {c c' : ℕ} {id : UInt16}

/-- The points at which a call has its identifier. -/
def SubscribePc.holdsId : SubscribePc → Bool
  | .register => true
  | .send => true
  | .wait => true
  | .eraseEntry _ => true
  | _ => false

theorem SubscribePc.holdsId_of_holdsEntry {pc : SubscribePc} (h : pc.holdsEntry = true) :
    pc.holdsId = true := by
  cases pc <;> first | rfl | simp [SubscribePc.holdsEntry] at h

@[simp] theorem SubscribeCall.packet_id (k : SubscribeCall κ) : k.packet.id = k.id := by
  unfold packet
  split <;> rfl

@[simp] theorem SubscribeCall.packet_subscribes (k : SubscribeCall κ) :
    k.packet.subscribes = k.req.subscribes := by
  unfold packet
  split <;> simp [*, BrokerRequest.subscribes, SubscribeRequest.subscribes]

@[simp] theorem SubscribeCall.packet_topic (k : SubscribeCall κ) :
    k.packet.topic = k.req.topic := by
  unfold packet
  split <;> simp [*, BrokerRequest.topic, SubscribeRequest.topic]

namespace BrokerState

/-- The identifiers of the packets under way, in both directions. -/
def wireIds (s : BrokerState κ) : List UInt16 :=
  s.toBroker.map BrokerRequest.id ++ s.toClient.map BrokerAnswer.id

/-- No call has this identifier, and no packet under way carries it. -/
def FreshId (s : BrokerState κ) (id : UInt16) : Prop :=
  (∀ c, (s.client.calls c).pc.holdsId = true → (s.client.calls c).id ≠ id) ∧ id ∉ s.wireIds

theorem id_mem_wireIds (s : BrokerState κ) {p : BrokerRequest} (hp : p ∈ s.toBroker) :
    p.id ∈ s.wireIds :=
  List.mem_append_left _ (List.mem_map_of_mem hp)

end BrokerState

structure IdsFit (s : BrokerState κ) : Prop where
  suback : ∀ id c, s.client.pendingSubacks id = some c → (s.client.calls c).id = id ∧
    (s.client.calls c).req.subscribes = true ∧ (s.client.calls c).pc.holdsEntry = true ∧
    s.client.promises c = .pending
  unsuback : ∀ id c, s.client.pendingUnsubacks id = some c → (s.client.calls c).id = id ∧
    (s.client.calls c).req.subscribes = false ∧ (s.client.calls c).pc.holdsEntry = true ∧
    s.client.promises c = .pending
  distinct : ∀ c c', (s.client.calls c).pc.holdsId = true →
    (s.client.calls c').pc.holdsId = true → (s.client.calls c).id = (s.client.calls c').id → c = c'
  nodup : s.wireIds.Nodup
  unsent : ∀ c, (s.client.calls c).pc = .register ∨ (s.client.calls c).pc = .send →
    (s.client.calls c).id ∉ s.wireIds
  own : ∀ p ∈ s.toBroker, ∀ c, (s.client.calls c).pc.holdsId = true →
    (s.client.calls c).id = p.id →
    (s.client.calls c).req.subscribes = p.subscribes ∧ (s.client.calls c).req.topic = p.topic

namespace IdsFit

theorem initial : IdsFit ({} : BrokerState κ) where
  suback := nofun
  unsuback := nofun
  distinct c c' h := by simp [SubscribeState.initial, SubscribePc.holdsId] at h
  nodup := List.nodup_nil
  unsent c h := by simp [SubscribeState.initial] at h
  own := nofun

/-- Nothing happens to the calls; packets may go and come, and entries go. -/
theorem frame (hs : IdsFit s) (hcalls : s'.client.calls = s.client.calls)
    (hsub : ∀ id c, s'.client.pendingSubacks id = some c →
      s.client.pendingSubacks id = some c ∧ s'.client.promises c = s.client.promises c)
    (hunsub : ∀ id c, s'.client.pendingUnsubacks id = some c →
      s.client.pendingUnsubacks id = some c ∧ s'.client.promises c = s.client.promises c)
    (hnodup : s'.wireIds.Nodup) (hids : ∀ id ∈ s'.wireIds, id ∈ s.wireIds ∨ s.FreshId id)
    (hup : ∀ p ∈ s'.toBroker, p ∈ s.toBroker ∨ s.FreshId p.id) : IdsFit s' where
  suback id c h := by
    obtain ⟨hold, hp⟩ := hsub id c h
    rw [hcalls, hp]
    exact hs.suback id c hold
  unsuback id c h := by
    obtain ⟨hold, hp⟩ := hunsub id c h
    rw [hcalls, hp]
    exact hs.unsuback id c hold
  distinct := by
    rw [hcalls]
    exact hs.distinct
  nodup := hnodup
  unsent c hc hid := by
    rw [hcalls] at hc hid
    rcases hids _ hid with hold | hfresh
    · exact hs.unsent c hc hold
    · exact hfresh.1 c (by rcases hc with h | h <;> rw [h] <;> rfl) rfl
  own p hp c hc hid := by
    rw [hcalls] at hc hid ⊢
    rcases hup p hp with hold | hfresh
    · exact hs.own p hold c hc hid
    · exact absurd hid (hfresh.1 c hc)

/-- A call goes on, with its own identifier or a fresh one, and may change its own entry. -/
theorem update (hs : IdsFit s) {k : SubscribeCall κ} (hself : s'.client.calls c = k)
    (hother : ∀ c', c' ≠ c → s'.client.calls c' = s.client.calls c')
    (hsub : ∀ id c', s'.client.pendingSubacks id = some c' →
      c' = c ∧ k.id = id ∧ k.req.subscribes = true ∧ k.pc.holdsEntry = true ∧
          s'.client.promises c' = .pending ∨
        c' ≠ c ∧ s.client.pendingSubacks id = some c' ∧
          s'.client.promises c' = s.client.promises c')
    (hunsub : ∀ id c', s'.client.pendingUnsubacks id = some c' →
      c' = c ∧ k.id = id ∧ k.req.subscribes = false ∧ k.pc.holdsEntry = true ∧
          s'.client.promises c' = .pending ∨
        c' ≠ c ∧ s.client.pendingUnsubacks id = some c' ∧
          s'.client.promises c' = s.client.promises c')
    (hup : s'.toBroker = s.toBroker) (hdown : s'.toClient = s.toClient)
    (hid : k.pc.holdsId = true → s.FreshId k.id ∨
      (s.client.calls c).pc.holdsId = true ∧ k.id = (s.client.calls c).id ∧
        k.req = (s.client.calls c).req)
    (hunsent : k.pc = .register ∨ k.pc = .send → s.FreshId k.id ∨
      ((s.client.calls c).pc = .register ∨ (s.client.calls c).pc = .send) ∧
        k.id = (s.client.calls c).id) : IdsFit s' := by
  have hwire : s'.wireIds = s.wireIds := by rw [BrokerState.wireIds, hup, hdown]; rfl
  have hcase : ∀ c', c' = c ∨ s'.client.calls c' = s.client.calls c' := fun c' => by
    by_cases hne : c' = c
    · exact .inl hne
    · exact .inr (hother c' hne)
  constructor
  · intro id c' h
    rcases hsub id c' h with ⟨rfl, hid', hreq, hpc, hp⟩ | ⟨hne, hold, hp⟩
    · rw [hself]
      exact ⟨hid', hreq, hpc, hp⟩
    · rw [hother c' hne, hp]
      exact hs.suback id c' hold
  · intro id c' h
    rcases hunsub id c' h with ⟨rfl, hid', hreq, hpc, hp⟩ | ⟨hne, hold, hp⟩
    · rw [hself]
      exact ⟨hid', hreq, hpc, hp⟩
    · rw [hother c' hne, hp]
      exact hs.unsuback id c' hold
  · have hnew : ∀ c', c' ≠ c → k.pc.holdsId = true → (s.client.calls c').pc.holdsId = true →
        k.id ≠ (s.client.calls c').id := by
      intro c' hne hk hc' he
      rcases hid hk with hfresh | ⟨hold, hide, -⟩
      · exact hfresh.1 c' hc' he.symm
      · exact hne (hs.distinct c' c hc' hold (he.symm.trans hide))
    intro c₁ c₂ h₁ h₂ he
    by_cases hc₁ : c₁ = c
    · by_cases hc₂ : c₂ = c
      · rw [hc₁, hc₂]
      · rw [hc₁, hself] at h₁ he
        rw [hother c₂ hc₂] at h₂ he
        exact absurd he (hnew c₂ hc₂ h₁ h₂)
    · rw [hother c₁ hc₁] at h₁ he
      by_cases hc₂ : c₂ = c
      · rw [hc₂, hself] at h₂ he
        exact absurd he.symm (hnew c₁ hc₁ h₂ h₁)
      · rw [hother c₂ hc₂] at h₂ he
        exact hs.distinct c₁ c₂ h₁ h₂ he
  · rw [hwire]
    exact hs.nodup
  · rw [hwire]
    intro c' hc'
    rcases hcase c' with rfl | he
    · rw [hself] at hc' ⊢
      rcases hunsent hc' with hfresh | ⟨hold, hide⟩
      · exact hfresh.2
      · rw [hide]
        exact hs.unsent c' hold
    · rw [he] at hc' ⊢
      exact hs.unsent c' hc'
  · rw [hup]
    intro p hp c' hc' hide
    rcases hcase c' with rfl | he
    · rw [hself] at hc' hide ⊢
      rcases hid hc' with hfresh | ⟨hold, hide', hreqe⟩
      · exact absurd (hide ▸ s.id_mem_wireIds hp) hfresh.2
      · rw [hreqe]
        exact hs.own p hp c' hold (hide'.symm.trans hide)
    · rw [he] at hc' hide ⊢
      exact hs.own p hp c' hc' hide

/-- A call that leaves the entries as they are. -/
theorem move (hs : IdsFit s) {k : SubscribeCall κ} (hself : s'.client.calls c = k)
    (hother : ∀ c', c' ≠ c → s'.client.calls c' = s.client.calls c')
    (hsub : s'.client.pendingSubacks = s.client.pendingSubacks)
    (hunsub : s'.client.pendingUnsubacks = s.client.pendingUnsubacks)
    (hprom : s'.client.promises = s.client.promises) (hup : s'.toBroker = s.toBroker)
    (hdown : s'.toClient = s.toClient)
    (hentry : (s.client.calls c).pc.holdsEntry = true → s.client.promises c = .pending →
      k.pc.holdsEntry = true ∧ k.id = (s.client.calls c).id ∧ k.req = (s.client.calls c).req)
    (hid : k.pc.holdsId = true → s.FreshId k.id ∨
      (s.client.calls c).pc.holdsId = true ∧ k.id = (s.client.calls c).id ∧
        k.req = (s.client.calls c).req)
    (hunsent : k.pc = .register ∨ k.pc = .send → s.FreshId k.id ∨
      ((s.client.calls c).pc = .register ∨ (s.client.calls c).pc = .send) ∧
        k.id = (s.client.calls c).id) : IdsFit s' := by
  refine hs.update hself hother (fun id c' h => ?_) (fun id c' h => ?_) hup hdown hid hunsent
  · rw [hsub] at h
    rw [hprom]
    by_cases hne : c' = c
    · subst hne
      obtain ⟨hid', hreq, hpc, hp⟩ := hs.suback id c' h
      obtain ⟨hpc', hide, hreqe⟩ := hentry hpc hp
      exact .inl ⟨rfl, hide.trans hid', by rw [hreqe, hreq], hpc', hp⟩
    · exact .inr ⟨hne, h, rfl⟩
  · rw [hunsub] at h
    rw [hprom]
    by_cases hne : c' = c
    · subst hne
      obtain ⟨hid', hreq, hpc, hp⟩ := hs.unsuback id c' h
      obtain ⟨hpc', hide, hreqe⟩ := hentry hpc hp
      exact .inl ⟨rfl, hide.trans hid', by rw [hreqe, hreq], hpc', hp⟩
    · exact .inr ⟨hne, h, rfl⟩

/-- No entry stands at the identifier of a call but its own. -/
theorem entry_own (hs : IdsFit s) (hpc : (s.client.calls c).pc.holdsId = true)
    (h : s.client.pendingSubacks (s.client.calls c).id = some c' ∨
      s.client.pendingUnsubacks (s.client.calls c).id = some c') : c' = c := by
  rcases h with h | h
  · obtain ⟨hid, -, hpc', -⟩ := hs.suback _ c' h
    exact hs.distinct c' c (SubscribePc.holdsId_of_holdsEntry hpc') hpc hid
  · obtain ⟨hid, -, hpc', -⟩ := hs.unsuback _ c' h
    exact hs.distinct c' c (SubscribePc.holdsId_of_holdsEntry hpc') hpc hid

/-- A call registers under an identifier without an entry. -/
theorem register_free (hs : IdsFit s) (hpc : (s.client.calls c).pc = .register) :
    s.client.pendingSubacks (s.client.calls c).id = none ∧
      s.client.pendingUnsubacks (s.client.calls c).id = none := by
  have hholds : (s.client.calls c).pc.holdsId = true := by rw [hpc]; rfl
  constructor <;> refine Option.eq_none_iff_forall_ne_some.mpr fun c' h => ?_
  · obtain rfl := hs.entry_own hholds (.inl h)
    simpa [hpc, SubscribePc.holdsEntry] using (hs.suback _ c' h).2.2.1
  · obtain rfl := hs.entry_own hholds (.inr h)
    simpa [hpc, SubscribePc.holdsEntry] using (hs.unsuback _ c' h).2.2.1

/-- The request of a call joins the packets under way. -/
theorem sent (hs : IdsFit s) (hpc : (s.client.calls c).pc = .send) {ps : List BrokerRequest}
    (hps : ps = [] ∨ ps = [(s.client.calls c).packet]) :
    IdsFit { s with client := s.client.goto c .wait, toBroker := s.toBroker ++ ps } := by
  have hmove : IdsFit { s with client := s.client.goto c .wait } := by
    refine hs.move (c := c) (SubscribeState.goto_self _)
      (fun c' hne => Function.update_of_ne hne ..) rfl rfl rfl rfl rfl
      (fun _ _ => ⟨rfl, rfl, rfl⟩) (fun _ => .inr ⟨?_, rfl, rfl⟩) ?_
    · rw [hpc]
      rfl
    · simp
  rcases hps with rfl | rfl
  · simpa using hmove
  · have hold : (s.client.calls c).pc.holdsId = true := by rw [hpc]; rfl
    have hfresh : (s.client.calls c).id ∉ s.wireIds := hs.unsent c (.inr hpc)
    have hperm : (({ s with
        client := s.client.goto c .wait
        toBroker := s.toBroker ++ [(s.client.calls c).packet] } : BrokerState κ).wireIds).Perm
        ((s.client.calls c).id :: s.wireIds) := by
      simp only [BrokerState.wireIds, List.map_append, List.map_cons, List.map_nil,
        SubscribeCall.packet_id, List.append_assoc, List.singleton_append]
      exact List.perm_middle
    refine ⟨hmove.suback, hmove.unsuback, hmove.distinct, ?_, ?_, ?_⟩
    · exact hperm.nodup_iff.mpr (List.nodup_cons.mpr ⟨hfresh, hs.nodup⟩)
    · intro c' hc' hid
      rcases List.mem_cons.mp (hperm.mem_iff.mp hid) with he | hwire
      · have hne : c' = c := hmove.distinct c' c (by rcases hc' with h | h <;> rw [h] <;> rfl)
          (by simp [SubscribePc.holdsId]) (by simpa using he)
        subst hne
        simp at hc'
      · exact hmove.unsent c' hc' hwire
    · intro p hp c' hc' hid
      rcases List.mem_append.mp hp with hp | hp
      · exact hmove.own p hp c' hc' hid
      · obtain rfl := List.mem_singleton.mp hp
        have hne : c' = c := hmove.distinct c' c hc' (by simp [SubscribePc.holdsId])
          (by simpa using hid)
        subst hne
        simp

theorem register_calls (s : SubscribeState κ) (c : ℕ) : (s.register c).calls = s.calls := by
  unfold SubscribeState.register
  split <;> rfl

theorem register_promises (hs : IdsFit s) (hpc : (s.client.calls c).pc = .register) :
    (s.client.register c).promises = Function.update s.client.promises c .pending := by
  obtain ⟨hfree, hfree'⟩ := hs.register_free hpc
  unfold SubscribeState.register
  split
  · rw [Pending.resolve_of_none hfree]
  · rw [Pending.resolve_of_none hfree']

theorem register (hs : IdsFit s) (hpc : (s.client.calls c).pc = .register) :
    IdsFit { s with client := (s.client.register c).goto c .send } := by
  have hcalls := register_calls s.client c
  have hself : ((s.client.register c).goto c .send).calls c =
      { s.client.calls c with pc := .send } := by
    rw [SubscribeState.goto_self, hcalls]
  have hother : ∀ c', c' ≠ c →
      ((s.client.register c).goto c .send).calls c' = s.client.calls c' := fun c' hne => by
    rw [← hcalls]
    exact Function.update_of_ne hne ..
  have hpromise := hs.register_promises hpc
  have hne : ∀ id c',
      s.client.pendingSubacks id = some c' ∨ s.client.pendingUnsubacks id = some c' → c' ≠ c := by
    rintro id c' (h | h) rfl
    · simpa [hpc, SubscribePc.holdsEntry] using (hs.suback id c' h).2.2.1
    · simpa [hpc, SubscribePc.holdsEntry] using (hs.unsuback id c' h).2.2.1
  have hkeep : ∀ c', c' ≠ c →
      ((s.client.register c).goto c .send).promises c' = s.client.promises c' := fun c' h => by
    change (s.client.register c).promises c' = _
    rw [hpromise, Function.update_of_ne h]
  have hnew : ((s.client.register c).goto c .send).promises c = .pending := by
    change (s.client.register c).promises c = _
    rw [hpromise, Function.update_self]
  refine hs.update hself hother (fun id c' h => ?_) (fun id c' h => ?_) rfl rfl
    (fun _ => .inr ⟨?_, rfl, rfl⟩) (fun _ => .inr ⟨.inl hpc, rfl⟩)
  · change (s.client.register c).pendingSubacks id = some c' at h
    cases hr : (s.client.calls c).req.subscribes with
    | true =>
      simp only [SubscribeState.register, hr, if_true] at h
      rcases Pending.of_put h with ⟨rfl, rfl⟩ | hold
      · exact .inl ⟨rfl, rfl, rfl, rfl, hnew⟩
      · exact .inr ⟨hne id c' (.inl hold), hold, hkeep c' (hne id c' (.inl hold))⟩
    | false =>
      simp only [SubscribeState.register, hr, Bool.false_eq_true, if_false] at h
      exact .inr ⟨hne id c' (.inl h), h, hkeep c' (hne id c' (.inl h))⟩
  · change (s.client.register c).pendingUnsubacks id = some c' at h
    cases hr : (s.client.calls c).req.subscribes with
    | true =>
      simp only [SubscribeState.register, hr, if_true] at h
      exact .inr ⟨hne id c' (.inr h), h, hkeep c' (hne id c' (.inr h))⟩
    | false =>
      simp only [SubscribeState.register, hr, Bool.false_eq_true, if_false] at h
      rcases Pending.of_put h with ⟨rfl, rfl⟩ | hold
      · exact .inl ⟨rfl, rfl, rfl, rfl, hnew⟩
      · exact .inr ⟨hne id c' (.inr hold), hold, hkeep c' (hne id c' (.inr hold))⟩
  · rw [hpc]
    rfl

theorem eraseEntry_calls (s : SubscribeState κ) (c : ℕ) : (s.eraseEntry c).calls = s.calls := by
  unfold SubscribeState.eraseEntry
  split <;> rfl

/-- A call that erases the entry at its identifier touches no promise but its own. -/
theorem eraseEntry_promises (hs : IdsFit s) (hpc : (s.client.calls c).pc.holdsId = true)
    (hne : c' ≠ c) : (s.client.eraseEntry c).promises c' = s.client.promises c' := by
  unfold SubscribeState.eraseEntry
  split
  · exact Pending.resolve_of_ne fun h => hne (hs.entry_own hpc (.inl h))
  · exact Pending.resolve_of_ne fun h => hne (hs.entry_own hpc (.inr h))

/-- The entry of a call that erases it is gone, the others are there. -/
theorem eraseEntry_entries (hs : IdsFit s) (hpc : (s.client.calls c).pc.holdsId = true) :
    (∀ id c', (s.client.eraseEntry c).pendingSubacks id = some c' ↔
      c' ≠ c ∧ s.client.pendingSubacks id = some c') ∧
    ∀ id c', (s.client.eraseEntry c).pendingUnsubacks id = some c' ↔
      c' ≠ c ∧ s.client.pendingUnsubacks id = some c' := by
  cases hr : (s.client.calls c).req.subscribes with
  | true =>
    have hno : ∀ id, s.client.pendingUnsubacks id ≠ some c := fun id h => by
      simpa [hr] using (hs.unsuback id c h).2.1
    simp only [SubscribeState.eraseEntry, hr, if_true]
    refine ⟨fun id c' => ?_, fun id c' => ⟨fun h => ⟨?_, h⟩, And.right⟩⟩
    · exact Pending.remove_iff (fun id h => (hs.suback id c h).1.symm)
        fun c' h => hs.entry_own hpc (.inl h)
    · rintro rfl
      exact hno id h
  | false =>
    have hno : ∀ id, s.client.pendingSubacks id ≠ some c := fun id h => by
      simpa [hr] using (hs.suback id c h).2.1
    simp only [SubscribeState.eraseEntry, hr, Bool.false_eq_true, if_false]
    refine ⟨fun id c' => ⟨fun h => ⟨?_, h⟩, And.right⟩, fun id c' => ?_⟩
    · rintro rfl
      exact hno id h
    · exact Pending.remove_iff (fun id h => (hs.unsuback id c h).1.symm)
        fun c' h => hs.entry_own hpc (.inr h)

theorem eraseEntry (hs : IdsFit s) {cause : FailureCause} {pc : SubscribePc}
    (hpc : (s.client.calls c).pc = .eraseEntry cause) (hpc' : pc.holdsId = false) :
    IdsFit { s with client := (s.client.eraseEntry c).goto c pc } := by
  have hholds : (s.client.calls c).pc.holdsId = true := by rw [hpc]; rfl
  obtain ⟨hsub, hunsub⟩ := hs.eraseEntry_entries hholds
  have hself : ((s.client.eraseEntry c).goto c pc).calls c =
      { s.client.calls c with pc := pc } := by
    rw [SubscribeState.goto_self, eraseEntry_calls]
  refine hs.update hself (fun c' hne => ?_) (fun id c' h => .inr ?_) (fun id c' h => .inr ?_) rfl
    rfl (by simp [hpc']) fun h => ?_
  · rw [← eraseEntry_calls s.client c]
    exact Function.update_of_ne hne ..
  · obtain ⟨hne, hold⟩ := (hsub id c').mp h
    exact ⟨hne, hold, hs.eraseEntry_promises hholds hne⟩
  · obtain ⟨hne, hold⟩ := (hunsub id c').mp h
    exact ⟨hne, hold, hs.eraseEntry_promises hholds hne⟩
  · rcases h with rfl | rfl <;> simp [SubscribePc.holdsId] at hpc'

end IdsFit

/-! ## Answers -/

theorem parseSuback_body (id : UInt16) (rc : UInt8) :
    parseSuback (BrokerAnswer.suback id rc).body = .ok ⟨id, [rc]⟩ := by
  have hid : u16At (BrokerAnswer.suback id rc).body 0
      (by simp [BrokerAnswer.body, appendU16]) = id :=
    u16At_of_drop _ (show List.drop 0 _ = u16Bytes id ++ [rc] from rfl)
  unfold parseSuback
  rw [dif_neg (by simp [BrokerAnswer.body, appendU16]), hid]
  rfl

theorem parsePacketId_body (id : UInt16) : parsePacketId (BrokerAnswer.unsuback id).body = id := by
  unfold parsePacketId
  rw [dif_neg (by simp [BrokerAnswer.body, appendU16])]
  exact u16At_of_drop _ (show List.drop 0 _ = u16Bytes id ++ [] from rfl)

theorem SubscribeState.handleSuback_body (s : SubscribeState κ) (id : UInt16) (rc : UInt8) :
    s.handleSuback (BrokerAnswer.suback id rc).body = { s with
      promises := Pending.resolve s.pendingSubacks s.promises id fun _ => .answered rc
      pendingSubacks := Function.update s.pendingSubacks id none } := by
  unfold handleSuback
  rw [parseSuback_body]
  rfl

theorem SubscribeState.handleUnsuback_body (s : SubscribeState κ) (id : UInt16) :
    s.handleUnsuback (BrokerAnswer.unsuback id).body = { s with
      promises := Pending.resolve s.pendingUnsubacks s.promises id fun _ => .answered 0
      pendingUnsubacks := Function.update s.pendingUnsubacks id none } := by
  unfold handleUnsuback
  rw [parsePacketId_body]

namespace IdsFit

/-- Without packets under way, nothing of the calls but their entries may change. -/
theorem drop (hs : IdsFit s) (hclient : s'.client = s.client) (hup : s'.toBroker = [])
    (hdown : s'.toClient = []) : IdsFit s' := by
  have hwire : s'.wireIds = [] := by rw [BrokerState.wireIds, hup, hdown]; rfl
  refine hs.frame (by rw [hclient]) (fun id c h => ?_) (fun id c h => ?_) ?_ ?_ ?_
  · rw [hclient] at h ⊢
    exact ⟨h, rfl⟩
  · rw [hclient] at h ⊢
    exact ⟨h, rfl⟩
  · simp [hwire]
  · simp [hwire]
  · simp [hup]

theorem handle (hs : IdsFit s) {p : BrokerRequest} {rest : List BrokerRequest}
    (h : s.toBroker = p :: rest) (rc : UInt8) : IdsFit (s.handle rc p rest) := by
  have hperm : (s.handle rc p rest).wireIds.Perm s.wireIds := by
    have hid : (p.answer rc).id = p.id := by cases p <;> rfl
    simp only [BrokerState.wireIds, BrokerState.handle, h, List.map_append, List.map_cons,
      List.map_nil, hid, List.cons_append, ← List.append_assoc]
    exact List.perm_append_singleton ..
  refine hs.frame rfl (fun _ _ h => ⟨h, rfl⟩) (fun _ _ h => ⟨h, rfl⟩)
    (hperm.nodup_iff.mpr hs.nodup) (fun id hid => .inl (hperm.mem_iff.mp hid)) fun p' hp => .inl ?_
  rw [h]
  exact List.mem_cons_of_mem _ hp

theorem failAllAcks (hs : IdsFit s) :
    IdsFit { s with client := s.client.failAllAcks, leaving := s.leaving - 1 } :=
  hs.frame rfl nofun nofun hs.nodup (fun _ h => .inl h) fun _ h => .inl h

/-- An answer takes an entry with it, and touches the promise of its owner. -/
theorem receive (hs : IdsFit s) {a : BrokerAnswer} {rest : List BrokerAnswer}
    (h : s.toClient = a :: rest) : IdsFit (s.receive a rest) := by
  have hsub : s.wireIds = s.toBroker.map BrokerRequest.id ++ a.id :: rest.map BrokerAnswer.id := by
    rw [BrokerState.wireIds, h]
    rfl
  have hsublist : (s.receive a rest).wireIds.Sublist s.wireIds := by
    rw [hsub]
    exact (List.sublist_cons_self _ _).append_left _
  cases a with
  | suback id rc =>
    have hclient : (s.receive (.suback id rc) rest).client = _ := s.client.handleSuback_body id rc
    refine hs.frame ?_ (fun id' c' h' => ?_) (fun id' c' h' => ?_) (hsublist.nodup hs.nodup)
      (fun _ hid => .inl (hsublist.subset hid)) fun _ hp => .inl hp
    · rw [hclient]
    · rw [hclient] at h' ⊢
      dsimp only at h' ⊢
      have hold := Pending.of_remove h'
      refine ⟨hold, Pending.resolve_of_ne fun hc' => ?_⟩
      rw [← (hs.suback id' c' hold).1, (hs.suback id c' hc').1, Function.update_self] at h'
      contradiction
    · rw [hclient] at h' ⊢
      dsimp only at h' ⊢
      refine ⟨h', Pending.resolve_of_ne fun hc' => ?_⟩
      simpa [(hs.unsuback id' c' h').2.1] using (hs.suback id c' hc').2.1
  | unsuback id =>
    have hclient : (s.receive (.unsuback id) rest).client = _ := s.client.handleUnsuback_body id
    refine hs.frame ?_ (fun id' c' h' => ?_) (fun id' c' h' => ?_) (hsublist.nodup hs.nodup)
      (fun _ hid => .inl (hsublist.subset hid)) fun _ hp => .inl hp
    · rw [hclient]
    · rw [hclient] at h' ⊢
      dsimp only at h' ⊢
      refine ⟨h', Pending.resolve_of_ne fun hc' => ?_⟩
      simpa [(hs.suback id' c' h').2.1] using (hs.unsuback id c' hc').2.1
    · rw [hclient] at h' ⊢
      dsimp only at h' ⊢
      have hold := Pending.of_remove h'
      refine ⟨hold, Pending.resolve_of_ne fun hc' => ?_⟩
      rw [← (hs.unsuback id' c' hold).1, (hs.unsuback id c' hc').1, Function.update_self] at h'
      contradiction

theorem resend (hs : IdsFit s) {todo : List Bytes} {topic : Bytes} {qos : ℤ} {ok : Bool}
    (hfresh : s.FreshId (allocPacketId s.client.nextPacketId).1) :
    IdsFit (s.resend todo topic qos ok) := by
  have hperm : (s.resend todo topic qos ok).wireIds.Perm
      ((if ok then [(allocPacketId s.client.nextPacketId).1] else []) ++ s.wireIds) := by
    cases ok with
    | true =>
      simp only [BrokerState.wireIds, BrokerState.resend, if_true, List.map_append, List.map_cons,
        List.map_nil, BrokerRequest.id, List.append_assoc, List.singleton_append]
      exact List.perm_middle
    | false => simp [BrokerState.wireIds, BrokerState.resend]
  refine hs.frame rfl (fun _ _ h => ⟨h, rfl⟩) (fun _ _ h => ⟨h, rfl⟩) ?_ (fun id hid => ?_)
    fun p hp => ?_
  · rw [hperm.nodup_iff]
    cases ok with
    | true => exact List.nodup_cons.mpr ⟨hfresh.2, hs.nodup⟩
    | false => exact hs.nodup
  · rcases List.mem_append.mp (hperm.mem_iff.mp hid) with hnew | hold
    · cases ok with
      | true => exact .inr (List.mem_singleton.mp hnew ▸ hfresh)
      | false => simp at hnew
    · exact .inl hold
  · rcases List.mem_append.mp hp with hold | hnew
    · exact .inl hold
    · cases ok with
      | true => exact .inr (List.mem_singleton.mp hnew ▸ hfresh)
      | false => simp at hnew

/-- A call that goes on with nothing but its point, and has no more need of its identifier. -/
theorem leave (hs : IdsFit s) {pc : SubscribePc} {client : SubscribeState κ}
    (hself : client.calls c = { s.client.calls c with pc := pc })
    (hother : ∀ c', c' ≠ c → client.calls c' = s.client.calls c')
    (hsub : client.pendingSubacks = s.client.pendingSubacks)
    (hunsub : client.pendingUnsubacks = s.client.pendingUnsubacks)
    (hprom : client.promises = s.client.promises)
    (hentry : (s.client.calls c).pc.holdsEntry = true → s.client.promises c = .pending →
      pc.holdsEntry = true)
    (hid : pc.holdsId = true → (s.client.calls c).pc.holdsId = true)
    (hunsent : pc ≠ .register ∧ pc ≠ .send) : IdsFit { s with client := client } := by
  refine hs.move hself hother hsub hunsub hprom rfl rfl (fun hpc hp => ⟨hentry hpc hp, rfl, rfl⟩)
    (fun hpc => .inr ⟨hid hpc, rfl, rfl⟩) fun h => ?_
  rcases h with h | h
  · exact absurd h hunsent.1
  · exact absurd h hunsent.2

end IdsFit

/-- Every identifier drawn is a fresh one. -/
def BrokerState.DrawsFresh (s : BrokerState κ) : BrokerLabel κ → Prop
  | .call (.fetch c) => ((s.client.calls c).pc = .fetch → s.client.nextPacketId ≠ 0) →
      s.FreshId s.client.nextPacketId
  | .resend _ _ => s.FreshId (allocPacketId s.client.nextPacketId).1
  | _ => True

theorem SubscribeRequest.afterGet_holdsId {r : SubscribeRequest κ} {p : AckPromise}
    {pc : SubscribePc} (h : r.afterGet p = some pc) : pc.holdsId = false ∧ p ≠ .pending := by
  cases p with
  | unset => simp [afterGet] at h
  | pending => simp [afterGet] at h
  | broken =>
    obtain rfl := Option.some.inj h
    exact ⟨rfl, by simp⟩
  | answered rc =>
    simp only [afterGet] at h
    split_ifs at h
    all_goals
      obtain rfl := Option.some.inj h
      exact ⟨rfl, by simp⟩
  | lost =>
    simp only [afterGet] at h
    split_ifs at h
    all_goals
      obtain rfl := Option.some.inj h
      exact ⟨rfl, by simp⟩

namespace IdsFit

theorem call (hs : IdsFit s) {l : SubscribeLabel κ} {client : SubscribeState κ}
    (hallows : s.allows l = true) (hfresh : s.DrawsFresh (.call l))
    (hstep : subscribeStep s.client l = some client) :
    IdsFit { s with client := client, toBroker := s.toBroker ++ s.sends l } := by
  have hother : ∀ {c : ℕ} {k : SubscribeCall κ} (c'), c' ≠ c →
      (s.client.setCall c k).calls c' = s.client.calls c' := fun c' hne =>
    Function.update_of_ne hne ..
  cases SubscribeStep.of_eq hstep with
  | begin c req hpc =>
    simp only [BrokerState.sends, List.append_nil]
    exact hs.move (SubscribeState.setCall_self _) hother rfl rfl rfl rfl rfl
      (by simp [hpc, SubscribePc.holdsEntry]) (by simp [SubscribePc.holdsId]) (by simp)
  | table c hpc =>
    simp only [BrokerState.sends, List.append_nil]
    exact hs.leave (SubscribeState.goto_self _) hother rfl rfl rfl
      (by simp [hpc, SubscribePc.holdsEntry]) (by simp [SubscribePc.holdsId]) (by simp)
  | check c connected hpc =>
    simp only [BrokerState.sends, List.append_nil]
    refine hs.leave (SubscribeState.goto_self _) hother rfl rfl rfl
      (by simp [hpc, SubscribePc.holdsEntry]) ?_ ?_
    · split_ifs <;> simp [SubscribePc.holdsId]
    · split_ifs <;> simp
  | fetch c hpc =>
    simp only [BrokerState.sends, List.append_nil]
    have hnew : s.client.nextPacketId ≠ 0 → s.FreshId s.client.nextPacketId := fun h =>
      hfresh fun _ => h
    refine hs.move (Function.update_self ..) hother rfl rfl rfl rfl rfl
      (by simp [hpc, SubscribePc.holdsEntry]) (fun h => .inl (hnew fun h0 => ?_))
      fun h => .inl (hnew fun h0 => ?_)
    · simp [h0, SubscribePc.holdsId] at h
    · simp [h0] at h
  | refetch c hpc =>
    simp only [BrokerState.sends, List.append_nil]
    have hnew : s.FreshId s.client.nextPacketId := hfresh (by simp [hpc])
    exact hs.move (Function.update_self ..) hother rfl rfl rfl rfl rfl
      (by simp [hpc, SubscribePc.holdsEntry]) (fun _ => .inl hnew) fun _ => .inl hnew
  | register c hpc =>
    simp only [BrokerState.sends, List.append_nil]
    exact hs.register hpc
  | sent c hpc =>
    refine hs.sent hpc ?_
    rw [BrokerState.sends]
    split_ifs
    · exact .inr rfl
    · exact .inl rfl
  | sendFailed c message hpc =>
    simp only [BrokerState.sends, List.append_nil]
    exact hs.leave (SubscribeState.goto_self _) hother rfl rfl rfl (fun _ _ => rfl)
      (fun _ => by rw [hpc]; rfl) (by simp)
  | timeout c hpc hp =>
    simp only [BrokerState.sends, List.append_nil]
    exact hs.leave (SubscribeState.goto_self _) hother rfl rfl rfl (fun _ _ => rfl)
      (fun _ => by rw [hpc]; rfl) (by simp)
  | get c pc hpc hget =>
    simp only [BrokerState.sends, List.append_nil]
    obtain ⟨hpc', hp⟩ := SubscribeRequest.afterGet_holdsId hget
    refine hs.leave (SubscribeState.goto_self _) hother rfl rfl rfl (fun _ h => absurd h hp)
      (by simp [hpc']) ?_
    constructor <;> rintro rfl <;> simp [SubscribePc.holdsId] at hpc'
  | eraseEntry c cause hpc =>
    simp only [BrokerState.sends, List.append_nil]
    exact hs.eraseEntry hpc (by split_ifs <;> rfl)
  | eraseTopic c cause hpc =>
    simp only [BrokerState.sends, List.append_nil]
    exact hs.leave (SubscribeState.goto_self _) hother rfl rfl rfl
      (by simp [hpc, SubscribePc.holdsEntry]) (by simp [SubscribePc.holdsId]) (by simp)
  | suback body => simp [BrokerState.allows] at hallows
  | unsuback body => simp [BrokerState.allows] at hallows
  | failAllAcks => simp [BrokerState.allows] at hallows

end IdsFit

/-- A step of a call leaves the other calls alone. -/
theorem subscribeStep_calls_of_ne {s s' : SubscribeState κ} {l : SubscribeLabel κ}
    (hl : l.call = some c) (hstep : subscribeStep s l = some s') (hne : c' ≠ c) :
    s'.calls c' = s.calls c' := by
  cases SubscribeStep.of_eq hstep with
  | register c₀ hpc =>
    obtain rfl := Option.some.inj hl
    exact (Function.update_of_ne hne ..).trans (by rw [IdsFit.register_calls])
  | eraseEntry c₀ cause hpc =>
    obtain rfl := Option.some.inj hl
    exact (Function.update_of_ne hne ..).trans (by rw [IdsFit.eraseEntry_calls])
  | suback body => simp [SubscribeLabel.call] at hl
  | unsuback body => simp [SubscribeLabel.call] at hl
  | failAllAcks => simp [SubscribeLabel.call] at hl
  | _ =>
    obtain rfl := Option.some.inj hl
    exact Function.update_of_ne hne ..

/-- It leaves their promises and entries alone, too. -/
theorem IdsFit.others (hs : IdsFit s) {l : SubscribeLabel κ} {client : SubscribeState κ}
    (hl : l.call = some c) (hstep : subscribeStep s.client l = some client) (hne : c' ≠ c) :
    client.promises c' = s.client.promises c' ∧
      ∀ id, s.client.pendingSubacks id = some c' → client.pendingSubacks id = some c' := by
  cases SubscribeStep.of_eq hstep with
  | register c₀ hpc =>
    obtain rfl := Option.some.inj hl
    refine ⟨?_, fun id h => ?_⟩
    · change (s.client.register c₀).promises c' = _
      rw [hs.register_promises hpc, Function.update_of_ne hne]
    · change (s.client.register c₀).pendingSubacks id = _
      unfold SubscribeState.register
      split
      · refine (Function.update_of_ne ?_ ..).trans h
        rintro rfl
        simp [(hs.register_free hpc).1] at h
      · exact h
  | eraseEntry c₀ cause hpc =>
    obtain rfl := Option.some.inj hl
    have hholds : (s.client.calls c₀).pc.holdsId = true := by rw [hpc]; rfl
    exact ⟨hs.eraseEntry_promises hholds hne,
      fun id h => ((hs.eraseEntry_entries hholds).1 id c').mpr ⟨hne, h⟩⟩
  | suback body => simp [SubscribeLabel.call] at hl
  | unsuback body => simp [SubscribeLabel.call] at hl
  | failAllAcks => simp [SubscribeLabel.call] at hl
  | _ => exact ⟨rfl, fun _ h => h⟩

/-! ## The connection -/

/-- What holds of the connection whatever happens to the filters. -/
structure LinkFits (s : BrokerState κ) : Prop where
  ids : IdsFit s
  connected : s.connect = .table ∨ s.connect.locks = true → s.state = .connected
  listening : s.recv = .running → s.connect = .idle ∧ s.state = .connected
  ended : s.session = false → s.filters = ∅ ∧ s.toBroker = []

namespace LinkFits

theorem initial : LinkFits ({} : BrokerState κ) :=
  ⟨IdsFit.initial, by simp [ConnectPhase.locks], by simp, fun _ => ⟨rfl, rfl⟩⟩

theorem call (hs : LinkFits s) {l : SubscribeLabel κ} {client : SubscribeState κ}
    (hfresh : s.DrawsFresh (.call l)) (hallows : s.allows l = true)
    (hstep : subscribeStep s.client l = some client) :
    LinkFits { s with client := client, toBroker := s.toBroker ++ s.sends l } := by
  refine ⟨hs.ids.call hallows hfresh hstep, hs.connected, hs.listening, fun h => ?_⟩
  obtain ⟨hfilters, hup⟩ := hs.ended h
  have hsends : s.sends l = [] := by
    unfold BrokerState.sends
    split
    · exact if_neg (by rw [show s.session = false from h]; simp)
    · rfl
  exact ⟨hfilters, by simp [hup, hsends]⟩

/-- The session is gone. -/
theorem dropped (hs : LinkFits s) (hclient : s'.client = s.client) (hfilters : s'.filters = ∅)
    (hup : s'.toBroker = []) (hdown : s'.toClient = []) (hrecv : s'.recv ≠ .running)
    (hphase : s'.connect = .idle ∨ s'.connect = .handshake) : LinkFits s' := by
  refine ⟨hs.ids.drop hclient hup hdown, fun h => ?_, fun h => absurd h hrecv,
    fun _ => ⟨hfilters, hup⟩⟩
  rcases hphase with hc | hc <;> simp [hc, ConnectPhase.locks] at h

/-- `connect` goes on. -/
theorem advance (hs : LinkFits s) (hclient : s'.client = s.client)
    (hup : s'.toBroker = s.toBroker) (hdown : s'.toClient = s.toClient)
    (hstate : s'.state = .connected) (hlistening : s'.recv = .running → s'.connect = .idle) :
    LinkFits s' := by
  have hwire : s'.wireIds = s.wireIds := by rw [BrokerState.wireIds, hup, hdown]; rfl
  refine ⟨?_, fun _ => hstate, fun h => ⟨hlistening h, hstate⟩, fun h => ?_⟩
  · refine hs.ids.frame (by rw [hclient]) ?_ ?_ (hwire ▸ hs.ids.nodup)
      (fun id h => .inl (hwire ▸ h)) fun p h => .inl (hup ▸ h)
    · rw [hclient]
      exact fun _ _ h => ⟨h, rfl⟩
    · rw [hclient]
      exact fun _ _ h => ⟨h, rfl⟩
  · simp [BrokerState.session, hstate] at h

theorem step (hs : LinkFits s) {l : BrokerLabel κ} (hfresh : s.DrawsFresh l)
    (hstep : brokerStep s l = some s') : LinkFits s' := by
  cases BrokerStep.of_eq hstep with
  | call l client hallows hcall => exact hs.call hfresh hallows hcall
  | handle rc p rest hup =>
    refine ⟨hs.ids.handle hup rc, hs.connected, hs.listening, fun h => ?_⟩
    have hnil := (hs.ended h).2
    simp [hup] at hnil
  | receive a rest _ hdown =>
    exact ⟨hs.ids.receive hdown, hs.connected, hs.listening, hs.ended⟩
  | lose hrecv => exact hs.dropped rfl rfl rfl rfl (by simp) (.inl (hs.listening hrecv).1)
  | failAllAcks => exact ⟨hs.ids.failAllAcks, hs.connected, hs.listening, hs.ended⟩
  | disconnect hidle => exact hs.dropped rfl rfl rfl rfl (by simp) (.inl hidle)
  | dial hidle hstate =>
    exact hs.dropped rfl rfl rfl rfl (fun h => hstate (hs.listening h).2) (.inr rfl)
  | accepted hconnect =>
    refine hs.advance rfl rfl rfl rfl fun h => ?_
    simp [(hs.listening h).1] at hconnect
  | refused hconnect =>
    refine hs.dropped rfl rfl rfl rfl (fun h => ?_) (.inl rfl)
    simp [(hs.listening h).1] at hconnect
  | table hconnect =>
    refine hs.advance rfl rfl rfl (hs.connected (.inl hconnect)) fun h => ?_
    simp [(hs.listening h).1] at hconnect
  | resend todo topic sub ok hconnect hsub =>
    have hstate := hs.connected (.inr (by rw [hconnect]; rfl))
    refine ⟨hs.ids.resend hfresh, fun _ => hstate, fun h => ?_, fun h => ?_⟩
    · simp [(hs.listening h).1] at hconnect
    · simp [BrokerState.session, BrokerState.resend] at h
  | listen hconnect =>
    exact hs.advance rfl rfl rfl (hs.connected (.inr (by rw [hconnect]; rfl))) fun _ => rfl

end LinkFits

end MqttNativeSocket
