import MqttNativeSocket.Subscriber.Agreement
import MqttNativeSocket.Subscriber.Batches
import MqttNativeSocket.Transport.Delivery

/-! # What a request reports

The subscriber and its broker once more, with a note of whose packet each packet
under way is or answers, and of what the broker has said to each call. As long as
identifiers are drawn fresh, a call that succeeds while Connected has had its
answer, and a `subscribe` a grant. It reports a refusal if it was refused on its
own packet, or if the loss of the connection has failed its promise.
-/

namespace MqttNativeSocket

variable {κ : Type}

/--
`up` and `down` name the calls whose packets are on their way to the broker, and whose answers are
on their way back; a packet of `resubscribeAll` is nobody's. `offline` tells the calls that found
the client not Connected, and `verdicts` what the broker has answered to each.
-/
structure VerdictState (κ : Type) where
  link : BrokerState κ := {}
  up : List (Option ℕ) := []
  down : List (Option ℕ) := []
  offline : ℕ → Bool := fun _ => false
  verdicts : ℕ → List UInt8 := fun _ => []

namespace VerdictState

def call (v : VerdictState κ) (c : ℕ) : SubscribeCall κ := v.link.client.calls c

/-- The verdict on a packet is one for its owner. -/
def record (v : VerdictState κ) (owner : Option ℕ) (returnCode : UInt8) (c : ℕ) : List UInt8 :=
  if owner = some c then v.verdicts c ++ [returnCode] else v.verdicts c

/-- The notes after a step to `link`. -/
def note (v : VerdictState κ) (link : BrokerState κ) : BrokerLabel κ → VerdictState κ
  | .call l => { v with
      link := link
      up := v.up ++ (v.link.sends l).map fun _ => l.call
      offline := match l with
        | .check c false => Function.update v.offline c true
        | _ => v.offline }
  | .handle rc => { v with
      link := link
      up := v.up.tail
      down := v.down ++ v.up.take 1
      verdicts := v.record v.up.head?.join rc }
  | .receive => { v with link := link, down := v.down.tail }
  | .resend _ ok => { v with link := link, up := v.up ++ if ok then [none] else [] }
  | .lose | .disconnect | .dial | .refused => { v with link := link, up := [], down := [] }
  | .failAllAcks | .accepted | .table | .listen => { v with link := link }

end VerdictState

def verdictStep (v : VerdictState κ) (l : BrokerLabel κ) : Option (VerdictState κ) :=
  (brokerStep v.link l).map fun link => v.note link l

/-- The points at which a call has sent its packet, or has nothing to send. -/
def SubscribePc.sent : SubscribePc → Bool
  | .wait => true
  | .eraseEntry _ => true
  | .eraseTopic _ => true
  | .done => true
  | .failed _ => true
  | .broken => true
  | _ => false

/-- On its way to report that the broker refused. -/
def SubscribePc.rejected : SubscribePc → Bool
  | .eraseEntry .rejected => true
  | .eraseTopic .rejected => true
  | .failed .rejected => true
  | _ => false

/-! ## One step of a call -/

/-- What a step of call `c` can do to the call, its promise and the packets under way. -/
structure CallMoves (s : BrokerState κ) (l : SubscribeLabel κ) (c : ℕ)
    (client : SubscribeState κ) : Prop where
  sent : (s.client.calls c).pc.sent = true →
    (client.calls c).pc.sent = true ∧ (client.calls c).packet = (s.client.calls c).packet
  holds : (client.calls c).pc.holdsId = true →
    (s.client.calls c).pc.holdsId = true ∧ (client.calls c).id = (s.client.calls c).id ∨
      s.FreshId (client.calls c).id
  promises : ∀ c' rc, client.promises c' = .answered rc → s.client.promises c' = .answered rc
  done : (client.calls c).pc = .done → l = .check c false ∨ ∃ rc,
    s.client.promises c = .answered rc ∧ ((client.calls c).req.subscribes = true → rc ≠ 0x80)
  rejected : (client.calls c).pc.rejected = true → (s.client.calls c).pc.rejected = true ∨
    s.client.promises c = .answered 0x80 ∧ (client.calls c).req.subscribes = true
  sends : s.sends l = [] ∨ s.sends l = [(client.calls c).packet] ∧
    (s.client.calls c).pc = .send ∧ (client.calls c).pc.sent = true ∧
      (client.calls c).pc.holdsId = true

variable {s : BrokerState κ} {l : SubscribeLabel κ} {client : SubscribeState κ} {c c' : ℕ}

theorem SubscribeCall.packet_congr {k k' : SubscribeCall κ} (hreq : k.req = k'.req)
    (hid : k.id = k'.id) : k.packet = k'.packet := by
  unfold packet
  rw [hreq, hid]

theorem answered_of_drop {p : AckPromise} {rc : UInt8} (h : p.drop = .answered rc) :
    p = .answered rc := by
  cases p <;> simp_all [AckPromise.drop]

theorem answered_of_resolve {entries : UInt16 → Option ℕ} {promises : ℕ → AckPromise}
    {id : UInt16} {rc : UInt8}
    (h : Pending.resolve entries promises id AckPromise.drop c = .answered rc) :
    promises c = .answered rc := by
  by_cases hc : entries id = some c
  · rw [Pending.resolve_owner hc] at h
    exact answered_of_drop h
  · rwa [Pending.resolve_of_ne hc] at h

theorem answered_of_register {s : SubscribeState κ} {rc : UInt8}
    (h : (s.register c).promises c' = .answered rc) : s.promises c' = .answered rc := by
  have hother : ∀ {entries : UInt16 → Option ℕ}, Function.update (Pending.resolve entries
      s.promises (s.calls c).id AckPromise.drop) c .pending c' = .answered rc →
      s.promises c' = .answered rc := by
    intro entries h
    by_cases hc : c' = c
    · rw [hc, Function.update_self] at h
      contradiction
    · rw [Function.update_of_ne hc] at h
      exact answered_of_resolve h
  unfold SubscribeState.register at h
  split at h
  · exact hother h
  · exact hother h

theorem answered_of_eraseEntry {s : SubscribeState κ} {rc : UInt8}
    (h : (s.eraseEntry c).promises c' = .answered rc) : s.promises c' = .answered rc := by
  unfold SubscribeState.eraseEntry at h
  split at h
  · exact answered_of_resolve h
  · exact answered_of_resolve h

/-- A future brings success or a refusal only with an answer. -/
theorem SubscribeRequest.afterGet_answered {r : SubscribeRequest κ} {p : AckPromise}
    {pc : SubscribePc} (h : r.afterGet p = some pc) :
    pc.sent = true ∧
      (pc = .done → ∃ rc, p = .answered rc ∧ (r.subscribes = true → rc ≠ 0x80)) ∧
      (pc.rejected = true → p = .answered 0x80 ∧ r.subscribes = true) := by
  unfold afterGet at h
  split at h
  · contradiction
  · contradiction
  · next rc =>
    split at h
    · next hrej =>
      obtain rfl := Option.some.inj h
      exact ⟨rfl, nofun, fun _ => ⟨by rw [hrej.2], hrej.1⟩⟩
    · next hrej =>
      obtain rfl := Option.some.inj h
      exact ⟨rfl, fun _ => ⟨rc, rfl, fun hr he => hrej ⟨hr, he⟩⟩, nofun⟩
  · split at h
    · obtain rfl := Option.some.inj h
      exact ⟨rfl, nofun, nofun⟩
    · obtain rfl := Option.some.inj h
      exact ⟨rfl, nofun, nofun⟩
  · obtain rfl := Option.some.inj h
    exact ⟨rfl, nofun, nofun⟩

namespace CallMoves

/-- A step that only moves the call on, and sends nothing. -/
theorem of_goto {k : SubscribeCall κ} (hself : client.calls c = k)
    (hpromises : ∀ c' rc, client.promises c' = .answered rc → s.client.promises c' = .answered rc)
    (hsends : s.sends l = [])
    (hsent : (s.client.calls c).pc.sent = true →
      k.pc.sent = true ∧ k.req = (s.client.calls c).req ∧ k.id = (s.client.calls c).id)
    (hholds : k.pc.holdsId = true →
      (s.client.calls c).pc.holdsId = true ∧ k.id = (s.client.calls c).id ∨ s.FreshId k.id)
    (hdone : k.pc = .done → l = .check c false ∨ ∃ rc,
      s.client.promises c = .answered rc ∧ (k.req.subscribes = true → rc ≠ 0x80))
    (hrejected : k.pc.rejected = true → (s.client.calls c).pc.rejected = true ∨
      s.client.promises c = .answered 0x80 ∧ k.req.subscribes = true) :
    CallMoves s l c client := by
  subst hself
  refine ⟨fun h => ?_, hholds, hpromises, hdone, hrejected, .inl hsends⟩
  obtain ⟨hpc, hreq, hid⟩ := hsent h
  exact ⟨hpc, SubscribeCall.packet_congr hreq hid⟩

/-- The call does not come to an end with an answer. -/
theorem of_unanswered {k : SubscribeCall κ} (hself : client.calls c = k)
    (hpromises : ∀ c' rc, client.promises c' = .answered rc → s.client.promises c' = .answered rc)
    (hsends : s.sends l = [])
    (hsent : (s.client.calls c).pc.sent = true →
      k.pc.sent = true ∧ k.req = (s.client.calls c).req ∧ k.id = (s.client.calls c).id)
    (hholds : k.pc.holdsId = true →
      (s.client.calls c).pc.holdsId = true ∧ k.id = (s.client.calls c).id ∨ s.FreshId k.id)
    (hpc : k.pc ≠ .done ∧ k.pc.rejected = false) : CallMoves s l c client := by
  refine of_goto hself hpromises hsends hsent hholds (fun h => (hpc.1 h).elim) fun h => ?_
  rw [hpc.2] at h
  contradiction

theorem of_step (hfresh : s.DrawsFresh (.call l)) (hl : l.call = some c)
    (hstep : subscribeStep s.client l = some client) : CallMoves s l c client := by
  cases SubscribeStep.of_eq hstep with
  | begin c₀ req hpc =>
    obtain rfl := Option.some.inj hl
    apply of_unanswered (SubscribeState.setCall_self _) (fun _ _ h => h) rfl <;>
      simp [hpc, SubscribePc.sent, SubscribePc.holdsId, SubscribePc.rejected]
  | table c₀ hpc =>
    obtain rfl := Option.some.inj hl
    refine of_unanswered (SubscribeState.goto_self _) (fun _ _ h => h) rfl ?_ ?_ ?_ <;>
      simp [hpc, SubscribePc.sent, SubscribePc.holdsId, SubscribePc.rejected]
  | check c₀ connected hpc =>
    obtain rfl := Option.some.inj hl
    apply of_goto (SubscribeState.goto_self _) (fun _ _ h => h) rfl <;>
      cases connected <;> simp [hpc, SubscribePc.sent, SubscribePc.holdsId, SubscribePc.rejected]
  | fetch c₀ hpc =>
    obtain rfl := Option.some.inj hl
    refine of_unanswered (Function.update_self ..) (fun _ _ h => h) rfl ?_ (fun h => .inr ?_) ?_
    · simp [hpc, SubscribePc.sent]
    · refine hfresh fun _ h0 => ?_
      simp [h0, SubscribePc.holdsId] at h
    · dsimp only
      split_ifs <;> simp [SubscribePc.rejected]
  | refetch c₀ hpc =>
    obtain rfl := Option.some.inj hl
    refine of_unanswered (Function.update_self ..) (fun _ _ h => h) rfl ?_ (fun _ => .inr ?_) ?_
    · simp [hpc, SubscribePc.sent]
    · exact hfresh (by simp [hpc])
    · simp [SubscribePc.rejected]
  | register c₀ hpc =>
    obtain rfl := Option.some.inj hl
    have hself : ((s.client.register c₀).goto c₀ .send).calls c₀ =
        { s.client.calls c₀ with pc := .send } := by
      rw [SubscribeState.goto_self, IdsFit.register_calls]
    refine of_unanswered hself (fun _ _ h => answered_of_register h) rfl ?_ ?_ ?_ <;>
      simp [hpc, SubscribePc.sent, SubscribePc.holdsId, SubscribePc.rejected]
  | sent c₀ hpc =>
    obtain rfl := Option.some.inj hl
    have hself : (s.client.goto c₀ .wait).calls c₀ = { s.client.calls c₀ with pc := .wait } :=
      SubscribeState.goto_self _
    refine ⟨?_, ?_, fun _ _ h => h, ?_, ?_, ?_⟩
    · simp [hpc, SubscribePc.sent]
    · simp [hpc, SubscribePc.holdsId]
    · simp
    · simp [SubscribePc.rejected]
    · rw [BrokerState.sends, hself]
      split_ifs
      · exact .inr ⟨rfl, hpc, rfl, rfl⟩
      · exact .inl rfl
  | sendFailed c₀ message hpc =>
    obtain rfl := Option.some.inj hl
    apply of_unanswered (SubscribeState.goto_self _) (fun _ _ h => h) rfl <;>
      simp [hpc, SubscribePc.sent, SubscribePc.holdsId, SubscribePc.rejected]
  | timeout c₀ hpc hp =>
    obtain rfl := Option.some.inj hl
    apply of_unanswered (SubscribeState.goto_self _) (fun _ _ h => h) rfl <;>
      simp [hpc, SubscribePc.sent, SubscribePc.holdsId, SubscribePc.rejected]
  | get c₀ pc hpc hget =>
    obtain rfl := Option.some.inj hl
    obtain ⟨hsent, hdone, hrejected⟩ := SubscribeRequest.afterGet_answered hget
    refine of_goto (SubscribeState.goto_self _) (fun _ _ h => h) rfl (fun _ => ⟨hsent, rfl, rfl⟩)
      ?_ (fun h => .inr (hdone h)) fun h => .inr (hrejected h)
    simp [(SubscribeRequest.afterGet_holdsId hget).1]
  | eraseEntry c₀ cause hpc =>
    obtain rfl := Option.some.inj hl
    have hself : ∀ pc, ((s.client.eraseEntry c₀).goto c₀ pc).calls c₀ =
        { s.client.calls c₀ with pc := pc } := by
      intro pc
      rw [SubscribeState.goto_self, IdsFit.eraseEntry_calls]
    refine of_goto (hself _) (fun _ _ h => answered_of_eraseEntry h) rfl ?_ ?_ ?_ ?_
    · split_ifs <;> simp [SubscribePc.sent]
    · split_ifs <;> simp [SubscribePc.holdsId]
    · split_ifs <;> simp
    · rw [hpc]
      cases cause <;> split_ifs <;> simp [SubscribePc.rejected]
  | eraseTopic c₀ cause hpc =>
    obtain rfl := Option.some.inj hl
    refine of_goto (SubscribeState.goto_self _) (fun _ _ h => h) rfl ?_ ?_ ?_ ?_
    · simp [SubscribePc.sent]
    · simp [SubscribePc.holdsId]
    · simp
    · rw [hpc]
      cases cause <;> simp [SubscribePc.rejected]
  | suback body => simp [SubscribeLabel.call] at hl
  | unsuback body => simp [SubscribeLabel.call] at hl
  | failAllAcks => simp [SubscribeLabel.call] at hl

end CallMoves

/-! ## The invariant -/

variable {v v' : VerdictState κ} {link : BrokerState κ} {p : BrokerRequest} {a : BrokerAnswer}
  {o : Option ℕ} {rc : UInt8}

namespace VerdictState

/-- No call but the owner has the identifier. -/
def Owns (v : VerdictState κ) (id : UInt16) (o : Option ℕ) : Prop :=
  ∀ c, (v.call c).pc.holdsId = true → (v.call c).id = id → o = some c

/-- The owner has sent this packet and has no answer. -/
def OwnsRequest (v : VerdictState κ) (p : BrokerRequest) (o : Option ℕ) : Prop :=
  v.Owns p.id o ∧ ∀ c ∈ o, (v.call c).pc.sent = true ∧ (v.call c).packet = p ∧ v.verdicts c = []

/-- The answer carries the verdict on the packet of the owner. -/
def OwnsAnswer (v : VerdictState κ) (a : BrokerAnswer) (o : Option ℕ) : Prop :=
  v.Owns a.id o ∧ ∀ c ∈ o, (v.call c).pc.sent = true ∧
    ∃ rc, v.verdicts c = [rc] ∧ (v.call c).packet.answer rc = a

/-- What call `c` reports fits what the broker has told it. -/
structure Reports (v : VerdictState κ) (c : ℕ) : Prop where
  unsent : (v.call c).pc.sent = false → v.verdicts c = []
  once : (v.verdicts c).length ≤ 1
  told : ∀ rc, v.link.client.promises c = .answered rc →
    ∃ rc', v.verdicts c = [rc'] ∧ ((v.call c).req.subscribes = true → rc' = rc)
  done : (v.call c).pc = .done → v.offline c = true ∨
    ∃ rc, v.verdicts c = [rc] ∧ ((v.call c).req.subscribes = true → rc ≠ 0x80)
  rejected : (v.call c).pc.rejected = true → v.verdicts c = [0x80]

end VerdictState

open VerdictState

structure VerdictFits (v : VerdictState κ) : Prop where
  link : LinkFits v.link
  up : List.Forall₂ v.OwnsRequest v.link.toBroker v.up
  down : List.Forall₂ v.OwnsAnswer v.link.toClient v.down
  reports : ∀ c, v.Reports c

namespace VerdictFits

theorem initial : VerdictFits ({} : VerdictState κ) where
  link := LinkFits.initial
  up := .nil
  down := .nil
  reports _ :=
    { unsent := fun _ => rfl
      once := Nat.zero_le _
      told := nofun
      done := nofun
      rejected := nofun }

/-- The identifiers that calls have after a step, and the packets they have sent. -/
def Keeps (v v' : VerdictState κ) : Prop :=
  ∀ c, ((v'.call c).pc.holdsId = true → (v.call c).pc.holdsId = true ∧
      (v'.call c).id = (v.call c).id ∨ v.link.FreshId (v'.call c).id) ∧
    ((v.call c).pc.sent = true →
      (v'.call c).pc.sent = true ∧ (v'.call c).packet = (v.call c).packet)

theorem keeps_of_calls (h : v'.link.client.calls = v.link.client.calls) : Keeps v v' := by
  intro c
  have hc : v'.call c = v.call c := congrFun h c
  rw [hc]
  exact ⟨fun h => .inl ⟨h, rfl⟩, fun h => ⟨h, rfl⟩⟩

theorem owns_of_keeps (hk : Keeps v v') {id : UInt16} (hid : id ∈ v.link.wireIds)
    (h : v.Owns id o) : v'.Owns id o := by
  intro c hholds heq
  rcases (hk c).1 hholds with ⟨hold, hsame⟩ | hfresh
  · exact h c hold (hsame.symm.trans heq)
  · exact (hfresh.2 (heq ▸ hid)).elim

theorem up_of_keeps (hv : VerdictFits v) (hk : Keeps v v') (hverdicts : v'.verdicts = v.verdicts) :
    List.Forall₂ v'.OwnsRequest v.link.toBroker v.up := by
  have hids : ∀ p ∈ v.link.toBroker, p.id ∈ v.link.wireIds := fun p hp =>
    v.link.id_mem_wireIds hp
  refine ((List.forall₂_and_left _ _).mpr ⟨hids, hv.up⟩).imp fun p o h => ?_
  obtain ⟨hid, howns, howner⟩ := h
  refine ⟨owns_of_keeps hk hid howns, fun c hc => ?_⟩
  obtain ⟨hsent, hpacket, hnone⟩ := howner c hc
  obtain ⟨hsent', hpacket'⟩ := (hk c).2 hsent
  exact ⟨hsent', hpacket'.trans hpacket, (congrFun hverdicts c).trans hnone⟩

theorem down_of_keeps (hv : VerdictFits v) (hk : Keeps v v')
    (hverdicts : v'.verdicts = v.verdicts) :
    List.Forall₂ v'.OwnsAnswer v.link.toClient v.down := by
  have hids : ∀ a ∈ v.link.toClient, a.id ∈ v.link.wireIds := fun a ha =>
    List.mem_append_right _ (List.mem_map_of_mem ha)
  refine ((List.forall₂_and_left _ _).mpr ⟨hids, hv.down⟩).imp fun a o h => ?_
  obtain ⟨hid, howns, howner⟩ := h
  refine ⟨owns_of_keeps hk hid howns, fun c hc => ?_⟩
  obtain ⟨hsent, rc, hone, hanswer⟩ := howner c hc
  obtain ⟨hsent', hpacket'⟩ := (hk c).2 hsent
  exact ⟨hsent', rc, (congrFun hverdicts c).trans hone, by rw [hpacket', hanswer]⟩

/-- A call reports the same as long as nothing about it changes. -/
theorem reports_of_same (h : v.Reports c) (hcall : v'.call c = v.call c)
    (hpromise : ∀ rc, v'.link.client.promises c = .answered rc →
      v.link.client.promises c = .answered rc)
    (hoffline : v.offline c = true → v'.offline c = true)
    (hverdicts : v'.verdicts c = v.verdicts c) : v'.Reports c where
  unsent := by
    rw [hcall, hverdicts]
    exact h.unsent
  once := by
    rw [hverdicts]
    exact h.once
  told rc hrc := by
    rw [hcall, hverdicts]
    exact h.told rc (hpromise rc hrc)
  done hdone := by
    rw [hcall] at hdone ⊢
    rw [hverdicts]
    exact (h.done hdone).imp_left hoffline
  rejected := by
    rw [hcall, hverdicts]
    exact h.rejected

/-- Packets may be lost, all at once; the calls and the broker's verdicts are as they were. -/
theorem of_calm (hv : VerdictFits v) (hlink : LinkFits v'.link)
    (hcalls : v'.link.client.calls = v.link.client.calls)
    (hpromises : ∀ c rc, v'.link.client.promises c = .answered rc →
      v.link.client.promises c = .answered rc)
    (hoffline : v'.offline = v.offline) (hverdicts : v'.verdicts = v.verdicts)
    (hup : v'.link.toBroker = [] ∧ v'.up = [] ∨
      v'.link.toBroker = v.link.toBroker ∧ v'.up = v.up)
    (hdown : v'.link.toClient = [] ∧ v'.down = [] ∨
      v'.link.toClient = v.link.toClient ∧ v'.down = v.down) : VerdictFits v' := by
  have hk := keeps_of_calls hcalls
  refine ⟨hlink, ?_, ?_, fun c => ?_⟩
  · rcases hup with ⟨h, h'⟩ | ⟨h, h'⟩
    · rw [h, h']
      exact .nil
    · rw [h, h']
      exact hv.up_of_keeps hk hverdicts
  · rcases hdown with ⟨h, h'⟩ | ⟨h, h'⟩
    · rw [h, h']
      exact .nil
    · rw [h, h']
      exact hv.down_of_keeps hk hverdicts
  · exact reports_of_same (hv.reports c) (congrFun hcalls c) (hpromises c)
      (by rw [hoffline]; exact id) (congrFun hverdicts c)

/-- The call that steps. -/
theorem reports_of_moves (h : v.Reports c) (hm : CallMoves v.link l c client)
    (hclient : v'.link.client = client) (hverdicts : v'.verdicts = v.verdicts)
    (hoffline : l = .check c false → v'.offline c = true) : v'.Reports c := by
  have hcall : v'.call c = client.calls c := by rw [VerdictState.call, hclient]
  have hsame : ∀ {rc : UInt8}, v.verdicts c = [rc] →
      (v'.call c).req.subscribes = (v.call c).req.subscribes := by
    intro rc hrc
    cases hsent : (v.call c).pc.sent with
    | false => simp [h.unsent hsent] at hrc
    | true =>
      have hpacket := (hm.sent hsent).2
      rw [hcall, ← SubscribeCall.packet_subscribes, hpacket, SubscribeCall.packet_subscribes]
      rfl
  have htold : ∀ rc, v.link.client.promises c = .answered rc →
      ∃ rc', v.verdicts c = [rc'] ∧ ((v'.call c).req.subscribes = true → rc' = rc) := by
    intro rc hrc
    obtain ⟨rc', hone, heq⟩ := h.told rc hrc
    exact ⟨rc', hone, by rw [hsame hone]; exact heq⟩
  constructor
  · intro hsent
    rw [hverdicts]
    apply h.unsent
    by_contra hno
    rw [hcall, (hm.sent (eq_true_of_ne_false hno)).1] at hsent
    contradiction
  · rw [hverdicts]
    exact h.once
  · intro rc hrc
    rw [hclient] at hrc
    rw [hverdicts]
    exact htold rc (hm.promises c rc hrc)
  · intro hdone
    rw [hcall] at hdone ⊢
    rw [hverdicts]
    rcases hm.done hdone with hl | ⟨rc, hrc, hne⟩
    · exact .inl (hoffline hl)
    · obtain ⟨rc', hone, heq⟩ := htold rc hrc
      rw [hcall] at heq
      exact .inr ⟨rc', hone, fun hreq => heq hreq ▸ hne hreq⟩
  · intro hrej
    rw [hcall] at hrej
    rw [hverdicts]
    rcases hm.rejected hrej with hold | ⟨hrc, hreq⟩
    · exact h.rejected hold
    · obtain ⟨rc', hone, heq⟩ := htold 0x80 hrc
      rw [hcall] at heq
      rw [hone, heq hreq]

theorem call (hv : VerdictFits v) (hfresh : v.link.DrawsFresh (.call l))
    (hallows : v.link.allows l = true) (hstep : subscribeStep v.link.client l = some client) :
    VerdictFits (v.note { v.link with
      client := client
      toBroker := v.link.toBroker ++ v.link.sends l } (.call l)) := by
  obtain ⟨c₀, hl⟩ : ∃ c₀, l.call = some c₀ := by
    cases l with
    | suback body => simp [BrokerState.allows] at hallows
    | unsuback body => simp [BrokerState.allows] at hallows
    | failAllAcks => simp [BrokerState.allows] at hallows
    | _ => exact ⟨_, rfl⟩
  have hm := CallMoves.of_step hfresh hl hstep
  have hlink := hv.link.call hfresh hallows hstep
  set v' := v.note { v.link with
    client := client
    toBroker := v.link.toBroker ++ v.link.sends l } (.call l) with hv'
  have hother : ∀ c, c ≠ c₀ → v'.call c = v.call c := fun c hne =>
    subscribeStep_calls_of_ne hl hstep hne
  have hk : Keeps v v' := by
    intro c
    by_cases hne : c = c₀
    · subst hne
      exact ⟨hm.holds, hm.sent⟩
    · rw [hother c hne]
      exact ⟨fun h => .inl ⟨h, rfl⟩, fun h => ⟨h, rfl⟩⟩
  have hoffline : ∀ c, v.offline c = true → v'.offline c = true := by
    intro c hc
    rw [hv']
    dsimp only [VerdictState.note]
    split
    · next c' =>
      by_cases he : c = c'
      · rw [he, Function.update_self]
      · rwa [Function.update_of_ne he]
    · exact hc
  refine ⟨hlink, ?_, hv.down_of_keeps hk rfl, fun c => ?_⟩
  · refine List.rel_append (hv.up_of_keeps hk rfl) ?_
    rcases hm.sends with hnone | ⟨hone, hpc, hsent, hholds⟩
    · rw [hnone]
      exact .nil
    · rw [hone, hl]
      refine .cons ⟨fun c hc hid => ?_, fun c hc => ?_⟩ .nil
      · rw [SubscribeCall.packet_id] at hid
        rw [hlink.ids.distinct c c₀ hc hholds hid]
      · obtain rfl := Option.some.inj hc
        refine ⟨hsent, rfl, (hv.reports c₀).unsent ?_⟩
        rw [VerdictState.call, hpc]
        rfl
  · by_cases hne : c = c₀
    · subst hne
      refine reports_of_moves (hv.reports c) hm rfl rfl ?_
      rintro rfl
      exact Function.update_self ..
    · exact reports_of_same (hv.reports c) (hother c hne) (hm.promises c) (hoffline c) rfl

/-- Whoever has a verdict is not the owner of a packet that the broker has yet to take. -/
theorem record_eq (h : ∀ c ∈ o, v.verdicts c = []) (hne : v.verdicts c ≠ []) :
    v.record o rc c = v.verdicts c := by
  unfold record
  split
  · next ho => exact (hne (h c ho)).elim
  · rfl

theorem handle (hv : VerdictFits v) {rest : List BrokerRequest} (hup : v.link.toBroker = p :: rest)
    (hlink : LinkFits (v.link.handle rc p rest)) :
    VerdictFits (v.note (v.link.handle rc p rest) (.handle rc)) := by
  obtain ⟨o, os, ⟨howns, howner⟩, hos, hups⟩ := List.forall₂_cons_left_iff.mp (hup ▸ hv.up)
  have hnone : ∀ c ∈ o, v.verdicts c = [] := fun c hc => (howner c hc).2.2
  have hone : ∀ c ∈ o, v.record o rc c = [rc] := by
    intro c hc
    rw [record, if_pos (show o = some c from hc), hnone c hc]
    rfl
  have hnote : v.note (v.link.handle rc p rest) (.handle rc) =
      { v with
        link := v.link.handle rc p rest
        up := os
        down := v.down ++ [o]
        verdicts := v.record o rc } := by
    rw [VerdictState.note, hups]
    rfl
  rw [hnote]
  refine ⟨hlink, ?_, ?_, fun c => ?_⟩
  · have hrest : ∀ q ∈ rest, q.id ≠ p.id := by
      intro q hq he
      have hnodup := hv.link.ids.nodup
      rw [BrokerState.wireIds, hup, List.map_cons, List.cons_append, List.nodup_cons] at hnodup
      exact hnodup.1 (he ▸ List.mem_append_left _ (List.mem_map_of_mem hq))
    refine ((List.forall₂_and_left _ _).mpr ⟨hrest, hos⟩).imp fun q o' h => ?_
    obtain ⟨hne, howns', hown⟩ := h
    refine ⟨howns', fun c hc => ?_⟩
    obtain ⟨hsent, hpacket, hempty⟩ := hown c hc
    have ho : o ≠ some c := by
      intro ho
      exact hne (by rw [← hpacket, (howner c ho).2.1])
    exact ⟨hsent, hpacket, (if_neg ho).trans hempty⟩
  · have hid : (p.answer rc).id = p.id := by cases p <;> rfl
    refine List.rel_append (hv.down.imp fun a o' h => ?_) (.cons ⟨hid ▸ howns, fun c hc => ?_⟩ .nil)
    · refine ⟨h.1, fun c hc => ?_⟩
      obtain ⟨hsent, rc', hverdict, hanswer⟩ := h.2 c hc
      exact ⟨hsent, rc', (record_eq hnone (by simp [hverdict])).trans hverdict, hanswer⟩
    · obtain ⟨hsent, hpacket, -⟩ := howner c hc
      exact ⟨hsent, rc, hone c hc, congrArg (BrokerRequest.answer rc) hpacket⟩
  · have hold := hv.reports c
    by_cases ho : o = some c
    · obtain ⟨hsent, -, hempty⟩ := howner c ho
      have hno : ∀ {r : UInt8}, v.verdicts c ≠ [r] := by simp [hempty]
      constructor
      · intro hunsent
        exact (Bool.false_ne_true (hunsent.symm.trans hsent)).elim
      · exact (congrArg List.length (hone c ho)).le
      · intro rc' hrc'
        obtain ⟨r, hr, -⟩ := hold.told rc' hrc'
        exact (hno hr).elim
      · intro hdone
        rcases hold.done hdone with hoff | ⟨r, hr, -⟩
        · exact .inl hoff
        · exact (hno hr).elim
      · exact fun hrej => (hno (hold.rejected hrej)).elim
    · exact reports_of_same hold rfl (fun _ h => h) id (if_neg ho)

/-- The promise of a call that gets its answer has the verdict. -/
theorem told_receive (hv : VerdictFits v) {rest : List BrokerAnswer} {rc' : UInt8}
    (hdown : v.link.toClient = a :: rest)
    (h : (v.link.receive a rest).client.promises c = .answered rc') :
    ∃ rc, v.verdicts c = [rc] ∧ ((v.call c).req.subscribes = true → rc = rc') := by
  have hids := hv.link.ids
  obtain ⟨o, os, ⟨howns, howner⟩, -, -⟩ := List.forall₂_cons_left_iff.mp (hdown ▸ hv.down)
  cases a with
  | suback id rc =>
    have hclient : (v.link.receive (.suback id rc) rest).client = _ :=
      v.link.client.handleSuback_body id rc
    rw [hclient] at h
    dsimp only at h
    by_cases hc : v.link.client.pendingSubacks id = some c
    · obtain ⟨hid, hreq, hentry, -⟩ := hids.suback id c hc
      have ho := howns c (SubscribePc.holdsId_of_holdsEntry hentry) hid
      obtain ⟨-, rc₀, hone, hanswer⟩ := howner c ho
      rw [Pending.resolve_owner hc] at h
      refine ⟨rc₀, hone, fun hsub => ?_⟩
      rw [SubscribeCall.packet] at hanswer
      split at hanswer
      · exact (BrokerAnswer.suback.inj hanswer).2.trans (AckPromise.answered.inj h)
      · contradiction
    · rw [Pending.resolve_of_ne hc] at h
      exact (hv.reports c).told rc' h
  | unsuback id =>
    have hclient : (v.link.receive (.unsuback id) rest).client = _ :=
      v.link.client.handleUnsuback_body id
    rw [hclient] at h
    dsimp only at h
    by_cases hc : v.link.client.pendingUnsubacks id = some c
    · obtain ⟨hid, hreq, hentry, -⟩ := hids.unsuback id c hc
      have ho := howns c (SubscribePc.holdsId_of_holdsEntry hentry) hid
      obtain ⟨-, rc₀, hone, -⟩ := howner c ho
      exact ⟨rc₀, hone, fun hsub => (Bool.false_ne_true (hreq.symm.trans hsub)).elim⟩
    · rw [Pending.resolve_of_ne hc] at h
      exact (hv.reports c).told rc' h

theorem receive (hv : VerdictFits v) {rest : List BrokerAnswer}
    (hdown : v.link.toClient = a :: rest) (hlink : LinkFits (v.link.receive a rest)) :
    VerdictFits (v.note (v.link.receive a rest) .receive) := by
  set v' := v.note (v.link.receive a rest) .receive with hv'
  have hcalls : v'.link.client.calls = v.link.client.calls := v.link.receive_calls a rest
  have hk := keeps_of_calls hcalls
  refine ⟨hlink, hv.up_of_keeps hk rfl, ?_, fun c => ?_⟩
  · have h := hv.down_of_keeps hk rfl
    rw [hdown] at h
    obtain ⟨o, os, -, hos, hdowns⟩ := List.forall₂_cons_left_iff.mp h
    rw [hv', VerdictState.note, hdowns]
    exact hos
  · have hold := hv.reports c
    have hcall : v'.call c = v.call c := congrFun hcalls c
    constructor
    · rw [hcall]
      exact hold.unsent
    · exact hold.once
    · rw [hcall]
      exact fun rc' => hv.told_receive hdown
    · rw [hcall]
      exact hold.done
    · rw [hcall]
      exact hold.rejected

theorem resend (hv : VerdictFits v) {todo : List Bytes} {topic : Bytes} {qos : ℤ} {ok : Bool}
    (hfresh : v.link.FreshId (allocPacketId v.link.client.nextPacketId).1)
    (hlink : LinkFits (v.link.resend todo topic qos ok)) :
    VerdictFits (v.note (v.link.resend todo topic qos ok) (.resend topic ok)) := by
  have hk : Keeps v (v.note (v.link.resend todo topic qos ok) (.resend topic ok)) :=
    keeps_of_calls rfl
  refine ⟨hlink, List.rel_append (hv.up_of_keeps hk rfl) ?_, hv.down_of_keeps hk rfl, fun c => ?_⟩
  · cases ok with
    | true =>
      refine .cons ⟨fun c hc hid => ?_, fun c hc => by contradiction⟩ .nil
      exact (hfresh.1 c hc hid).elim
    | false => exact .nil
  · exact reports_of_same (hv.reports c) rfl (fun _ h => h) id rfl

theorem step (hv : VerdictFits v) {l : BrokerLabel κ} (hfresh : v.link.DrawsFresh l)
    (h : verdictStep v l = some v') : VerdictFits v' := by
  obtain ⟨link, hstep, rfl⟩ := Option.map_eq_some_iff.mp h
  have hlink := hv.link.step hfresh hstep
  cases BrokerStep.of_eq hstep with
  | call l client hallows hcall => exact hv.call hfresh hallows hcall
  | handle rc p rest hup => exact hv.handle hup hlink
  | receive a rest hrecv hdown => exact hv.receive hdown hlink
  | resend todo topic sub ok hconnect hsub => exact hv.resend hfresh hlink
  | failAllAcks =>
    refine hv.of_calm hlink rfl (fun c rc hrc => ?_) rfl rfl (.inr ⟨rfl, rfl⟩) (.inr ⟨rfl, rfl⟩)
    change (if _ then _ else _) = _ at hrc
    split at hrc
    · contradiction
    · exact hrc
  | lose hrecv =>
    exact hv.of_calm hlink rfl (fun _ _ h => h) rfl rfl (.inl ⟨rfl, rfl⟩) (.inl ⟨rfl, rfl⟩)
  | disconnect hidle =>
    exact hv.of_calm hlink rfl (fun _ _ h => h) rfl rfl (.inl ⟨rfl, rfl⟩) (.inl ⟨rfl, rfl⟩)
  | dial hidle hstate =>
    exact hv.of_calm hlink rfl (fun _ _ h => h) rfl rfl (.inl ⟨rfl, rfl⟩) (.inl ⟨rfl, rfl⟩)
  | refused hconnect =>
    exact hv.of_calm hlink rfl (fun _ _ h => h) rfl rfl (.inl ⟨rfl, rfl⟩) (.inl ⟨rfl, rfl⟩)
  | _ => exact hv.of_calm hlink rfl (fun _ _ h => h) rfl rfl (.inr ⟨rfl, rfl⟩) (.inr ⟨rfl, rfl⟩)

end VerdictFits

/-! ## Causes of failure -/

/-- What stands behind a failure: a text of the transport, or a promise that a loss has failed. -/
def SubscribeState.Explains (s : SubscribeState κ) (c : ℕ) : FailureCause → Prop
  | .sendError message => SendText message
  | .connectionLost => s.promises c = .lost
  | .rejected => True
  | .ackTimeout => True

def CausesFit (s : SubscribeState κ) : Prop :=
  ∀ c, ∀ cause ∈ (s.calls c).pc.cause, s.Explains c cause

/-- A send that fails does so with a text of the transport. -/
def BrokerLabel.FromTransport : BrokerLabel κ → Prop
  | .call (.send _ (some message)) => SendText message
  | _ => True

theorem IdsFit.no_entry_of_lost (hs : IdsFit s) (h : s.client.promises c = .lost) :
    (∀ id, s.client.pendingSubacks id ≠ some c) ∧ ∀ id, s.client.pendingUnsubacks id ≠ some c := by
  constructor
  · intro id hid
    simp [(hs.suback id c hid).2.2.2] at h
  · intro id hid
    simp [(hs.unsuback id c hid).2.2.2] at h

theorem IdsFit.lost_register (hs : IdsFit s) (hne : c' ≠ c) (h : s.client.promises c' = .lost) :
    (s.client.register c).promises c' = .lost := by
  obtain ⟨hsub, hunsub⟩ := hs.no_entry_of_lost h
  unfold SubscribeState.register
  split
  · exact (Function.update_of_ne hne ..).trans ((Pending.resolve_of_ne (hsub _)).trans h)
  · exact (Function.update_of_ne hne ..).trans ((Pending.resolve_of_ne (hunsub _)).trans h)

theorem IdsFit.lost_eraseEntry (hs : IdsFit s) (c : ℕ) (h : s.client.promises c' = .lost) :
    (s.client.eraseEntry c).promises c' = .lost := by
  obtain ⟨hsub, hunsub⟩ := hs.no_entry_of_lost h
  unfold SubscribeState.eraseEntry
  split
  · exact (Pending.resolve_of_ne (hsub _)).trans h
  · exact (Pending.resolve_of_ne (hunsub _)).trans h

theorem IdsFit.lost_receive (hs : IdsFit s) {a : BrokerAnswer} {rest : List BrokerAnswer}
    (h : s.client.promises c = .lost) : (s.receive a rest).client.promises c = .lost := by
  obtain ⟨hsub, hunsub⟩ := hs.no_entry_of_lost h
  cases a with
  | suback id rc =>
    exact (SubscribeState.handleSuback_promises (BrokerAnswer.suback id rc).body hsub).trans h
  | unsuback id =>
    exact (SubscribeState.handleUnsuback_promises (BrokerAnswer.unsuback id).body hunsub).trans h

theorem SubscribeState.Explains.mono {s s' : SubscribeState κ} {cause : FailureCause}
    (h : s.Explains c cause) (hlost : s.promises c = .lost → s'.promises c = .lost) :
    s'.Explains c cause := by
  cases cause with
  | connectionLost => exact hlost h
  | _ => exact h

theorem SubscribeRequest.afterGet_cause {r : SubscribeRequest κ} {p : AckPromise}
    {pc : SubscribePc} {cause : FailureCause} (h : r.afterGet p = some pc)
    (hcause : cause ∈ pc.cause) : cause = .rejected ∨ cause = .connectionLost ∧ p = .lost := by
  unfold afterGet at h
  split at h
  · contradiction
  · contradiction
  · split at h
    · obtain rfl := Option.some.inj h
      exact .inl (Option.some.inj hcause).symm
    · obtain rfl := Option.some.inj h
      contradiction
  · split at h
    · obtain rfl := Option.some.inj h
      exact .inr ⟨(Option.some.inj hcause).symm, rfl⟩
    · obtain rfl := Option.some.inj h
      exact .inr ⟨(Option.some.inj hcause).symm, rfl⟩
  · obtain rfl := Option.some.inj h
    contradiction

namespace CausesFit

theorem of_promises {s s' : SubscribeState κ} (hs : CausesFit s) (hcalls : s'.calls = s.calls)
    (hlost : ∀ c, s.promises c = .lost → s'.promises c = .lost) : CausesFit s' := by
  intro c cause hcause
  rw [hcalls] at hcause
  exact (hs c cause hcause).mono (hlost c)

/-- One call goes on; its failure, if it is on its way to one, has to be explained. -/
theorem of_call {s s' : SubscribeState κ} (hs : CausesFit s)
    (hother : ∀ c', c' ≠ c → s'.calls c' = s.calls c')
    (hlost : ∀ c', c' ≠ c → s.promises c' = .lost → s'.promises c' = .lost)
    (hself : ∀ cause ∈ (s'.calls c).pc.cause, s'.Explains c cause) : CausesFit s' := by
  intro c' cause hcause
  by_cases hne : c' = c
  · subst hne
    exact hself cause hcause
  · rw [hother c' hne] at hcause
    exact (hs c' cause hcause).mono (hlost c' hne)

theorem call (hs : CausesFit s.client) (hids : IdsFit s) (hl : l.call = some c)
    (htext : (BrokerLabel.call l).FromTransport) (hstep : subscribeStep s.client l = some client) :
    CausesFit client := by
  have hother : ∀ c', c' ≠ c → client.calls c' = s.client.calls c' := fun c' hne =>
    subscribeStep_calls_of_ne hl hstep hne
  cases SubscribeStep.of_eq hstep with
  | begin c₀ req hpc =>
    obtain rfl := Option.some.inj hl
    refine hs.of_call hother (fun _ _ h => h) ?_
    simp [SubscribePc.cause]
  | table c₀ hpc =>
    obtain rfl := Option.some.inj hl
    refine hs.of_call hother (fun _ _ h => h) ?_
    simp [SubscribePc.cause]
  | check c₀ connected hpc =>
    obtain rfl := Option.some.inj hl
    refine hs.of_call hother (fun _ _ h => h) ?_
    cases connected <;> simp [SubscribePc.cause]
  | fetch c₀ hpc =>
    obtain rfl := Option.some.inj hl
    refine hs.of_call hother (fun _ _ h => h) ?_
    simp only [SubscribeState.fetch, SubscribeState.setCall_self]
    split_ifs <;> simp [SubscribePc.cause]
  | refetch c₀ hpc =>
    obtain rfl := Option.some.inj hl
    refine hs.of_call hother (fun _ _ h => h) ?_
    simp [SubscribeState.fetch, SubscribePc.cause]
  | register c₀ hpc =>
    obtain rfl := Option.some.inj hl
    refine hs.of_call hother (fun _ hne h => hids.lost_register hne h) ?_
    simp [SubscribePc.cause]
  | sent c₀ hpc =>
    obtain rfl := Option.some.inj hl
    refine hs.of_call hother (fun _ _ h => h) ?_
    simp [SubscribePc.cause]
  | sendFailed c₀ message hpc =>
    obtain rfl := Option.some.inj hl
    refine hs.of_call hother (fun _ _ h => h) ?_
    have htext : SendText message := htext
    simpa [SubscribePc.cause, SubscribeState.Explains] using htext
  | timeout c₀ hpc hp =>
    obtain rfl := Option.some.inj hl
    refine hs.of_call hother (fun _ _ h => h) ?_
    simp [SubscribePc.cause, SubscribeState.Explains]
  | get c₀ pc hpc hget =>
    obtain rfl := Option.some.inj hl
    refine hs.of_call hother (fun _ _ h => h) fun cause hcause => ?_
    rw [SubscribeState.goto_self] at hcause
    rcases SubscribeRequest.afterGet_cause hget hcause with rfl | ⟨rfl, hlost⟩
    · trivial
    · exact hlost
  | eraseEntry c₀ cause hpc =>
    obtain rfl := Option.some.inj hl
    have hlost : ∀ c', s.client.promises c' = .lost →
        (s.client.eraseEntry c₀).promises c' = .lost := fun _ => hids.lost_eraseEntry c₀
    refine hs.of_call hother (fun c' _ => hlost c') fun cause' hcause => ?_
    have hold : cause' ∈ (s.client.calls c₀).pc.cause := by
      rw [SubscribeState.goto_self] at hcause
      rw [hpc]
      split_ifs at hcause <;> exact hcause
    exact (hs c₀ cause' hold).mono (hlost c₀)
  | eraseTopic c₀ cause hpc =>
    obtain rfl := Option.some.inj hl
    refine hs.of_call hother (fun _ _ h => h) fun cause' hcause => ?_
    have hold : cause' ∈ (s.client.calls c₀).pc.cause := by
      rw [hpc]
      simpa [SubscribePc.cause] using hcause
    exact (hs c₀ cause' hold).mono id
  | suback body => simp [SubscribeLabel.call] at hl
  | unsuback body => simp [SubscribeLabel.call] at hl
  | failAllAcks => simp [SubscribeLabel.call] at hl

theorem step {s' : BrokerState κ} {l : BrokerLabel κ} (hs : CausesFit s.client) (hids : IdsFit s)
    (htext : l.FromTransport) (h : brokerStep s l = some s') : CausesFit s'.client := by
  cases BrokerStep.of_eq h with
  | call l client hallows hstep =>
    obtain ⟨c, hl⟩ : ∃ c, l.call = some c := by
      cases l with
      | suback body => simp [BrokerState.allows] at hallows
      | unsuback body => simp [BrokerState.allows] at hallows
      | failAllAcks => simp [BrokerState.allows] at hallows
      | _ => exact ⟨_, rfl⟩
    exact hs.call hids hl htext hstep
  | receive a rest hrecv hdown =>
    exact hs.of_promises (s.receive_calls a rest) fun _ => hids.lost_receive
  | failAllAcks =>
    refine hs.of_promises rfl fun c hc => ?_
    change (if _ then _ else _) = _
    split
    · rfl
    · exact hc
  | resend todo topic sub ok hconnect hsub => exact hs.of_promises rfl fun _ => id
  | _ => exact hs

end CausesFit

end MqttNativeSocket
