import MqttNativeSocket.Subscriber.Requests

/-! # What a request leaves behind

One `subscribe` or `unsubscribe` at a time, with the receive loop running. The
call ends with a result that fits the cause of its failure and leaves no entry
behind. A failed `subscribe` takes its topic out of the table again, except after
a timeout; `unsubscribe` takes the topic out whatever happens.
-/

namespace MqttNativeSocket

variable {κ : Type} {s s' : SubscribeState κ} {c : ℕ} {req : SubscribeRequest κ}
  {table : AList fun _ : Bytes => TopicSub κ}

/-- Call `c` has not been made yet. -/
structure SubscribeState.Fresh (s : SubscribeState κ) (c : ℕ) : Prop where
  unborn : (s.calls c).pc = .unborn
  suback : ∀ id, s.pendingSubacks id ≠ some c
  unsuback : ∀ id, s.pendingUnsubacks id ≠ some c

namespace SubscribePc

def ended : SubscribePc → Bool
  | .done | .failed _ | .broken => true
  | _ => false

/-- The points of a call at which its entry may stand. -/
def holdsEntry : SubscribePc → Bool
  | .send | .wait | .eraseEntry _ => true
  | _ => false

end SubscribePc

namespace SubscribeRequest

/-- What the table holds for the topic once the request is applied. -/
def entry : SubscribeRequest κ → Option (TopicSub κ)
  | subscribe _ qos callback => some ⟨qos, callback⟩
  | unsubscribe _ => none

/-- What it holds while the call is at `pc`. -/
def entryAt (r : SubscribeRequest κ) (table : AList fun _ : Bytes => TopicSub κ) :
    SubscribePc → Option (TopicSub κ)
  | .unborn | .table => table.lookup r.topic
  | .failed cause => if r.undoes cause then none else r.entry
  | _ => r.entry

theorem lookup_apply (r : SubscribeRequest κ) :
    (r.apply table).lookup r.topic = r.entry := by
  cases r with
  | subscribe topic qos callback => exact AList.lookup_insert table
  | unsubscribe topic => exact AList.lookup_erase topic table

theorem lookup_apply_ne (r : SubscribeRequest κ) {t : Bytes} (h : t ≠ r.topic) :
    (r.apply table).lookup t = table.lookup t := by
  cases r with
  | subscribe topic qos callback => exact AList.lookup_insert_ne h
  | unsubscribe topic => exact AList.lookup_erase_ne h

end SubscribeRequest

/-- The only call at work, made on the given table. -/
structure AloneInv (table : AList fun _ : Bytes => TopicSub κ) (req : SubscribeRequest κ) (c : ℕ)
    (s : SubscribeState κ) : Prop where
  req_eq : (s.calls c).req = req
  suback : ∀ id, s.pendingSubacks id = some c → id = (s.calls c).id ∧ req.subscribes = true ∧
    (s.calls c).pc.holdsEntry = true ∧ s.promises c = .pending
  unsuback : ∀ id, s.pendingUnsubacks id = some c → id = (s.calls c).id ∧
    req.subscribes = false ∧ (s.calls c).pc.holdsEntry = true ∧ s.promises c = .pending
  promise : (s.calls c).pc = .send ∨ (s.calls c).pc = .wait →
    s.promises c = .pending ∨ (∃ rc, s.promises c = .answered rc) ∨ s.promises c = .lost
  born : (s.calls c).pc ≠ .unborn ∧ (s.calls c).pc ≠ .broken
  erasing : ∀ cause, (s.calls c).pc = .eraseEntry cause ∨ (s.calls c).pc = .failed cause →
    req.subscribes = true ∨ cause ≠ .rejected
  undoing : ∀ cause, (s.calls c).pc = .eraseTopic cause → req.undoes cause = true
  others : ∀ t, t ≠ req.topic → s.subscriptions.lookup t = table.lookup t
  own : s.subscriptions.lookup req.topic = req.entryAt table (s.calls c).pc

namespace AloneInv

/-- The call goes on; neither a map nor a promise changes. -/
theorem move (hi : AloneInv table req c s) {k : SubscribeCall κ} (hcall : s'.calls c = k)
    (hreq : k.req = (s.calls c).req) (hsub : s'.pendingSubacks = s.pendingSubacks)
    (hunsub : s'.pendingUnsubacks = s.pendingUnsubacks) (hprom : s'.promises = s.promises)
    (hhold : (s.calls c).pc.holdsEntry = true → s.promises c = .pending →
      k.id = (s.calls c).id ∧ k.pc.holdsEntry = true)
    (hwait : k.pc = .send ∨ k.pc = .wait → (s.calls c).pc = .send ∨ (s.calls c).pc = .wait)
    (hborn : k.pc ≠ .unborn ∧ k.pc ≠ .broken)
    (herasing : ∀ cause, k.pc = .eraseEntry cause ∨ k.pc = .failed cause →
      req.subscribes = true ∨ cause ≠ .rejected)
    (hundoing : ∀ cause, k.pc = .eraseTopic cause → req.undoes cause = true)
    (hothers : ∀ t, t ≠ req.topic → s'.subscriptions.lookup t = s.subscriptions.lookup t)
    (hown : s'.subscriptions.lookup req.topic = req.entryAt table k.pc) :
    AloneInv table req c s' where
  req_eq := by rw [hcall, hreq, hi.req_eq]
  suback id h := by
    rw [hsub] at h
    obtain ⟨hid, hr, hpc, hp⟩ := hi.suback id h
    obtain ⟨hid', hpc'⟩ := hhold hpc hp
    rw [hcall, hprom]
    exact ⟨hid.trans hid'.symm, hr, hpc', hp⟩
  unsuback id h := by
    rw [hunsub] at h
    obtain ⟨hid, hr, hpc, hp⟩ := hi.unsuback id h
    obtain ⟨hid', hpc'⟩ := hhold hpc hp
    rw [hcall, hprom]
    exact ⟨hid.trans hid'.symm, hr, hpc', hp⟩
  promise h := by
    rw [hcall] at h
    rw [hprom]
    exact hi.promise (hwait h)
  born := by
    rw [hcall]
    exact hborn
  erasing := by
    rw [hcall]
    exact herasing
  undoing := by
    rw [hcall]
    exact hundoing
  others t ht := (hothers t ht).trans (hi.others t ht)
  own := by
    rw [hcall]
    exact hown

/-- An acknowledgement settles the promise of its entry. -/
theorem acknowledge (hi : AloneInv table req c s) (hcalls : s'.calls = s.calls)
    (hsubs : s'.subscriptions = s.subscriptions)
    (hsub : ∀ id, s'.pendingSubacks id = some c → s.pendingSubacks id = some c)
    (hunsub : ∀ id, s'.pendingUnsubacks id = some c → s.pendingUnsubacks id = some c)
    (hprom : s'.promises c = s.promises c ∨
      ((∃ rc, s'.promises c = .answered rc) ∨ s'.promises c = .lost) ∧
        (∀ id, s'.pendingSubacks id ≠ some c) ∧ ∀ id, s'.pendingUnsubacks id ≠ some c) :
    AloneInv table req c s' where
  req_eq := by rw [hcalls, hi.req_eq]
  suback id h := by
    rw [hcalls]
    rcases hprom with he | ⟨-, hnone, -⟩
    · rw [he]
      exact hi.suback id (hsub id h)
    · exact (hnone id h).elim
  unsuback id h := by
    rw [hcalls]
    rcases hprom with he | ⟨-, -, hnone⟩
    · rw [he]
      exact hi.unsuback id (hunsub id h)
    · exact (hnone id h).elim
  promise h := by
    rw [hcalls] at h
    rcases hprom with he | ⟨he, -⟩
    · rw [he]
      exact hi.promise h
    · exact .inr he
  born := by
    rw [hcalls]
    exact hi.born
  erasing := by
    rw [hcalls]
    exact hi.erasing
  undoing := by
    rw [hcalls]
    exact hi.undoing
  others := by
    rw [hsubs]
    exact hi.others
  own := by
    rw [hcalls, hsubs]
    exact hi.own

/-- The call has one entry at most, in the map of its kind. -/
theorem suback_gone (hi : AloneInv table req c s) {id : UInt16}
    (h : s.pendingSubacks id = some c) :
    (∀ id', Function.update s.pendingSubacks id none id' ≠ some c) ∧
      ∀ id', s.pendingUnsubacks id' ≠ some c := by
  obtain ⟨hid, hr, -⟩ := hi.suback id h
  constructor
  · intro id' h'
    have he : id' = id := (hi.suback id' (Pending.of_remove h')).1.trans hid.symm
    rw [he, Function.update_self] at h'
    contradiction
  · intro id' h'
    rw [(hi.unsuback id' h').2.1] at hr
    contradiction

theorem unsuback_gone (hi : AloneInv table req c s) {id : UInt16}
    (h : s.pendingUnsubacks id = some c) :
    (∀ id', s.pendingSubacks id' ≠ some c) ∧
      ∀ id', Function.update s.pendingUnsubacks id none id' ≠ some c := by
  obtain ⟨hid, hr, -⟩ := hi.unsuback id h
  constructor
  · intro id' h'
    rw [(hi.suback id' h').2.1] at hr
    contradiction
  · intro id' h'
    have he : id' = id := (hi.unsuback id' (Pending.of_remove h')).1.trans hid.symm
    rw [he, Function.update_self] at h'
    contradiction

theorem handleSuback (hi : AloneInv table req c s) (body : Bytes) :
    AloneInv table req c (s.handleSuback body) := by
  unfold SubscribeState.handleSuback
  split
  · exact hi
  · next info _ =>
    refine hi.acknowledge rfl rfl (fun _ => Pending.of_remove) (fun _ h => h) ?_
    dsimp only
    by_cases h : s.pendingSubacks info.packetId = some c
    · exact .inr ⟨.inl ⟨_, Pending.resolve_owner h⟩, hi.suback_gone h⟩
    · exact .inl (Pending.resolve_of_ne h)

theorem handleUnsuback (hi : AloneInv table req c s) (body : Bytes) :
    AloneInv table req c (s.handleUnsuback body) := by
  have hprom : (s.handleUnsuback body).promises = Pending.resolve s.pendingUnsubacks s.promises
      (parsePacketId body) fun _ => .answered 0 := rfl
  refine hi.acknowledge rfl rfl (fun _ h => h) (fun _ => Pending.of_remove) ?_
  rw [hprom]
  by_cases h : s.pendingUnsubacks (parsePacketId body) = some c
  · exact .inr ⟨.inl ⟨_, Pending.resolve_owner h⟩, hi.unsuback_gone h⟩
  · exact .inl (Pending.resolve_of_ne h)

theorem failAllAcks (hi : AloneInv table req c s) : AloneInv table req c s.failAllAcks := by
  refine hi.acknowledge rfl rfl nofun nofun ?_
  by_cases h : s.pendingSubacks (s.calls c).id = some c ∨ s.pendingUnsubacks (s.calls c).id = some c
  · exact .inr ⟨.inr (if_pos h), nofun, nofun⟩
  · exact .inl (if_neg h)

theorem begin (hf : s.Fresh c) :
    AloneInv s.subscriptions req c (s.setCall c { req := req, pc := .table }) where
  req_eq := by rw [SubscribeState.setCall_self]
  suback id h := (hf.suback id h).elim
  unsuback id h := (hf.unsuback id h).elim
  promise := by simp
  born := by simp
  erasing := by simp
  undoing := by simp
  others _ _ := rfl
  own := by simp [SubscribeRequest.entryAt, SubscribeState.setCall]

/-- An entry that the registration adds is that of the call. -/
theorem register (hi : AloneInv table req c s) (hpc : (s.calls c).pc = .register) :
    AloneInv table req c ((s.register c).goto c .send) := by
  have hsub : ∀ id, s.pendingSubacks id ≠ some c := fun id h => by
    simpa [hpc, SubscribePc.holdsEntry] using (hi.suback id h).2.2.1
  have hunsub : ∀ id, s.pendingUnsubacks id ≠ some c := fun id h => by
    simpa [hpc, SubscribePc.holdsEntry] using (hi.unsuback id h).2.2.1
  have hown : s.subscriptions.lookup req.topic = req.entry := by
    rw [hi.own, hpc]
    rfl
  obtain ⟨hcalls, hsubs, hprom, hsub', hunsub'⟩ : (s.register c).calls = s.calls ∧
      (s.register c).subscriptions = s.subscriptions ∧ (s.register c).promises c = .pending ∧
      (∀ id, (s.register c).pendingSubacks id = some c →
        id = (s.calls c).id ∧ req.subscribes = true) ∧
      ∀ id, (s.register c).pendingUnsubacks id = some c →
        id = (s.calls c).id ∧ req.subscribes = false := by
    simp only [SubscribeState.register, hi.req_eq]
    cases hr : req.subscribes with
    | true =>
      refine ⟨rfl, rfl, Function.update_self .., fun id h => ⟨?_, rfl⟩, fun id h => ?_⟩
      · exact ((Pending.of_put h).resolve_right (hsub id)).1
      · exact (hunsub id h).elim
    | false =>
      refine ⟨rfl, rfl, Function.update_self .., fun id h => ?_, fun id h => ⟨?_, rfl⟩⟩
      · exact (hsub id h).elim
      · exact ((Pending.of_put h).resolve_right (hunsub id)).1
  have hcall : ((s.register c).goto c .send).calls c = { s.calls c with pc := .send } := by
    rw [SubscribeState.goto_self, hcalls]
  refine ⟨by rw [hcall, ← hi.req_eq], fun id h => ?_, fun id h => ?_, fun _ => .inl hprom, ?_, ?_,
    ?_, fun t ht => ?_, ?_⟩
  · rw [hcall]
    exact ⟨(hsub' id h).1, (hsub' id h).2, rfl, hprom⟩
  · rw [hcall]
    exact ⟨(hunsub' id h).1, (hunsub' id h).2, rfl, hprom⟩
  · simp
  · simp
  · simp
  · show (s.register c).subscriptions.lookup t = _
    rw [hsubs]
    exact hi.others t ht
  · show (s.register c).subscriptions.lookup req.topic = _
    rw [hsubs, hown, hcall]
    rfl

/-- The call gives up and takes its entry away. -/
theorem eraseEntry (hi : AloneInv table req c s) {cause : FailureCause}
    (hpc : (s.calls c).pc = .eraseEntry cause) :
    AloneInv table req c ((s.eraseEntry c).goto c
      (if req.undoes cause then .eraseTopic cause else .failed cause)) := by
  obtain ⟨hcalls, hsubs, hsub, hunsub⟩ : (s.eraseEntry c).calls = s.calls ∧
      (s.eraseEntry c).subscriptions = s.subscriptions ∧
      (∀ id, (s.eraseEntry c).pendingSubacks id ≠ some c) ∧
      ∀ id, (s.eraseEntry c).pendingUnsubacks id ≠ some c := by
    simp only [SubscribeState.eraseEntry, hi.req_eq]
    cases hr : req.subscribes with
    | true =>
      refine ⟨rfl, rfl, fun id h => ?_, fun id h => ?_⟩
      · have hid := (hi.suback id (Pending.of_remove h)).1
        rw [hid] at h
        exact nomatch (Function.update_self ..).symm.trans h
      · rw [(hi.unsuback id h).2.1] at hr
        contradiction
    | false =>
      refine ⟨rfl, rfl, fun id h => ?_, fun id h => ?_⟩
      · rw [(hi.suback id h).2.1] at hr
        contradiction
      · have hid := (hi.unsuback id (Pending.of_remove h)).1
        rw [hid] at h
        exact nomatch (Function.update_self ..).symm.trans h
  have hcall : ∀ pc, ((s.eraseEntry c).goto c pc).calls c = { s.calls c with pc := pc } := by
    intro pc
    rw [SubscribeState.goto_self, hcalls]
  refine ⟨by rw [hcall, ← hi.req_eq], fun id h => (hsub id h).elim, fun id h => (hunsub id h).elim,
    ?_, ?_, ?_, ?_, fun t ht => ?_, ?_⟩
  · rw [hcall]
    split <;> simp
  · rw [hcall]
    split <;> simp
  · rw [hcall]
    intro x hx
    refine hi.erasing x (.inl ?_)
    split at hx <;> simp_all
  · rw [hcall]
    intro x hx
    split at hx <;> simp_all
  · show (s.eraseEntry c).subscriptions.lookup t = _
    rw [hsubs]
    exact hi.others t ht
  · show (s.eraseEntry c).subscriptions.lookup req.topic = _
    rw [hsubs, hi.own, hpc, hcall]
    split <;> simp_all [SubscribeRequest.entryAt]

/-- A call that is past its registration goes on. -/
theorem goto (hi : AloneInv table req c s) {pc : SubscribePc}
    (hhold : (s.calls c).pc.holdsEntry = true → s.promises c = .pending → pc.holdsEntry = true)
    (hwait : pc = .send ∨ pc = .wait → (s.calls c).pc = .send ∨ (s.calls c).pc = .wait)
    (hborn : pc ≠ .unborn ∧ pc ≠ .broken)
    (herasing : ∀ cause, pc = .eraseEntry cause ∨ pc = .failed cause →
      req.subscribes = true ∨ cause ≠ .rejected)
    (hundoing : ∀ cause, pc = .eraseTopic cause → req.undoes cause = true)
    (hown : req.entryAt table pc = req.entryAt table (s.calls c).pc) :
    AloneInv table req c (s.goto c pc) :=
  hi.move (SubscribeState.goto_self pc) rfl rfl rfl rfl (fun h h' => ⟨rfl, hhold h h'⟩) hwait hborn
    herasing hundoing (fun _ _ => rfl) (hi.own.trans hown.symm)

/-- What the future gives decides how the call ends. -/
theorem get (hi : AloneInv table req c s) {pc : SubscribePc} (hpc : (s.calls c).pc = .wait)
    (hget : req.afterGet (s.promises c) = some pc) : AloneInv table req c (s.goto c pc) := by
  rcases hi.promise (.inr hpc) with hp | ⟨rc, hp⟩ | hp <;> rw [hp] at hget
  · simp [SubscribeRequest.afterGet] at hget
  · cases req with
    | subscribe topic qos callback =>
      simp only [SubscribeRequest.afterGet, SubscribeRequest.subscribes, true_and] at hget
      split at hget <;> obtain rfl := Option.some.inj hget <;>
        exact hi.goto (by simp [hp]) (by simp) (by simp) (by simp)
          (by simp [SubscribeRequest.undoes]) (by rw [hpc]; rfl)
    | unsubscribe topic =>
      simp only [SubscribeRequest.afterGet, SubscribeRequest.subscribes, Bool.false_eq_true,
        false_and, if_false, Option.some.injEq] at hget
      subst hget
      exact hi.goto (by simp [hp]) (by simp) (by simp) (by simp) (by simp) (by rw [hpc]; rfl)
  · cases req with
    | subscribe topic qos callback =>
      obtain rfl : .eraseTopic .connectionLost = pc := by
        simpa [SubscribeRequest.afterGet, SubscribeRequest.subscribes] using hget
      exact hi.goto (by simp [hp]) (by simp) (by simp) (by simp)
        (by simp [SubscribeRequest.undoes]) (by rw [hpc]; rfl)
    | unsubscribe topic =>
      obtain rfl : .failed .connectionLost = pc := by
        simpa [SubscribeRequest.afterGet, SubscribeRequest.subscribes] using hget
      exact hi.goto (by simp [hp]) (by simp) (by simp) (by simp) (by simp)
        (by rw [hpc]; rfl)

theorem step (hi : AloneInv table req c s) {l : SubscribeLabel κ}
    (hl : l.call = some c ∨ l.call = none) (h : subscribeStep s l = some s') :
    AloneInv table req c s' := by
  cases SubscribeStep.of_eq h with
  | begin c' r hpc =>
    obtain rfl : c' = c := by simpa [SubscribeLabel.call] using hl
    exact (hi.born.1 hpc).elim
  | table c' hpc =>
    obtain rfl : c' = c := by simpa [SubscribeLabel.call] using hl
    refine hi.move (SubscribeState.goto_self _) rfl rfl rfl rfl
      (by simp [hpc, SubscribePc.holdsEntry]) (by simp) (by simp) (by simp) (by simp)
      (fun t ht => ?_) ?_
    · rw [hi.req_eq]
      exact req.lookup_apply_ne ht
    · rw [hi.req_eq]
      exact req.lookup_apply
  | check c' connected hpc =>
    obtain rfl : c' = c := by simpa [SubscribeLabel.call] using hl
    cases connected <;>
      exact hi.goto (by simp [hpc, SubscribePc.holdsEntry]) (by simp) (by simp) (by simp)
        (by simp) (by rw [hpc]; rfl)
  | fetch c' hpc =>
    obtain rfl : c' = c := by simpa [SubscribeLabel.call] using hl
    refine hi.move (SubscribeState.setCall_self _) rfl rfl rfl rfl
      (by simp [hpc, SubscribePc.holdsEntry]) ?_ ?_ ?_ ?_ (fun _ _ => rfl) (hi.own.trans ?_)
    all_goals by_cases hz : s.nextPacketId = 0
    all_goals simp [hz, hpc, SubscribeRequest.entryAt]
  | refetch c' hpc =>
    obtain rfl : c' = c := by simpa [SubscribeLabel.call] using hl
    exact hi.move (SubscribeState.setCall_self _) rfl rfl rfl rfl
      (by simp [hpc, SubscribePc.holdsEntry]) (by simp) (by simp) (by simp) (by simp)
      (fun _ _ => rfl) (hi.own.trans (by rw [hpc]; rfl))
  | register c' hpc =>
    obtain rfl : c' = c := by simpa [SubscribeLabel.call] using hl
    exact hi.register hpc
  | sent c' hpc =>
    obtain rfl : c' = c := by simpa [SubscribeLabel.call] using hl
    exact hi.goto (by simp [SubscribePc.holdsEntry]) (by simp [hpc]) (by simp) (by simp) (by simp)
      (by rw [hpc]; rfl)
  | sendFailed c' message hpc =>
    obtain rfl : c' = c := by simpa [SubscribeLabel.call] using hl
    exact hi.goto (by simp [SubscribePc.holdsEntry]) (by simp) (by simp) (by simp) (by simp)
      (by rw [hpc]; rfl)
  | timeout c' hpc hp =>
    obtain rfl : c' = c := by simpa [SubscribeLabel.call] using hl
    exact hi.goto (by simp [SubscribePc.holdsEntry]) (by simp) (by simp) (by simp) (by simp)
      (by rw [hpc]; rfl)
  | get c' pc hpc hget =>
    obtain rfl : c' = c := by simpa [SubscribeLabel.call] using hl
    exact hi.get hpc (hi.req_eq ▸ hget)
  | eraseEntry c' cause hpc =>
    obtain rfl : c' = c := by simpa [SubscribeLabel.call] using hl
    rw [hi.req_eq]
    exact hi.eraseEntry hpc
  | eraseTopic c' cause hpc =>
    obtain rfl : c' = c := by simpa [SubscribeLabel.call] using hl
    have hundo := hi.undoing cause hpc
    have hsub : req.subscribes = true := by
      cases req with
      | subscribe topic qos callback => rfl
      | unsubscribe topic => simp [SubscribeRequest.undoes] at hundo
    refine hi.move (SubscribeState.goto_self _) rfl rfl rfl rfl
      (by simp [hpc, SubscribePc.holdsEntry]) (by simp) (by simp) (fun _ _ => .inl hsub) (by simp)
      (fun t ht => ?_) ?_
    · rw [hi.req_eq]
      exact AList.lookup_erase_ne ht
    · rw [hi.req_eq, AList.lookup_erase]
      simp [SubscribeRequest.entryAt, hundo]
  | suback body => exact hi.handleSuback body
  | unsuback body => exact hi.handleUnsuback body
  | failAllAcks => exact hi.failAllAcks

end AloneInv

/-! ## Causes and results -/

/-- The event makes call `c` fail for the given cause. -/
def SubscribeState.Provokes (s : SubscribeState κ) (c : ℕ) :
    SubscribeLabel κ → FailureCause → Prop
  | .send c' (some message), .sendError message' => c' = c ∧ message = message'
  | .timeout c', .ackTimeout => c' = c
  | .suback body, .rejected => (s.calls c).pc = .wait ∧ ∃ info, parseSuback body = .ok info ∧
      s.pendingSubacks info.packetId = some c ∧ info.returnCodes.head?.getD 0x80 = 0x80
  | .failAllAcks, .connectionLost => (s.calls c).pc = .wait ∧
      (s.pendingSubacks (s.calls c).id = some c ∨ s.pendingUnsubacks (s.calls c).id = some c)
  | _, _ => False

/-- The failure of call `c` is settled. -/
def SubscribeState.Doomed (s : SubscribeState κ) (c : ℕ) (cause : FailureCause) : Prop :=
  (s.calls c).pc = .eraseEntry cause ∨ (s.calls c).pc = .eraseTopic cause ∨
    (s.calls c).pc = .failed cause ∨ (s.calls c).pc = .wait ∧
      ((s.calls c).req.afterGet (s.promises c) = some (.eraseTopic cause) ∨
        (s.calls c).req.afterGet (s.promises c) = some (.failed cause))

namespace AloneInv

variable {cause : FailureCause} {l : SubscribeLabel κ} {ls : List (SubscribeLabel κ)}

theorem doomed_of_provokes (hi : AloneInv table req c s) (hp : s.Provokes c l cause)
    (h : subscribeStep s l = some s') : s'.Doomed c cause := by
  unfold SubscribeState.Provokes at hp
  split at hp
  · obtain ⟨rfl, rfl⟩ := hp
    simp only [subscribeStep, Option.ite_none_right_eq_some, Option.some.injEq] at h
    obtain ⟨-, rfl⟩ := h
    exact .inl (by simp)
  · subst hp
    simp only [subscribeStep, Option.ite_none_right_eq_some, Option.some.injEq] at h
    obtain ⟨-, rfl⟩ := h
    exact .inl (by simp)
  · obtain ⟨hpc, info, hparse, hown, hrc⟩ := hp
    obtain rfl := Option.some.inj h
    have hsub : (s.calls c).req.subscribes = true := by
      rw [hi.req_eq]
      exact (hi.suback _ hown).2.1
    refine .inr (.inr (.inr ?_))
    simp only [SubscribeState.handleSuback, hparse]
    rw [Pending.resolve_owner hown, hrc]
    exact ⟨hpc, .inl (by simp [SubscribeRequest.afterGet, hsub])⟩
  · obtain ⟨hpc, hown⟩ := hp
    obtain rfl := Option.some.inj h
    have hlost : s.failAllAcks.promises c = .lost := if_pos hown
    have hcalls : s.failAllAcks.calls = s.calls := rfl
    refine .inr (.inr (.inr ?_))
    rw [hcalls, hlost]
    refine ⟨hpc, ?_⟩
    cases hsub : (s.calls c).req.subscribes <;> simp [SubscribeRequest.afterGet, hsub]
  · exact hp.elim

/-- A settled promise has no entry left for an acknowledgement to find. -/
theorem doomed_acknowledge (hi : AloneInv table req c s) (hd : s.Doomed c cause)
    (hcalls : s'.calls = s.calls)
    (hprom : (∀ id, s.pendingSubacks id ≠ some c) → (∀ id, s.pendingUnsubacks id ≠ some c) →
      s'.promises c = s.promises c) : s'.Doomed c cause := by
  unfold SubscribeState.Doomed at hd ⊢
  rw [hcalls]
  refine hd.imp_right (Or.imp_right (Or.imp_right fun ⟨hpc, hget⟩ => ⟨hpc, ?_⟩))
  have hne : s.promises c ≠ .pending := by
    intro hp
    simp [hp, SubscribeRequest.afterGet] at hget
  rw [hprom (fun id h => hne (hi.suback id h).2.2.2) (fun id h => hne (hi.unsuback id h).2.2.2)]
  exact hget

theorem doomed_step (hi : AloneInv table req c s) (hd : s.Doomed c cause)
    (hl : l.call = some c ∨ l.call = none) (h : subscribeStep s l = some s') :
    s'.Doomed c cause := by
  cases SubscribeStep.of_eq h with
  | suback body =>
    exact hi.doomed_acknowledge hd (SubscribeState.handleSuback_calls body) fun hsub _ =>
      SubscribeState.handleSuback_promises body hsub
  | unsuback body =>
    exact hi.doomed_acknowledge hd rfl fun _ hunsub =>
      SubscribeState.handleUnsuback_promises body hunsub
  | failAllAcks =>
    exact hi.doomed_acknowledge hd rfl fun hsub hunsub =>
      if_neg (not_or.mpr ⟨hsub _, hunsub _⟩)
  | get c' pc hpc hget =>
    obtain rfl : c' = c := by simpa [SubscribeLabel.call] using hl
    simp only [SubscribeState.Doomed, hpc, reduceCtorEq, false_or, true_and, hget,
      Option.some.injEq] at hd
    unfold SubscribeState.Doomed
    rw [SubscribeState.goto_self]
    exact .inr (hd.imp id .inl)
  | eraseEntry c' x hpc =>
    obtain rfl : c' = c := by simpa [SubscribeLabel.call] using hl
    obtain rfl : x = cause := by simpa [SubscribeState.Doomed, hpc] using hd
    unfold SubscribeState.Doomed
    rw [SubscribeState.goto_self]
    split <;> simp
  | eraseTopic c' x hpc =>
    obtain rfl : c' = c := by simpa [SubscribeLabel.call] using hl
    obtain rfl : x = cause := by simpa [SubscribeState.Doomed, hpc] using hd
    exact .inr (.inr (.inl (by simp)))
  | timeout c' hpc hp =>
    obtain rfl : c' = c := by simpa [SubscribeLabel.call] using hl
    simp [SubscribeState.Doomed, hpc, hp, SubscribeRequest.afterGet] at hd
  -- the other points of a call come before any failure
  | _ =>
    obtain rfl : _ = c := by simpa [SubscribeLabel.call] using hl
    simp_all [SubscribeState.Doomed]

theorem exec (hi : AloneInv table req c s) (hls : ∀ l ∈ ls, l.call = some c ∨ l.call = none)
    (h : Runs.exec subscribeStep s ls = some s') : AloneInv table req c s' :=
  Runs.invariant h (Runs.along_of_forall fun l hl _ => hls l hl) hi
    fun _ _ _ hi hl hs => hi.step hl hs

theorem doomed_exec (hi : AloneInv table req c s) (hd : s.Doomed c cause)
    (hls : ∀ l ∈ ls, l.call = some c ∨ l.call = none)
    (h : Runs.exec subscribeStep s ls = some s') : s'.Doomed c cause :=
  (Runs.invariant (I := fun s => AloneInv table req c s ∧ s.Doomed c cause) h
    (Runs.along_of_forall fun l hl _ => hls l hl) ⟨hi, hd⟩
    fun _ _ _ ⟨hi, hd⟩ hl hs => ⟨hi.step hl hs, hi.doomed_step hd hl hs⟩).2

end AloneInv

/-! ## The end of a call -/

/-- How far a call has come. -/
def SubscribePc.stage : SubscribePc → ℕ
  | .unborn => 0
  | .table => 1
  | .check => 2
  | .fetch => 3
  | .refetch => 4
  | .register => 5
  | .send => 6
  | .wait => 7
  | .eraseEntry _ => 8
  | .eraseTopic _ => 9
  | _ => 10

theorem SubscribePc.stage_le (pc : SubscribePc) : pc.stage ≤ 10 := by
  cases pc <;> simp [stage]

theorem SubscribeRequest.stage_afterGet {p : AckPromise} {pc : SubscribePc}
    (h : req.afterGet p = some pc) : 7 < pc.stage := by
  cases p with
  | unset => simp [afterGet] at h
  | pending => simp [afterGet] at h
  | answered rc =>
    simp only [afterGet] at h
    split at h <;> obtain rfl := Option.some.inj h <;> decide
  | lost =>
    simp only [afterGet] at h
    split at h <;> obtain rfl := Option.some.inj h <;> decide
  | broken =>
    obtain rfl := Option.some.inj h
    decide

/-- Each event of a call brings it further. -/
theorem stage_lt_step {l : SubscribeLabel κ} (hl : l.call = some c)
    (h : subscribeStep s l = some s') : (s.calls c).pc.stage < (s'.calls c).pc.stage := by
  cases SubscribeStep.of_eq h with
  | suback body => contradiction
  | unsuback body => contradiction
  | failAllAcks => contradiction
  | check c connected hpc =>
    obtain rfl := Option.some.inj hl
    rw [SubscribeState.goto_self, hpc]
    dsimp only
    split <;> decide
  | fetch c hpc =>
    obtain rfl := Option.some.inj hl
    rw [SubscribeState.fetch, SubscribeState.setCall_self, hpc]
    dsimp only
    split <;> decide
  | get c pc hpc hget =>
    obtain rfl := Option.some.inj hl
    rw [SubscribeState.goto_self, hpc]
    exact SubscribeRequest.stage_afterGet hget
  | eraseEntry c cause hpc =>
    obtain rfl := Option.some.inj hl
    rw [SubscribeState.goto_self, hpc]
    dsimp only
    split <;> simp [SubscribePc.stage]
  | _ =>
    obtain rfl := Option.some.inj hl
    simp_all [SubscribePc.stage, SubscribeState.fetch]

/-- The receive loop leaves the points of the calls alone. -/
theorem subscribeStep_calls_of_recv {l : SubscribeLabel κ} (hl : l.call = none)
    (h : subscribeStep s l = some s') : s'.calls = s.calls := by
  cases SubscribeStep.of_eq h with
  | suback body => exact SubscribeState.handleSuback_calls body
  | unsuback body => rfl
  | failAllAcks => rfl
  | _ => contradiction

/-- A call that has not ended is never stuck: its wait ends with the future or with a timeout. -/
theorem AloneInv.not_stuck (hi : AloneInv table req c s) (h : (s.calls c).pc.ended = false) :
    ∃ l s', l.call = some c ∧ subscribeStep s l = some s' := by
  cases hpc : (s.calls c).pc with
  | unborn => exact (hi.born.1 hpc).elim
  | table => exact ⟨.table c, _, rfl, if_pos hpc⟩
  | check => exact ⟨.check c true, _, rfl, if_pos hpc⟩
  | fetch => exact ⟨.fetch c, _, rfl, if_pos hpc⟩
  | refetch => exact ⟨.fetch c, _, rfl, by rw [subscribeStep, if_neg (by simp [hpc]), if_pos hpc]⟩
  | register => exact ⟨.register c, _, rfl, if_pos hpc⟩
  | send => exact ⟨.send c none, _, rfl, if_pos hpc⟩
  | wait =>
    rcases hi.promise (.inr hpc) with hp | ⟨rc, hp⟩ | hp
    · exact ⟨.timeout c, _, rfl, if_pos ⟨hpc, hp⟩⟩
    · by_cases hrc : (s.calls c).req.subscribes = true ∧ rc = 0x80
      · exact ⟨.get c, _, rfl, by
          simp only [subscribeStep, hpc, hp, SubscribeRequest.afterGet, if_pos hrc]; rfl⟩
      · exact ⟨.get c, _, rfl, by
          simp only [subscribeStep, hpc, hp, SubscribeRequest.afterGet, if_neg hrc]; rfl⟩
    · by_cases hr : (s.calls c).req.subscribes = true
      · exact ⟨.get c, _, rfl, by
          simp only [subscribeStep, hpc, hp, SubscribeRequest.afterGet, if_pos hr]; rfl⟩
      · exact ⟨.get c, _, rfl, by
          simp only [subscribeStep, hpc, hp, SubscribeRequest.afterGet, if_neg hr]; rfl⟩
  | eraseEntry cause => exact ⟨.eraseEntry c, _, rfl, by simp only [subscribeStep, hpc]; rfl⟩
  | eraseTopic cause => exact ⟨.eraseTopic c, _, rfl, by simp only [subscribeStep, hpc]; rfl⟩
  | done => simp [hpc, SubscribePc.ended] at h
  | failed cause => simp [hpc, SubscribePc.ended] at h
  | broken => simp [hpc, SubscribePc.ended] at h

theorem SubscribeRequest.failure_cases (r : SubscribeRequest κ) {cause : FailureCause}
    (h : r.subscribes = true ∨ cause ≠ .rejected) :
    (∃ e, r.failure cause = .returned (.error e)) ∨
      r.subscribes = false ∧ cause = .connectionLost ∧
        r.failure cause = .thrown ⟨.connectionLost, ascii "Disconnected"⟩ := by
  cases r with
  | subscribe topic qos callback => cases cause <;> exact .inl ⟨_, rfl⟩
  | unsubscribe topic =>
    cases cause with
    | sendError message => exact .inl ⟨_, rfl⟩
    | rejected => simp [SubscribeRequest.subscribes] at h
    | ackTimeout => exact .inl ⟨_, rfl⟩
    | connectionLost => exact .inr ⟨rfl, rfl, rfl⟩

/-- What a request `req`, made as call `c` in state `s₀`, leaves behind once it has ended in `s`. -/
structure RequestOutcome (s₀ s : SubscribeState κ) (c : ℕ) (req : SubscribeRequest κ) : Prop where
  /-- Every cause of failure gives an error, but an `unsubscribe` throws on a lost connection. -/
  result : (s.calls c).pc = .done ∨ ∃ cause, (s.calls c).pc = .failed cause ∧
    ((∃ e, req.failure cause = .returned (.error e)) ∨
      req.subscribes = false ∧ cause = .connectionLost ∧
        req.failure cause = .thrown ⟨.connectionLost, ascii "Disconnected"⟩)
  entries : ∀ id, s.pendingSubacks id ≠ some c ∧ s.pendingUnsubacks id ≠ some c
  others : ∀ t, t ≠ req.topic → s.subscriptions.lookup t = s₀.subscriptions.lookup t
  removed : req.subscribes = false → s.subscriptions.lookup req.topic = none
  /-- A failed `subscribe` of a new topic leaves the table as it was, except after a timeout. -/
  restored : ∀ cause, req.subscribes = true → (s.calls c).pc = .failed cause →
    cause ≠ .ackTimeout → req.topic ∉ s₀.subscriptions →
    ∀ t, s.subscriptions.lookup t = s₀.subscriptions.lookup t

theorem AloneInv.outcome {s₀ : SubscribeState κ} (hi : AloneInv s₀.subscriptions req c s)
    (hended : (s.calls c).pc.ended = true) : RequestOutcome s₀ s c req where
  result := by
    cases hpc : (s.calls c).pc <;> simp [hpc, SubscribePc.ended] at hended
    · exact .inl rfl
    · next cause => exact .inr ⟨cause, rfl, req.failure_cases (hi.erasing cause (.inr hpc))⟩
    · exact (hi.born.2 hpc).elim
  entries id := by
    refine ⟨fun hid => ?_, fun hid => ?_⟩
    · have := (hi.suback id hid).2.2.1
      cases hpc : (s.calls c).pc <;> simp_all [SubscribePc.ended, SubscribePc.holdsEntry]
    · have := (hi.unsuback id hid).2.2.1
      cases hpc : (s.calls c).pc <;> simp_all [SubscribePc.ended, SubscribePc.holdsEntry]
  others := hi.others
  removed hr := by
    rw [hi.own]
    cases req with
    | subscribe topic qos callback => simp [SubscribeRequest.subscribes] at hr
    | unsubscribe topic =>
      cases hpc : (s.calls c).pc <;> simp_all [SubscribePc.ended, SubscribeRequest.entryAt,
        SubscribeRequest.entry]
  restored cause hr hpc hne hnew t := by
    by_cases ht : t = req.topic
    · have hundo : req.undoes cause = true := by
        cases req with
        | subscribe topic qos callback => cases cause <;> simp_all [SubscribeRequest.undoes]
        | unsubscribe topic => simp [SubscribeRequest.subscribes] at hr
      rw [ht, hi.own, hpc, AList.lookup_eq_none.mpr hnew, SubscribeRequest.entryAt, if_pos hundo]
    · exact hi.others t ht

/--
A request on its own, on any table. It ends: it makes at most nine more steps of its own, and
while it has not ended one of them is possible. Once it has ended, a cause of failure has made it
fail for that cause, and it leaves behind what `RequestOutcome` says.
-/
theorem request_failure (s₀ s : SubscribeState κ) (c : ℕ) (req : SubscribeRequest κ)
    (ls : List (SubscribeLabel κ)) (hfresh : s₀.Fresh c)
    (halone : ∀ l ∈ ls, l.call = some c ∨ l.call = none)
    (h : Runs.exec subscribeStep s₀ (.begin c req :: ls) = some s) :
    (ls.countP fun l => l.call = some c) ≤ 9 ∧
    ((s.calls c).pc.ended = false → ∃ l s', l.call = some c ∧ subscribeStep s l = some s') ∧
    ((s.calls c).pc.ended = true → RequestOutcome s₀ s c req ∧
      ∀ ls₁ l ls₂ s₁ cause, ls = ls₁ ++ l :: ls₂ →
        Runs.exec subscribeStep s₀ (.begin c req :: ls₁) = some s₁ → s₁.Provokes c l cause →
        (s.calls c).pc = .failed cause) := by
  have hbegin : subscribeStep s₀ (.begin c req) =
      some (s₀.setCall c { req := req, pc := .table }) := if_pos hfresh.unborn
  have hrun : ∀ ls s, Runs.exec subscribeStep s₀ (.begin c req :: ls) = some s →
      Runs.exec subscribeStep (s₀.setCall c { req := req, pc := .table }) ls = some s := by
    intro ls s h
    obtain ⟨t, ht, h⟩ := Runs.exec_cons_eq_some.mp h
    obtain rfl := Option.some.inj (hbegin.symm.trans ht)
    exact h
  have hi : AloneInv s₀.subscriptions req c s := (AloneInv.begin hfresh).exec halone (hrun ls s h)
  refine ⟨?_, hi.not_stuck, fun hended => ⟨hi.outcome hended, ?_⟩⟩
  · have hrank := Runs.rank_add_countP_le (m := fun s => (s.calls c).pc.stage)
      (p := fun l => l.call = some c) (hrun ls s h)
      (Runs.along_of_forall fun l hl _ => halone l hl) ?_
    · have hlast := (s.calls c).pc.stage_le
      have hfirst : SubscribePc.table.stage = 1 := rfl
      rw [SubscribeState.setCall_self, hfirst] at hrank
      omega
    · intro s l s' hl hs
      rcases hl with hl | hl
      · simpa [hl] using stage_lt_step hl hs
      · simp [hl, subscribeStep_calls_of_recv hl hs]
  · intro ls₁ l ls₂ s₁ cause hls h₁ hp
    subst hls
    have hs₁ := hrun ls₁ s₁ h₁
    have hi₁ : AloneInv s₀.subscriptions req c s₁ :=
      (AloneInv.begin hfresh).exec (fun l hl => halone l (List.mem_append_left _ hl)) hs₁
    have hrest : Runs.exec subscribeStep s₁ (l :: ls₂) = some s := by
      have := hrun _ s h
      rwa [Runs.exec_append, hs₁] at this
    obtain ⟨s₂, hs₂, hrest⟩ := Runs.exec_cons_eq_some.mp hrest
    have hl := halone l (by simp)
    have hd := (hi₁.step hl hs₂).doomed_exec (hi₁.doomed_of_provokes hp hs₂)
      (fun l' hl' => halone l' (by simp [hl'])) hrest
    rcases hd with hpc | hpc | hpc | ⟨hpc, -⟩
    · simp [hpc, SubscribePc.ended] at hended
    · simp [hpc, SubscribePc.ended] at hended
    · exact hpc
    · simp [hpc, SubscribePc.ended] at hended

/-- A `subscribe` that the broker rejects. -/
def rejectedSubscribe : List (SubscribeLabel Unit) :=
  [.table 0, .check 0 true, .fetch 0, .register 0, .send 0 none, .suback [0, 1, 0x80], .get 0,
    .eraseTopic 0]

theorem fresh_initial (c : ℕ) : (SubscribeState.initial : SubscribeState κ).Fresh c :=
  ⟨rfl, nofun, nofun⟩

/-- That call leaves the empty table empty. -/
theorem request_failure_rejectedSubscribe :
    ∃ s : SubscribeState Unit, Runs.exec subscribeStep SubscribeState.initial
        (.begin 0 (.subscribe (ascii "a") 1 ()) :: rejectedSubscribe) = some s ∧
      (s.calls 0).pc = .failed .rejected ∧ (∀ id, s.pendingSubacks id ≠ some 0) ∧
      ∀ t, s.subscriptions.lookup t = none := by
  have hrun : (Runs.exec subscribeStep SubscribeState.initial
      (.begin 0 (.subscribe (ascii "a") 1 ()) :: rejectedSubscribe)).map
      (fun s => (s.calls 0).pc) = some (.failed .rejected) := by
    decide +kernel
  obtain ⟨s, hs, hpc⟩ := Option.map_eq_some_iff.mp hrun
  obtain ⟨-, -, hends⟩ := request_failure SubscribeState.initial s 0
    (.subscribe (ascii "a") 1 ()) rejectedSubscribe (fresh_initial 0)
    (by simp [rejectedSubscribe, SubscribeLabel.call]) hs
  obtain ⟨houtcome, -⟩ := hends (by rw [hpc]; rfl)
  exact ⟨s, hs, hpc, fun id => (houtcome.entries id).1,
    houtcome.restored .rejected rfl hpc (by simp) (AList.notMem_empty _)⟩

/-! ## A connection lost under `unsubscribe` -/

/-- A table with one topic. -/
def oneTopic : SubscribeState Unit :=
  { SubscribeState.initial with
    subscriptions := AList.insert (ascii "a") ⟨1, ()⟩ (∅ : AList fun _ : Bytes => TopicSub Unit) }

def lostUnsubscribe : List (SubscribeLabel Unit) :=
  [.begin 0 (.unsubscribe (ascii "a")), .table 0, .check 0 true, .fetch 0, .register 0,
    .send 0 none, .failAllAcks, .get 0]

/-- The call throws, and its topic is gone. -/
theorem unsubscribe_throws :
    oneTopic.Fresh 0 ∧ ∃ s, Runs.exec subscribeStep oneTopic lostUnsubscribe = some s ∧
      (s.calls 0).pc = .failed .connectionLost ∧
      (s.calls 0).req.failure .connectionLost =
        .thrown ⟨.connectionLost, ascii "Disconnected"⟩ ∧
      (s.subscriptions.lookup (ascii "a")).isSome = false ∧
      (oneTopic.subscriptions.lookup (ascii "a")).isSome = true := by
  refine ⟨⟨rfl, nofun, nofun⟩, ?_⟩
  have hrun : (Runs.exec subscribeStep oneTopic lostUnsubscribe).map (fun s =>
      ((s.calls 0).pc, (s.calls 0).req.subscribes,
        (s.subscriptions.lookup (ascii "a")).isSome)) =
      some (.failed .connectionLost, false, false) := by
    decide +kernel
  obtain ⟨s, hs, hv⟩ := Option.map_eq_some_iff.mp hrun
  simp only [Prod.mk.injEq] at hv
  obtain ⟨hpc, hreq, hlookup⟩ := hv
  refine ⟨s, hs, hpc, ?_, hlookup, by decide +kernel⟩
  cases hr : (s.calls 0).req with
  | subscribe topic qos callback => simp [hr, SubscribeRequest.subscribes] at hreq
  | unsubscribe topic => rfl

end MqttNativeSocket
