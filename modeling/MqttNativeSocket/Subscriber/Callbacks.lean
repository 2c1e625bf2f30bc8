import MqttNativeSocket.Subscriber.Batches

/-! # Requests made by message callbacks

The receive loop runs the callback of a message itself, and the callback may call
`subscribe` and `unsubscribe`. Until such a request has ended nobody reads what
the broker answers, so that the request ends by its own means or not at all.
-/

namespace MqttNativeSocket

variable {κ : Type}

/-- The requests with one receive loop; `made` lists those of its callbacks, the latest first. -/
structure CallbackState (κ : Type) where
  requests : SubscribeState κ
  made : List ℕ

inductive CallbackLabel (κ : Type) where
  /-- A step of a request, or of the receive loop. -/
  | request (l : SubscribeLabel κ)
  /-- A callback makes request `c`. -/
  | callback (c : ℕ) (req : SubscribeRequest κ)

namespace CallbackState

def initial : CallbackState κ := ⟨.initial, []⟩

/-- The receive thread is inside a request that a callback has made. -/
def busy (s : CallbackState κ) : Bool :=
  s.made.head?.any fun c => !(s.requests.calls c).pc.ended

end CallbackState

/-- A busy receive thread handles no packet, notices no loss and runs no other callback. -/
def callbackStep (s : CallbackState κ) : CallbackLabel κ → Option (CallbackState κ)
  | .request l =>
    if l.call = none ∧ s.busy then none
    else (subscribeStep s.requests l).map fun r => { s with requests := r }
  | .callback c req =>
    if s.busy then none
    else (subscribeStep s.requests (.begin c req)).map fun r => ⟨r, c :: s.made⟩

/-- The causes that a request finds by itself. -/
def FailureCause.own : FailureCause → Bool
  | .sendError _ => true
  | .ackTimeout => true
  | _ => false

variable {s s' : SubscribeState κ} {c d : ℕ} {l : SubscribeLabel κ}

/-- The entry of call `c` under `id`, in the map of subscriptions or in the other one. -/
structure SubscribeState.EntryFits (s : SubscribeState κ) (c : ℕ) (id : UInt16)
    (subscribes : Bool) : Prop where
  id_eq : id = (s.calls c).id
  kind : (s.calls c).req.subscribes = subscribes
  holdsEntry : (s.calls c).pc.holdsEntry = true
  pending : s.promises c = .pending

/-- Nothing has answered call `c`. -/
structure SelfServed (s : SubscribeState κ) (c : ℕ) : Prop where
  born : (s.calls c).pc ≠ .unborn
  unsent : (s.calls c).pc = .table ∨ (s.calls c).pc = .check ∨ (s.calls c).pc = .done →
    (s.calls c).id = 0
  waiting : (s.calls c).pc = .send ∨ (s.calls c).pc = .wait →
    s.promises c = .pending ∨ s.promises c = .broken
  cause : ∀ cause, (s.calls c).pc.cause = some cause → cause.own = true
  suback : ∀ id, s.pendingSubacks id = some c → s.EntryFits c id true
  unsuback : ∀ id, s.pendingUnsubacks id = some c → s.EntryFits c id false

namespace SelfServed

/-- The promise of the call is dropped, and with it its entry. -/
theorem dropped (hi : SelfServed s c) (hcall : s'.calls c = s.calls c)
    (hprom : s'.promises c = (s.promises c).drop) (hnone : s'.NoEntry c) : SelfServed s' c where
  born := by
    rw [hcall]
    exact hi.born
  unsent := by
    rw [hcall]
    exact hi.unsent
  waiting h := by
    rw [hcall] at h
    rcases hi.waiting h with hp | hp <;> simp [hprom, hp, AckPromise.drop]
  cause := by
    rw [hcall]
    exact hi.cause
  suback id h := ((hnone id).1 h).elim
  unsuback id h := ((hnone id).2 h).elim

/-- The others leave the promise of the call alone and make no entry for it. -/
theorem kept (hi : SelfServed s c) (hcall : s'.calls c = s.calls c)
    (hprom : s'.promises c = s.promises c)
    (hsub : ∀ id, s'.pendingSubacks id = some c → s.pendingSubacks id = some c)
    (hunsub : ∀ id, s'.pendingUnsubacks id = some c → s.pendingUnsubacks id = some c) :
    SelfServed s' c where
  born := by
    rw [hcall]
    exact hi.born
  unsent := by
    rw [hcall]
    exact hi.unsent
  waiting := by
    rw [hcall, hprom]
    exact hi.waiting
  cause := by
    rw [hcall]
    exact hi.cause
  suback id h := by
    obtain ⟨hid, hkind, hpc, hp⟩ := hi.suback id (hsub id h)
    exact ⟨hcall ▸ hid, hcall ▸ hkind, hcall ▸ hpc, hprom.trans hp⟩
  unsuback id h := by
    obtain ⟨hid, hkind, hpc, hp⟩ := hi.unsuback id (hunsub id h)
    exact ⟨hcall ▸ hid, hcall ▸ hkind, hcall ▸ hpc, hprom.trans hp⟩

/-- An entry in the one map rules out one in the other. -/
theorem unsuback_ne (hi : SelfServed s c) {id : UInt16} (h : s.pendingSubacks id = some c)
    (id' : UInt16) : s.pendingUnsubacks id' ≠ some c := by
  intro h'
  have hkind := (hi.suback id h).kind
  rw [(hi.unsuback id' h').kind] at hkind
  contradiction

theorem suback_ne (hi : SelfServed s c) {id : UInt16} (h : s.pendingUnsubacks id = some c)
    (id' : UInt16) : s.pendingSubacks id' ≠ some c :=
  fun h' => hi.unsuback_ne h' id h

theorem noEntry (hi : SelfServed s c) (hpc : (s.calls c).pc.holdsEntry = false) :
    s.NoEntry c := by
  intro id
  constructor
  · intro h
    rw [(hi.suback id h).holdsEntry] at hpc
    contradiction
  · intro h
    rw [(hi.unsuback id h).holdsEntry] at hpc
    contradiction

theorem noEntry_of_ended (hi : SelfServed s c) (hpc : (s.calls c).pc.ended = true) :
    s.NoEntry c := by
  apply hi.noEntry
  cases hat : (s.calls c).pc <;> simp_all [SubscribePc.ended, SubscribePc.holdsEntry]

/-! ## Steps of the others -/

/-- Another call removes the entry under `id`, or puts its own there. -/
theorem overwrite_suback (hi : SelfServed s c) (id : UInt16) {x : Option ℕ} (hx : x ≠ some c)
    (hcall : s'.calls c = s.calls c)
    (hprom : s'.promises c = Pending.resolve s.pendingSubacks s.promises id AckPromise.drop c)
    (hsub : s'.pendingSubacks = Function.update s.pendingSubacks id x)
    (hunsub : s'.pendingUnsubacks = s.pendingUnsubacks) : SelfServed s' c := by
  rcases Pending.overwrite_cases hx fun id h => (hi.suback id h).id_eq with
    ⟨hentry, hdrop, hnone⟩ | ⟨hsame, hold⟩
  · refine hi.dropped hcall (hprom.trans hdrop) fun id' => ⟨?_, ?_⟩
    · rw [hsub]
      exact hnone id'
    · rw [hunsub]
      exact hi.unsuback_ne hentry id'
  · refine hi.kept hcall (hprom.trans hsame) (fun id' h => hold id' ?_) fun id' h => ?_
    · rwa [hsub] at h
    · rwa [hunsub] at h

theorem overwrite_unsuback (hi : SelfServed s c) (id : UInt16) {x : Option ℕ} (hx : x ≠ some c)
    (hcall : s'.calls c = s.calls c)
    (hprom : s'.promises c = Pending.resolve s.pendingUnsubacks s.promises id AckPromise.drop c)
    (hsub : s'.pendingSubacks = s.pendingSubacks)
    (hunsub : s'.pendingUnsubacks = Function.update s.pendingUnsubacks id x) :
    SelfServed s' c := by
  rcases Pending.overwrite_cases hx fun id h => (hi.unsuback id h).id_eq with
    ⟨hentry, hdrop, hnone⟩ | ⟨hsame, hold⟩
  · refine hi.dropped hcall (hprom.trans hdrop) fun id' => ⟨?_, ?_⟩
    · rw [hsub]
      exact hi.suback_ne hentry id'
    · rw [hunsub]
      exact hnone id'
  · refine hi.kept hcall (hprom.trans hsame) (fun id' h => ?_) fun id' h => hold id' ?_
    · rwa [hsub] at h
    · rwa [hunsub] at h

theorem other (hi : SelfServed s c) (hl : l.call = some d) (hne : d ≠ c)
    (h : subscribeStep s l = some s') : SelfServed s' c := by
  have hcall : s'.calls c = s.calls c := subscribeStep_calls_of_ne hl h hne.symm
  have hput : some d ≠ some c := fun he => hne (Option.some.inj he)
  cases SubscribeStep.of_eq h with
  | register d' hpc =>
    obtain rfl : d' = d := Option.some.inj hl
    cases hkind : (s.calls d').req.subscribes with
    | true =>
      apply hi.overwrite_suback (s.calls d').id hput hcall <;>
        simp [SubscribeState.register, SubscribeState.goto, SubscribeState.setCall, hkind, hne.symm]
    | false =>
      apply hi.overwrite_unsuback (s.calls d').id hput hcall <;>
        simp [SubscribeState.register, SubscribeState.goto, SubscribeState.setCall, hkind, hne.symm]
  | eraseEntry d' cause hpc =>
    obtain rfl : d' = d := Option.some.inj hl
    have hnone : (none : Option ℕ) ≠ some c := by simp
    cases hkind : (s.calls d').req.subscribes with
    | true =>
      apply hi.overwrite_suback (s.calls d').id hnone hcall <;>
        simp [SubscribeState.eraseEntry, SubscribeState.goto, SubscribeState.setCall, hkind]
    | false =>
      apply hi.overwrite_unsuback (s.calls d').id hnone hcall <;>
        simp [SubscribeState.eraseEntry, SubscribeState.goto, SubscribeState.setCall, hkind]
  | suback body => contradiction
  | unsuback body => contradiction
  | failAllAcks => contradiction
  | _ => exact hi.kept hcall rfl (fun _ h => h) fun _ h => h

/-- The receive loop goes on when the request has ended. -/
theorem recv (hi : SelfServed s c) (hended : (s.calls c).pc.ended = true) (hl : l.call = none)
    (h : subscribeStep s l = some s') : SelfServed s' c := by
  have hcall : s'.calls c = s.calls c := congrFun (subscribeStep_calls_of_recv hl h) c
  have hnone := (hi.noEntry_of_ended hended).step (by simp [hl]) h
  refine ⟨?_, ?_, fun hwait => ?_, ?_, fun id hid => ((hnone id).1 hid).elim,
    fun id hid => ((hnone id).2 hid).elim⟩
  · rw [hcall]
    exact hi.born
  · rw [hcall]
    exact hi.unsent
  · rw [hcall] at hwait
    rcases hwait with hpc | hpc <;> simp [hpc, SubscribePc.ended] at hended
  · rw [hcall]
    exact hi.cause

/-! ## Steps of the request -/

/-- The request goes on; neither a map nor a promise changes. -/
theorem move (hi : SelfServed s c) {k : SubscribeCall κ} (hcall : s'.calls c = k)
    (hreq : k.req = (s.calls c).req) (hsub : s'.pendingSubacks = s.pendingSubacks)
    (hunsub : s'.pendingUnsubacks = s.pendingUnsubacks) (hprom : s'.promises = s.promises)
    (hborn : k.pc ≠ .unborn) (hunsent : k.pc = .table ∨ k.pc = .check ∨ k.pc = .done → k.id = 0)
    (hwaiting : k.pc = .send ∨ k.pc = .wait → (s.calls c).pc = .send ∨ (s.calls c).pc = .wait)
    (hcause : ∀ cause, k.pc.cause = some cause →
      cause.own = true ∨ (s.calls c).pc.cause = some cause)
    (hentry : (s.calls c).pc.holdsEntry = true → s.promises c = .pending →
      k.id = (s.calls c).id ∧ k.pc.holdsEntry = true) : SelfServed s' c where
  born := by rwa [hcall]
  unsent := by rwa [hcall]
  waiting h := by
    rw [hcall] at h
    rw [hprom]
    exact hi.waiting (hwaiting h)
  cause cause h := by
    rw [hcall] at h
    exact (hcause cause h).elim id (hi.cause cause)
  suback id h := by
    rw [hsub] at h
    obtain ⟨hid, hkind, hpc, hp⟩ := hi.suback id h
    obtain ⟨hid', hpc'⟩ := hentry hpc hp
    exact ⟨by rw [hcall, hid, hid'], by rw [hcall, hreq, hkind], by rw [hcall, hpc'],
      by rw [hprom, hp]⟩
  unsuback id h := by
    rw [hunsub] at h
    obtain ⟨hid, hkind, hpc, hp⟩ := hi.unsuback id h
    obtain ⟨hid', hpc'⟩ := hentry hpc hp
    exact ⟨by rw [hcall, hid, hid'], by rw [hcall, hreq, hkind], by rw [hcall, hpc'],
      by rw [hprom, hp]⟩

theorem register (hi : SelfServed s c) (hpc : (s.calls c).pc = .register) :
    SelfServed ((s.register c).goto c .send) c := by
  have hnone : s.NoEntry c := hi.noEntry (by rw [hpc]; rfl)
  have hcall : ((s.register c).goto c .send).calls c = { s.calls c with pc := .send } := by
    rw [SubscribeState.goto_self, IdsFit.register_calls]
  have hprom : ((s.register c).goto c .send).promises c = .pending := by
    change (s.register c).promises c = .pending
    unfold SubscribeState.register
    split
    · exact Function.update_self ..
    · exact Function.update_self ..
  refine ⟨by simp, by simp, fun _ => .inl hprom, by simp [SubscribePc.cause], fun id h => ?_,
    fun id h => ?_⟩
  · change (s.register c).pendingSubacks id = some c at h
    unfold SubscribeState.register at h
    split at h
    · next hkind =>
      obtain ⟨hid, -⟩ | hold := Pending.of_put h
      · exact ⟨by rw [hcall, hid], by rw [hcall, hkind], by rw [hcall]; rfl, hprom⟩
      · exact ((hnone id).1 hold).elim
    · exact ((hnone id).1 h).elim
  · change (s.register c).pendingUnsubacks id = some c at h
    unfold SubscribeState.register at h
    split at h
    · exact ((hnone id).2 h).elim
    · next hkind =>
      obtain ⟨hid, -⟩ | hold := Pending.of_put h
      · exact ⟨by rw [hcall, hid], by rw [hcall]; simpa using hkind, by rw [hcall]; rfl, hprom⟩
      · exact ((hnone id).2 hold).elim

/-- The request gives up, and its entry goes. -/
theorem eraseEntry (hi : SelfServed s c) {cause : FailureCause}
    (hpc : (s.calls c).pc = .eraseEntry cause) :
    SelfServed ((s.eraseEntry c).goto c
      (if (s.calls c).req.undoes cause then .eraseTopic cause else .failed cause)) c := by
  have hown : cause.own = true := hi.cause cause (by rw [hpc]; rfl)
  have hnone : (s.eraseEntry c).NoEntry c := by
    intro id
    unfold SubscribeState.eraseEntry
    split
    · next hkind =>
      refine ⟨fun h => ?_, fun h => ?_⟩
      · rw [(hi.suback id (Pending.of_remove h)).id_eq] at h
        simp at h
      · rw [(hi.unsuback id h).kind] at hkind
        contradiction
    · next hkind =>
      refine ⟨fun h => hkind (hi.suback id h).kind, fun h => ?_⟩
      rw [(hi.unsuback id (Pending.of_remove h)).id_eq] at h
      simp at h
  have hcall : ∀ pc, ((s.eraseEntry c).goto c pc).calls c = { s.calls c with pc := pc } := by
    intro pc
    rw [SubscribeState.goto_self, IdsFit.eraseEntry_calls]
  refine ⟨?_, ?_, ?_, ?_, fun id h => ((hnone id).1 h).elim, fun id h => ((hnone id).2 h).elim⟩
  · rw [hcall]
    split <;> simp
  · rw [hcall]
    split <;> simp
  · rw [hcall]
    split <;> simp
  · rw [hcall]
    split <;> simpa [SubscribePc.cause] using hown

theorem self (hi : SelfServed s c) (hl : l.call = some c) (h : subscribeStep s l = some s') :
    SelfServed s' c := by
  cases SubscribeStep.of_eq h with
  | begin c' req hpc =>
    obtain rfl : c' = c := Option.some.inj hl
    exact (hi.born hpc).elim
  | table c' hpc =>
    obtain rfl : c' = c := Option.some.inj hl
    have hid := hi.unsent (.inl hpc)
    refine hi.move (SubscribeState.goto_self _) rfl rfl rfl rfl ?_ ?_ ?_ ?_ ?_ <;>
      simp [hpc, hid, SubscribePc.cause, SubscribePc.holdsEntry]
  | check c' connected hpc =>
    obtain rfl : c' = c := Option.some.inj hl
    have hid := hi.unsent (.inr (.inl hpc))
    refine hi.move (SubscribeState.goto_self _) rfl rfl rfl rfl ?_ ?_ ?_ ?_ ?_ <;>
      cases connected <;> simp [hpc, hid, SubscribePc.cause, SubscribePc.holdsEntry]
  | fetch c' hpc =>
    obtain rfl : c' = c := Option.some.inj hl
    refine hi.move (SubscribeState.setCall_self _) rfl rfl rfl rfl ?_ ?_ ?_ ?_ ?_ <;>
      by_cases hz : s.nextPacketId = 0 <;>
        simp [hz, hpc, SubscribePc.cause, SubscribePc.holdsEntry]
  | refetch c' hpc =>
    obtain rfl : c' = c := Option.some.inj hl
    refine hi.move (SubscribeState.setCall_self _) rfl rfl rfl rfl ?_ ?_ ?_ ?_ ?_ <;>
      simp [hpc, SubscribePc.cause, SubscribePc.holdsEntry]
  | register c' hpc =>
    obtain rfl : c' = c := Option.some.inj hl
    exact hi.register hpc
  | sent c' hpc =>
    obtain rfl : c' = c := Option.some.inj hl
    refine hi.move (SubscribeState.goto_self _) rfl rfl rfl rfl ?_ ?_ ?_ ?_ ?_ <;>
      simp [hpc, SubscribePc.cause, SubscribePc.holdsEntry]
  | sendFailed c' message hpc =>
    obtain rfl : c' = c := Option.some.inj hl
    refine hi.move (SubscribeState.goto_self _) rfl rfl rfl rfl ?_ ?_ ?_ ?_ ?_ <;>
      simp [SubscribePc.cause, SubscribePc.holdsEntry, FailureCause.own]
  | timeout c' hpc hp =>
    obtain rfl : c' = c := Option.some.inj hl
    refine hi.move (SubscribeState.goto_self _) rfl rfl rfl rfl ?_ ?_ ?_ ?_ ?_ <;>
      simp [SubscribePc.cause, SubscribePc.holdsEntry, FailureCause.own]
  | get c' pc hpc hget =>
    obtain rfl : c' = c := Option.some.inj hl
    -- nothing but the loss of its promise ends the wait
    rcases hi.waiting (.inr hpc) with hp | hp
    · simp [hp, SubscribeRequest.afterGet] at hget
    · obtain rfl : .broken = pc := by simpa [hp, SubscribeRequest.afterGet] using hget
      refine hi.move (SubscribeState.goto_self _) rfl rfl rfl rfl ?_ ?_ ?_ ?_ ?_ <;>
        simp [hp, SubscribePc.cause]
  | eraseEntry c' cause hpc =>
    obtain rfl : c' = c := Option.some.inj hl
    exact hi.eraseEntry hpc
  | eraseTopic c' cause hpc =>
    obtain rfl : c' = c := Option.some.inj hl
    refine hi.move (SubscribeState.goto_self _) rfl rfl rfl rfl ?_ ?_ ?_ ?_ ?_ <;>
      simp [hpc, SubscribePc.cause, SubscribePc.holdsEntry]
  | suback body => contradiction
  | unsuback body => contradiction
  | failAllAcks => contradiction

/-! ## Its end -/

/-- A success without having sent anything, or an error. -/
theorem completion_cases (hi : SelfServed s c) {r : Completion Unit}
    (h : (s.calls c).completion = some r) :
    r = .returned (.ok ()) ∧ (s.calls c).id = 0 ∨ ∃ e, r = .returned (.error e) := by
  unfold SubscribeCall.completion at h
  split at h
  · next hpc => exact .inl ⟨(Option.some.inj h).symm, hi.unsent (.inr (.inr hpc))⟩
  · next cause hpc =>
    obtain rfl := Option.some.inj h
    have hown := hi.cause cause (by rw [hpc]; rfl)
    cases cause with
    | sendError message => cases (s.calls c).req <;> exact .inr ⟨_, rfl⟩
    | ackTimeout => cases (s.calls c).req <;> exact .inr ⟨_, rfl⟩
    | rejected => contradiction
    | connectionLost => contradiction
  · contradiction

/-- A request under way always has a step of its own: at the latest, its wait times out. -/
theorem exists_step (hi : SelfServed s c) (hpc : (s.calls c).pc.ended = false) :
    ∃ l : SubscribeLabel κ, l.call = some c ∧ (subscribeStep s l).isSome = true := by
  cases hat : (s.calls c).pc with
  | unborn => exact (hi.born hat).elim
  | table => exact ⟨.table c, rfl, by simp [subscribeStep, hat]⟩
  | check => exact ⟨.check c false, rfl, by simp [subscribeStep, hat]⟩
  | fetch => exact ⟨.fetch c, rfl, by simp [subscribeStep, hat]⟩
  | refetch => exact ⟨.fetch c, rfl, by simp [subscribeStep, hat]⟩
  | register => exact ⟨.register c, rfl, by simp [subscribeStep, hat]⟩
  | send => exact ⟨.send c none, rfl, by simp [subscribeStep, hat]⟩
  | wait =>
    rcases hi.waiting (.inr hat) with hp | hp
    · exact ⟨.timeout c, rfl, by simp [subscribeStep, hat, hp]⟩
    · exact ⟨.get c, rfl, by simp [subscribeStep, hat, hp, SubscribeRequest.afterGet]⟩
  | eraseEntry cause => exact ⟨.eraseEntry c, rfl, by simp [subscribeStep, hat]⟩
  | eraseTopic cause => exact ⟨.eraseTopic c, rfl, by simp [subscribeStep, hat]⟩
  | done => simp [hat, SubscribePc.ended] at hpc
  | failed cause => simp [hat, SubscribePc.ended] at hpc
  | broken => simp [hat, SubscribePc.ended] at hpc

end SelfServed

/-! ## Runs -/

/-- Nothing happens any more to a request that has ended. -/
theorem calls_of_ended (hended : (s.calls c).pc.ended = true) (h : subscribeStep s l = some s') :
    s'.calls c = s.calls c := by
  refine SubscribeState.calls_of_other (fun hl => ?_) h
  have hlt := stage_lt_step hl h
  have hle := (s'.calls c).pc.stage_le
  cases hpc : (s.calls c).pc <;> simp_all [SubscribePc.ended, SubscribePc.stage]
  all_goals omega

/-- What holds of the requests of callbacks, and of those that are not made yet. -/
structure CallbackFits (s : CallbackState κ) : Prop where
  served : ∀ c ∈ s.made, SelfServed s.requests c
  one : ∀ c ∈ s.made, (s.requests.calls c).pc.ended = true ∨ s.made.head? = some c
  unborn : ∀ c, (s.requests.calls c).pc = .unborn → s.requests.NoEntry c

namespace CallbackFits

variable {s s' : CallbackState κ} {r : SubscribeState κ}

theorem initial : CallbackFits (CallbackState.initial (κ := κ)) where
  served := by simp [CallbackState.initial]
  one := by simp [CallbackState.initial]
  unborn := by
    intro c _ id
    exact ⟨by simp [CallbackState.initial, SubscribeState.initial],
      by simp [CallbackState.initial, SubscribeState.initial]⟩

/-- A request that is not made yet gets no entry. -/
theorem unborn_step (hs : CallbackFits s) (h : subscribeStep s.requests l = some r)
    (hc : (r.calls c).pc = .unborn) : r.NoEntry c := by
  have hl : l.call ≠ some c := by
    intro hl
    have hlt := stage_lt_step hl h
    rw [hc] at hlt
    exact Nat.not_lt_zero _ hlt
  rw [SubscribeState.calls_of_other hl h] at hc
  exact (hs.unborn c hc).step hl h

/-- While no request of a callback is under way, all of them have ended. -/
theorem ended (hs : CallbackFits s) (hbusy : s.busy = false) (hc : c ∈ s.made) :
    (s.requests.calls c).pc.ended = true := by
  rcases hs.one c hc with hended | hhead
  · exact hended
  · simpa [CallbackState.busy, hhead] using hbusy

theorem request (hs : CallbackFits s) (hl : l.call = none → s.busy = false)
    (h : subscribeStep s.requests l = some r) : CallbackFits { s with requests := r } where
  served c hc := by
    have hi := hs.served c hc
    cases hcall : l.call with
    | none => exact hi.recv (hs.ended (hl hcall) hc) hcall h
    | some d =>
      by_cases hd : d = c
      · exact hi.self (hd ▸ hcall) h
      · exact hi.other hcall hd h
  one c hc := by
    rcases hs.one c hc with hended | hhead
    · refine .inl ?_
      change (r.calls c).pc.ended = true
      rw [calls_of_ended hended h]
      exact hended
    · exact .inr hhead
  unborn c hc := hs.unborn_step h hc

/-- A new request of a callback. -/
theorem callback (hs : CallbackFits s) (hbusy : s.busy = false) {req : SubscribeRequest κ}
    (h : subscribeStep s.requests (.begin c req) = some r) :
    CallbackFits { requests := r, made := c :: s.made } := by
  cases SubscribeStep.of_eq h with
  | begin c' req' hpc =>
    have hnone := hs.unborn c hpc
    have hother : ∀ d ∈ s.made, c ≠ d := by
      rintro d hd rfl
      exact (hs.served c hd).born hpc
    refine ⟨fun d hd => ?_, fun d hd => ?_, fun d hd => hs.unborn_step h hd⟩
    · rcases List.mem_cons.mp hd with rfl | hd
      · exact ⟨by simp, by simp, by simp, by simp [SubscribePc.cause],
          fun id hid => ((hnone id).1 hid).elim, fun id hid => ((hnone id).2 hid).elim⟩
      · exact (hs.served d hd).other rfl (hother d hd) h
    · rcases List.mem_cons.mp hd with rfl | hd
      · exact .inr rfl
      · have hended := hs.ended hbusy hd
        refine .inl ?_
        change ((s.requests.setCall c { req := req, pc := .table }).calls d).pc.ended = true
        rw [calls_of_ended hended h]
        exact hended

theorem step (hs : CallbackFits s) {l : CallbackLabel κ} (h : callbackStep s l = some s') :
    CallbackFits s' := by
  cases l with
  | request l =>
    simp only [callbackStep, Option.ite_none_left_eq_some, Option.map_eq_some_iff] at h
    obtain ⟨hl, r, hr, rfl⟩ := h
    exact hs.request (fun hcall => by simpa [hcall] using hl) hr
  | callback c req =>
    simp only [callbackStep, Option.ite_none_left_eq_some, Option.map_eq_some_iff] at h
    obtain ⟨hbusy, r, hr, rfl⟩ := h
    exact hs.callback (by simpa using hbusy) hr

end CallbackFits

/-- The step is one of request `c`. -/
def CallbackLabel.isOf (c : ℕ) : CallbackLabel κ → Bool
  | .request l => l.call = some c
  | .callback d _ => d = c

/-- Each step of a request brings it further. -/
theorem stage_callbackStep {s s' : CallbackState κ} {l : CallbackLabel κ}
    (h : callbackStep s l = some s') (c : ℕ) :
    (s.requests.calls c).pc.stage + (if l.isOf c then 1 else 0) ≤
      (s'.requests.calls c).pc.stage := by
  obtain ⟨l', hof, hstep⟩ : ∃ l' : SubscribeLabel κ, l.isOf c = decide (l'.call = some c) ∧
      subscribeStep s.requests l' = some s'.requests := by
    cases l with
    | request l =>
      simp only [callbackStep, Option.ite_none_left_eq_some, Option.map_eq_some_iff] at h
      obtain ⟨-, r, hr, rfl⟩ := h
      exact ⟨l, rfl, hr⟩
    | callback d req =>
      simp only [callbackStep, Option.ite_none_left_eq_some, Option.map_eq_some_iff] at h
      obtain ⟨-, r, hr, rfl⟩ := h
      exact ⟨.begin d req, by simp [CallbackLabel.isOf, SubscribeLabel.call], hr⟩
  by_cases hl : l'.call = some c
  · simpa [hof, hl] using stage_lt_step hl hstep
  · simp [hof, hl, SubscribeState.calls_of_other hl hstep]

/--
A `subscribe` or `unsubscribe` made by a message callback is never answered: it succeeds only
without having drawn an identifier, and else fails by itself, after at most ten steps of which the
next is always possible. It leaves no entry for the answer that comes when it has ended.
-/
theorem callback_unanswered {ls : List (CallbackLabel κ)} {s : CallbackState κ}
    (h : Runs.exec callbackStep CallbackState.initial ls = some s) {c : ℕ} (hc : c ∈ s.made) :
    (∀ r, (s.requests.calls c).completion = some r →
        r = .returned (.ok ()) ∧ (s.requests.calls c).id = 0 ∨ ∃ e, r = .returned (.error e)) ∧
      ((s.requests.calls c).pc.ended = true → s.requests.NoEntry c) ∧
      ((s.requests.calls c).pc.ended = false →
        ∃ l, l.call = some c ∧ (callbackStep s (.request l)).isSome = true) ∧
      ls.countP (CallbackLabel.isOf c) ≤ 10 := by
  have hi := (Runs.always h CallbackFits.initial fun _ _ _ hs h => hs.step h).served c hc
  refine ⟨fun r hr => hi.completion_cases hr, hi.noEntry_of_ended, fun hpc => ?_, ?_⟩
  · obtain ⟨l, hl, hstep⟩ := hi.exists_step hpc
    exact ⟨l, hl, by simpa [callbackStep, hl] using hstep⟩
  · have hrank := Runs.rank_add_countP_le (m := fun s => (s.requests.calls c).pc.stage) h
      (Runs.along_of_forall (C := fun _ _ => True) fun _ _ _ => trivial)
      fun _ _ _ _ hs => stage_callbackStep hs c
    have hle := (s.requests.calls c).pc.stage_le
    omega

/-- A callback subscribes; the broker's answer is only read when the wait is over. -/
def subscribeInCallback : List (CallbackLabel Unit) :=
  [.callback 0 (.subscribe (ascii "a") 1 ()), .request (.table 0), .request (.check 0 true),
    .request (.fetch 0), .request (.register 0), .request (.send 0 none), .request (.timeout 0),
    .request (.eraseEntry 0), .request (.suback [0, 1, 1])]

theorem callback_unanswered_subscribeInCallback :
    ∃ s : CallbackState Unit,
      Runs.exec callbackStep CallbackState.initial subscribeInCallback = some s ∧
        (s.requests.calls 0).pc = .failed .ackTimeout ∧ s.requests.NoEntry 0 := by
  have hrun : (Runs.exec callbackStep CallbackState.initial subscribeInCallback).map (fun s =>
      (s.made, (s.requests.calls 0).pc)) = some ([0], .failed .ackTimeout) := by
    decide +kernel
  obtain ⟨s, hs, hv⟩ := Option.map_eq_some_iff.mp hrun
  obtain ⟨hmade, hpc⟩ := Prod.mk.inj hv
  obtain ⟨-, hnone, -⟩ := callback_unanswered hs (c := 0) (by rw [hmade]; simp)
  exact ⟨s, hs, hpc, hnone (by rw [hpc]; rfl)⟩

end MqttNativeSocket
