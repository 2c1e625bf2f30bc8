import MqttNativeSocket.Publisher.Requests

/-! # Who waits for an acknowledgement

`publish` waits for `ackTimeout` at most, but the detached thread of a
`publishAsync` waits for as long as its promise is not settled. A promise that is
not settled always has its entry in `pendingPubacks`, so that the end of the
connection, which fails all entries, ends every wait.
-/

namespace MqttNativeSocket

variable {s s' : PublishState} {c : ℕ} {offlineBuffering : Bool}

/-- The call itself or its detached thread waits for the future. -/
def PublishCall.Waits (k : PublishCall) : Prop := k.pc = .wait ∨ k.thread = .waiting

/-- The call has registered its promise, and somebody is going to look at it. -/
def PublishCall.Registered (k : PublishCall) : Prop :=
  k.pc = .spawn ∨ k.pc = .wait ∨ k.pc = .send ∧ k.req.tracked = true ∨ k.thread ≠ .none

theorem PublishCall.Waits.registered {k : PublishCall} (h : k.Waits) : k.Registered := by
  rcases h with h | h
  · exact .inr (.inl h)
  · exact .inr (.inr (.inr (by simp [h])))

theorem Promise.drop_ne_pending (p : Promise) : p.drop ≠ .pending := by
  cases p <;> simp [Promise.drop]

theorem Promise.drop_eq_unset (p : Promise) (h : p.drop = .unset) : p = .unset := by
  cases p <;> simp_all [Promise.drop]

/-- The promise of call `c` against its entry. -/
structure WaitFits (s : PublishState) (c : ℕ) : Prop where
  fresh : (s.calls c).pc.stage ≤ 4 → s.promises c = .unset
  entry : s.promises c = .pending → s.pendingPubacks (s.calls c).id = some c
  set : (s.calls c).Registered → s.promises c ≠ .unset

namespace WaitFits

/-- What the steps of the others do to the promise of a call. -/
theorem frame (h : WaitFits s c) (hcall : s'.calls c = s.calls c)
    (hunset : s'.promises c = .unset ↔ s.promises c = .unset)
    (hpending : s'.promises c = .pending → s.promises c = .pending ∧
      (s.pendingPubacks (s.calls c).id = some c → s'.pendingPubacks (s.calls c).id = some c)) :
    WaitFits s' c := by
  constructor
  · rw [hcall, hunset]
    exact h.fresh
  · rw [hcall]
    intro hp
    obtain ⟨hold, hkept⟩ := hpending hp
    exact hkept (h.entry hold)
  · rw [hcall, Ne, hunset]
    exact h.set

theorem unregistered (h : WaitFits s c) (hstage : (s.calls c).pc.stage ≤ 4) :
    (s.calls c).thread = .none := by
  by_contra hthread
  exact h.set (.inr (.inr (.inr hthread))) (h.fresh hstage)

/-- A call moves, with its promise and all entries as they were. -/
theorem move (hs : ∀ c, WaitFits s c) {k : PublishCall}
    (hcalls : s'.calls = Function.update s.calls c k) (hpromises : s'.promises = s.promises)
    (hpend : s'.pendingPubacks = s.pendingPubacks)
    (hid : k.id = (s.calls c).id ∨ (s.calls c).pc.stage ≤ 4)
    (hstage : k.pc.stage ≤ 4 → (s.calls c).pc.stage ≤ 4)
    (hreg : k.Registered → (s.calls c).Registered) : ∀ c, WaitFits s' c := by
  intro c'
  by_cases hc : c' = c
  · subst hc
    have hcall : s'.calls c' = k := by rw [hcalls, Function.update_self]
    constructor
    · rw [hcall, hpromises]
      exact fun h => (hs c').fresh (hstage h)
    · rw [hcall, hpromises, hpend]
      intro hp
      rcases hid with hid | hearly
      · rw [hid]
        exact (hs c').entry hp
      · rw [(hs c').fresh hearly] at hp
        contradiction
    · rw [hcall, hpromises]
      exact fun h => (hs c').set (hreg h)
  · exact (hs c').frame (by rw [hcalls, Function.update_of_ne hc]) (by rw [hpromises])
      (by rw [hpromises, hpend]; exact fun h => ⟨h, id⟩)

/-- A call returns, and leaves its entry to whoever has it. -/
theorem done (hs : ∀ c, WaitFits s c) {k : PublishCall} {ec : ErrorCode}
    (hcalls : s'.calls = Function.update s.calls c k) (hpromises : s'.promises = s.promises)
    (hpend : s'.pendingPubacks = s.pendingPubacks) (hid : k.id = (s.calls c).id)
    (hthread : k.thread = (s.calls c).thread) (hpc : k.pc = .done ec) : ∀ c, WaitFits s' c := by
  refine move hs hcalls hpromises hpend (.inl hid) (fun hearly => ?_) ?_
  · simp [hpc, PublishPc.stage] at hearly
  · rintro (h | h | ⟨h, -⟩ | h)
    · simp [hpc] at h
    · simp [hpc] at h
    · simp [hpc] at h
    · exact .inr (.inr (.inr (hthread ▸ h)))

/-- The entry at an identifier goes, and the promise in it is settled. -/
theorem settle (h : WaitFits s c) (he : EntriesFit s) {id : UInt16} {f : Promise → Promise}
    (hpending : ∀ p, f p ≠ .pending) (hunset : ∀ p, f p = .unset → p = .unset)
    (hcall : s'.calls c = s.calls c)
    (hpromises : s'.promises c = Pending.resolve s.pendingPubacks s.promises id f c)
    (hpend : ∀ id', id' ≠ id → s.pendingPubacks id' = some c → s'.pendingPubacks id' = some c) :
    WaitFits s' c := by
  by_cases hown : s.pendingPubacks id = some c
  · rw [Pending.resolve_owner hown] at hpromises
    obtain ⟨-, -, hstage, -⟩ := he id c hown
    constructor
    · rw [hcall]
      intro hearly
      omega
    · rw [hpromises]
      exact fun hp => (hpending _ hp).elim
    · rw [hcall, hpromises]
      exact fun hreg hp => h.set hreg (hunset _ hp)
  · rw [Pending.resolve_of_ne hown] at hpromises
    refine h.frame hcall (by rw [hpromises]) fun hp => ⟨hpromises ▸ hp, fun hentry => ?_⟩
    refine hpend _ ?_ hentry
    rintro rfl
    exact hown hentry

/-- A new promise, and its entry; an older one that stood there is broken. -/
theorem register (hs : ∀ c, WaitFits s c) (he : EntriesFit s) {k : PublishCall}
    (hid : k.id = (s.calls c).id) (hstage : 4 < k.pc.stage) :
    ∀ c', WaitFits ((s.register c).setCall c k) c' := by
  intro c'
  by_cases hc : c' = c
  · subst hc
    have hpending : ((s.register c').setCall c' k).promises c' = .pending :=
      Function.update_self ..
    have hentry : ((s.register c').setCall c' k).pendingPubacks (s.calls c').id = some c' :=
      Function.update_self ..
    constructor
    · rw [PublishState.setCall_self]
      intro hearly
      omega
    · rw [PublishState.setCall_self, hid]
      exact fun _ => hentry
    · rw [hpending]
      simp
  · have hcall := PublishState.setCall_of_ne (s.register c) c k hc
    refine (hs c').settle he Promise.drop_ne_pending Promise.drop_eq_unset hcall
      (Function.update_of_ne hc ..) fun id hne hentry => ?_
    exact (Function.update_of_ne hne ..).trans hentry

theorem failAllPending (h : WaitFits s c) (he : EntriesFit s) : WaitFits s.failAllPending c := by
  have hpromise : s.failAllPending.promises c =
      if s.pendingPubacks (s.calls c).id = some c then .fulfilled .connectionLost
      else s.promises c := rfl
  constructor
  · intro hearly
    rw [hpromise, if_neg (he.not_pending hearly _)]
    exact h.fresh hearly
  · rw [hpromise]
    split
    · simp
    · next hown => exact fun hp => (hown (h.entry hp)).elim
  · intro hreg
    rw [hpromise]
    split
    · simp
    · exact h.set hreg

theorem step (hs : ∀ c, WaitFits s c) (he : EntriesFit s) {l : PublishLabel}
    (h : publishStep offlineBuffering s l = some s') : ∀ c, WaitFits s' c := by
  cases PublishStep.of_eq h with
  | begin c req hpc =>
    refine move hs rfl rfl rfl (.inr (by rw [hpc]; decide)) (fun _ => by rw [hpc]; decide) ?_
    simp [PublishCall.Registered]
  | check c connected hpc =>
    have hearly : (s.calls c).pc.stage ≤ 4 := by rw [hpc]; decide
    refine move hs rfl rfl rfl (.inl rfl) (fun _ => hearly) ?_
    have hthread := (hs c).unregistered hearly
    rcases (s.calls c).req.afterCheck_cases offlineBuffering connected with ⟨h, -⟩ | ⟨h, ha⟩ | h
    · simp [PublishCall.Registered, h, hthread]
    · have htracked : (s.calls c).req.tracked = false := by
        simp_all [PublishRequest.allocates, PublishRequest.tracked]
      simp [PublishCall.Registered, h, hthread, htracked]
    · simp [PublishCall.Registered, h, hthread]
  | fetch c hpc =>
    have hearly : (s.calls c).pc.stage ≤ 4 := by rw [hpc]; decide
    refine move hs rfl rfl rfl (.inr hearly) (fun _ => hearly) ?_
    have hthread := (hs c).unregistered hearly
    rcases (s.calls c).req.afterAlloc_cases with ⟨h, -⟩ | ⟨h, ht⟩ <;>
      by_cases hz : s.nextPacketId = 0 <;> simp [PublishCall.Registered, *]
  | refetch c hpc =>
    have hearly : (s.calls c).pc.stage ≤ 4 := by rw [hpc]; decide
    refine move hs rfl rfl rfl (.inr hearly) (fun _ => hearly) ?_
    have hthread := (hs c).unregistered hearly
    rcases (s.calls c).req.afterAlloc_cases with ⟨h, -⟩ | ⟨h, ht⟩ <;>
      simp [PublishCall.Registered, *]
  | register c hpc =>
    refine register hs he rfl ?_
    dsimp only
    split <;> decide
  | spawn c stays hpc =>
    refine move hs rfl rfl rfl (.inl rfl) (fun hearly => ?_) fun _ => .inl hpc
    simp [PublishPc.stage] at hearly
  | send c ok hpc =>
    refine move hs rfl rfl rfl (.inl rfl) (fun hearly => ?_) ?_
    · rw [PublishRequest.stage_afterSend] at hearly
      omega
    · rintro (h | h | ⟨h, -⟩ | h)
      · rcases (s.calls c).req.afterSend_cases ok with h' | ⟨h', -⟩ | ⟨-, h' | ⟨-, h' | h'⟩⟩ <;>
          simp [h'] at h
      · rcases (s.calls c).req.afterSend_cases ok
          with h' | ⟨h', -⟩ | ⟨hsync, h' | ⟨hq, h' | h'⟩⟩ <;> simp [h'] at h
        exact .inr (.inr (.inl ⟨hpc, by simp [PublishRequest.tracked, hq, hsync]⟩))
      · rcases (s.calls c).req.afterSend_cases ok with h' | ⟨h', -⟩ | ⟨-, h' | ⟨-, h' | h'⟩⟩ <;>
          simp [h'] at h
      · exact .inr (.inr (.inr h))
  | erase c ec hpc =>
    have hs' : ∀ c', WaitFits (s.eraseEntry (s.calls c).id) c' := fun c' =>
      (hs c').settle he Promise.drop_ne_pending Promise.drop_eq_unset rfl rfl fun id' hne hentry =>
        (Function.update_of_ne hne ..).trans hentry
    exact done hs' rfl rfl rfl rfl rfl rfl
  | report c hpc =>
    exact done hs rfl rfl rfl rfl rfl rfl
  | timeout c hpc hp =>
    refine move hs rfl rfl rfl (.inl rfl) (fun hearly => ?_) fun _ => .inr (.inl hpc)
    simp [PublishPc.stage] at hearly
  | get c r hpc hget =>
    refine move hs rfl rfl rfl (.inl rfl) (fun hearly => ?_) fun _ => .inr (.inl hpc)
    cases r <;> simp [PublishPc.stage, PublishPc.afterGet] at hearly
  | deliver c r hthread hget =>
    refine move hs rfl rfl rfl (.inl rfl) (fun hearly => hearly) ?_
    exact fun _ => .inr (.inr (.inr (by simp [hthread])))
  | puback answered id =>
    intro c
    refine (hs c).settle he (f := fun _ => .fulfilled .ok) (by simp) (by simp) rfl rfl ?_
    exact fun id' hne hentry => (Function.update_of_ne hne ..).trans hentry
  | loseConnection => exact fun c => (hs c).frame rfl Iff.rfl fun hp => ⟨hp, id⟩
  | failAllPending => exact fun c => (hs c).failAllPending he

theorem initial (c : ℕ) : WaitFits PublishState.initial c where
  fresh _ := rfl
  entry h := by simp [PublishState.initial] at h
  set h := by simp [PublishState.initial, PublishCall.Registered] at h

end WaitFits

/--
Whoever waits for an acknowledgement waits for a promise that is settled, or that stands in
`pendingPubacks` under the identifier of its own call. So when `failAllPending` has run, at a loss
or a `disconnect`, nobody has to wait any longer.
-/
theorem waiting_ends (offlineBuffering : Bool) (ls : List PublishLabel) (s : PublishState)
    (h : Runs.exec (publishStep offlineBuffering) PublishState.initial ls = some s) :
    (∀ c, (s.calls c).Waits → (s.promises c).get.isSome ∨
      s.promises c = .pending ∧ s.pendingPubacks (s.calls c).id = some c) ∧
    ∀ s', publishStep offlineBuffering s .failAllPending = some s' →
      ∀ c, (s'.calls c).Waits → (s'.promises c).get.isSome := by
  obtain ⟨hfit, he, hs⟩ : CallsFit s ∧ EntriesFit s ∧ ∀ c, WaitFits s c := by
    refine Runs.always (I := fun s => CallsFit s ∧ EntriesFit s ∧ ∀ c, WaitFits s c) h
      ⟨.initial, .initial, WaitFits.initial⟩ ?_
    rintro s l s' ⟨hfit, he, hs⟩ hstep
    exact ⟨hfit.step hstep, he.step hfit hstep, WaitFits.step hs he hstep⟩
  constructor
  · intro c hw
    have hset := (hs c).set hw.registered
    cases hp : s.promises c with
    | unset => exact (hset hp).elim
    | pending => exact .inr ⟨rfl, (hs c).entry hp⟩
    | fulfilled ec => exact .inl rfl
    | broken => exact .inl rfl
  · rintro s' hs' c hw
    obtain rfl := Option.some.inj hs'
    have hfits := (hs c).failAllPending he
    have hset := hfits.set hw.registered
    cases hp : s.failAllPending.promises c with
    | unset => exact (hset hp).elim
    | pending => exact absurd (hfits.entry hp) (by simp [PublishState.failAllPending])
    | fulfilled ec => rfl
    | broken => rfl

/-- A `publishAsync` at QoS 1 with a callback, which the broker does not answer. -/
def unansweredPublish : List PublishLabel :=
  [.begin 0 { sync := false, msgQos := 1, callback := true }, .check 0 true, .fetch 0, .register 0,
    .spawn 0 false, .send 0 true]

/-- Its detached thread waits until the connection is lost. -/
theorem waiting_ends_unansweredPublish :
    ∃ s s', Runs.exec (publishStep false) PublishState.initial unansweredPublish = some s ∧
      s.promises 0 = .pending ∧ publishStep false s .failAllPending = some s' ∧
      (s'.calls 0).thread = .waiting ∧ (s'.promises 0).get.isSome := by
  have hrun : (Runs.exec (publishStep false) PublishState.initial unansweredPublish).map
      (fun s => (s.promises 0, (s.calls 0).thread)) = some (.pending, .waiting) := by
    decide +kernel
  obtain ⟨s, hs, hv⟩ := Option.map_eq_some_iff.mp hrun
  simp only [Prod.mk.injEq] at hv
  obtain ⟨-, hends⟩ := waiting_ends false unansweredPublish s hs
  exact ⟨s, s.failAllPending, hs, hv.1, rfl, hv.2, hends _ rfl 0 (.inr hv.2)⟩

end MqttNativeSocket
