import MqttNativeSocket.Publisher.PacketIds

/-! # Acknowledgement callbacks

A callback given to `publishAsync` is run by the detached thread that waits for
the PUBACK, or, at QoS 0, where there is no PUBACK to wait for, by the call
itself when its send fails. Above QoS 0 the call has moved its callback away by
then; where the move has left it in place, it is run once more.
-/

namespace MqttNativeSocket

variable {s s' : PublishState} {c : ℕ} {offlineBuffering : Bool}

/-- `publishAsync` hands its callback to a detached thread: `qos > 0 && cb`. -/
def PublishRequest.delivers (r : PublishRequest) : Bool := r.tracked && !r.sync

/-- The callback of a `publishAsync` call itself. -/
def PublishRequest.callsBack (r : PublishRequest) : Bool := !r.sync && r.callback

/-- The points of a call that has come to its send. -/
def PublishPc.started : PublishPc → Bool
  | .send | .wait | .erase _ | .report | .threw => true
  | .done ec => decide (ec ≠ .notConnected)
  | _ => false

/-- What a call above QoS 0 reports beside its thread. -/
def PublishCall.leftover (k : PublishCall) : List ErrorCode :=
  if k.holdsCallback = true ∧ k.pc = .done .publishFailed then [.publishFailed] else []

theorem PublishCall.leftover_eq_nil {k : PublishCall} (h : k.pc ≠ .done .publishFailed) :
    k.leftover = [] :=
  if_neg fun hk => h hk.2

/-- What the callback of one call has reported so far; `stays` says that a move may leave it. -/
structure PublishCall.Reports (k : PublishCall) (stays : Prop) : Prop where
  silent : k.req.delivers = false → k.thread = .none ∧ k.holdsCallback = k.req.callsBack ∧
    k.reported =
      if k.req.callsBack = true ∧ k.pc = .done .publishFailed then [.publishFailed] else []
  before : k.req.delivers = true → k.pc.started = false → k.thread = .none
  after : k.req.delivers = true → k.pc.started = true →
    k.thread ≠ .none ∧ (k.holdsCallback = true → stays)
  waiting : k.req.delivers = true → k.thread ≠ .finished → k.reported = k.leftover
  once : k.req.delivers = true → k.reported.length ≤ 1 + k.leftover.length

namespace PublishRequest

variable {r : PublishRequest}

theorem sync_of_delivers (h : r.delivers = true) : r.tracked = true ∧ r.sync = false := by
  simpa [delivers] using h

theorem sync_of_callsBack (h : r.callsBack = true) : r.sync = false := by
  simp only [callsBack, Bool.and_eq_true, Bool.not_eq_true'] at h
  exact h.1

theorem callsBack_of_delivers (h : r.delivers = true) : r.callsBack = true := by
  simp only [delivers, tracked, Bool.and_eq_true, decide_eq_true_eq, Bool.or_eq_true,
    Bool.not_eq_true'] at h
  obtain ⟨⟨-, hsync | hcallback⟩, hasync⟩ := h
  · exact (Bool.false_ne_true (hasync.symm.trans hsync)).elim
  · simp [callsBack, hasync, hcallback]

end PublishRequest

/-- A call that goes on with its callback where it is. -/
theorem PublishCall.Reports.move {k k' : PublishCall} {stays : Prop} (h : k.Reports stays)
    (hreq : k'.req = k.req)
    (hthread : k'.thread = k.thread) (hholds : k'.holdsCallback = k.holdsCallback)
    (hreported : k'.reported = k.reported)
    (hstarted : k.req.delivers = true → k'.pc.started = k.pc.started)
    (hfailed : k.req.callsBack = true →
      k.pc ≠ .done .publishFailed ∧ k'.pc ≠ .done .publishFailed) :
    k'.Reports stays where
  silent hd := by
    rw [hreq] at hd ⊢
    obtain ⟨h₁, h₂, h₃⟩ := h.silent hd
    refine ⟨hthread.trans h₁, hholds.trans h₂, hreported.trans (h₃.trans ?_)⟩
    by_cases hcb : k.req.callsBack = true
    · simp [hfailed hcb]
    · simp [hcb]
  before hd hs := by
    rw [hreq] at hd
    rw [hthread]
    exact h.before hd (hstarted hd ▸ hs)
  after hd hs := by
    rw [hreq] at hd
    rw [hthread, hholds]
    exact h.after hd (hstarted hd ▸ hs)
  waiting hd ht := by
    rw [hreq] at hd
    rw [hthread] at ht
    obtain ⟨hk, hk'⟩ := hfailed (PublishRequest.callsBack_of_delivers hd)
    rw [hreported, h.waiting hd ht, PublishCall.leftover_eq_nil hk, PublishCall.leftover_eq_nil hk']
  once hd := by
    rw [hreq] at hd
    obtain ⟨hk, hk'⟩ := hfailed (PublishRequest.callsBack_of_delivers hd)
    have honce := h.once hd
    rw [PublishCall.leftover_eq_nil hk] at honce
    rw [hreported, PublishCall.leftover_eq_nil hk']
    exact honce

/-- A call of `publish` has no callback to report to. -/
theorem PublishCall.Reports.of_sync {k k' : PublishCall} {stays : Prop} (h : k.Reports stays)
    (hsync : k.req.sync = true) (hreq : k'.req = k.req) (hthread : k'.thread = k.thread)
    (hholds : k'.holdsCallback = k.holdsCallback) (hreported : k'.reported = k.reported) :
    k'.Reports stays := by
  refine h.move hreq hthread hholds hreported (fun hd => ?_) fun hcb => ?_
  · simp [(PublishRequest.sync_of_delivers hd).2] at hsync
  · simp [PublishRequest.sync_of_callsBack hcb] at hsync

/-- A property of each call by itself is kept if the call of the event keeps it. -/
theorem forall_calls_step {P : ℕ → PublishCall → Prop} {l : PublishLabel}
    (h : publishStep offlineBuffering s l = some s') (hP : ∀ c, P c (s.calls c))
    (hown : ∀ c, l.call = some c → P c (s'.calls c)) (c : ℕ) : P c (s'.calls c) := by
  by_cases hc : l.call = some c
  · exact hown c hc
  · rw [publishStep_calls_of_ne h hc]
    exact hP c

theorem reports_step {stays : ℕ → Prop} (hfit : CallsFit s)
    (hr : ∀ c, (s.calls c).Reports (stays c)) {l : PublishLabel}
    (hl : ∀ c, l = .spawn c true → stays c)
    (h : publishStep offlineBuffering s l = some s') : ∀ c, (s'.calls c).Reports (stays c) := by
  refine forall_calls_step (P := fun c k => k.Reports (stays c)) h hr fun c hc => ?_
  have hc' := hr c
  have hf := hfit c
  cases PublishStep.of_eq h with
  | begin c req hpc =>
    obtain rfl := Option.some.inj hc
    rw [PublishState.setCall_self]
    constructor <;> simp [PublishRequest.callsBack, PublishPc.started, PublishCall.leftover]
  | check c connected hpc =>
    obtain rfl := Option.some.inj hc
    rw [PublishState.setCall_self]
    have hcases := (s.calls c).req.afterCheck_cases offlineBuffering connected
    refine hc'.move rfl rfl rfl rfl (fun hd => ?_) fun _ => ⟨by simp [hpc], ?_⟩
    · have hs := (PublishRequest.sync_of_delivers hd).2
      rcases hcases with ⟨h, -⟩ | ⟨-, ha⟩ | h
      · simp [h, hpc, PublishPc.started]
      · simp [PublishRequest.allocates, hs] at ha
      · simp [h, hpc, PublishPc.started]
    · rcases hcases with ⟨h, -⟩ | ⟨h, -⟩ | h <;> simp [h]
  | fetch c hpc =>
    obtain rfl := Option.some.inj hc
    rw [PublishState.fetch, PublishState.setCall_self]
    refine hc'.move rfl rfl rfl rfl (fun hd => ?_) fun _ => ⟨by simp [hpc], ?_⟩
    · have ht := (PublishRequest.sync_of_delivers hd).1
      by_cases hz : s.nextPacketId = 0 <;>
        simp [hz, hpc, PublishRequest.afterAlloc, ht, PublishPc.started]
    · rcases (s.calls c).req.afterAlloc_cases with ⟨h, -⟩ | ⟨h, -⟩ <;>
        by_cases hz : s.nextPacketId = 0 <;> simp [hz, h]
  | refetch c hpc =>
    obtain rfl := Option.some.inj hc
    rw [PublishState.fetch, PublishState.setCall_self]
    refine hc'.move rfl rfl rfl rfl (fun hd => ?_) fun _ => ⟨by simp [hpc], ?_⟩
    · have ht := (PublishRequest.sync_of_delivers hd).1
      simp [hpc, PublishRequest.afterAlloc, ht, PublishPc.started]
    · rcases (s.calls c).req.afterAlloc_cases with ⟨h, -⟩ | ⟨h, -⟩ <;> simp [h]
  | register c hpc =>
    obtain rfl := Option.some.inj hc
    rw [PublishState.setCall_self]
    refine hc'.move rfl rfl rfl rfl (fun hd => ?_) fun _ => ⟨by simp [hpc], ?_⟩
    · simp [hpc, (PublishRequest.sync_of_delivers hd).2, PublishPc.started]
    · dsimp only
      split <;> simp
  | spawn c stays hpc =>
    obtain rfl := Option.some.inj hc
    rw [PublishState.setCall_self]
    rw [hpc] at hf
    have hd : (s.calls c).req.delivers = true := by simp [PublishRequest.delivers, hf.1, hf.2]
    have hthread : (s.calls c).thread = .none := hc'.before hd (by rw [hpc]; rfl)
    have hrep : (s.calls c).reported = [] := by
      rw [hc'.waiting hd (by simp [hthread]), PublishCall.leftover_eq_nil (by simp [hpc])]
    constructor <;> simp [hd, PublishPc.started, PublishCall.leftover, hrep]
    rintro rfl
    exact hl c rfl
  | send c ok hpc =>
    obtain rfl := Option.some.inj hc
    rw [PublishState.advance, PublishState.setCall_self]
    have hcases := (s.calls c).req.afterSend_cases ok
    refine hc'.move rfl rfl rfl rfl (fun hd => ?_) fun hcb => ⟨by simp [hpc], ?_⟩
    · have hs := (PublishRequest.sync_of_delivers hd).2
      rcases hcases with h | ⟨h, -⟩ | ⟨hs', -⟩
      · simp [h, hpc, PublishPc.started]
      · simp [h, hpc, PublishPc.started]
      · simp [hs] at hs'
    · have hs := PublishRequest.sync_of_callsBack hcb
      rcases hcases with h | ⟨h, -⟩ | ⟨hs', -⟩
      · simp [h]
      · simp [h]
      · simp [hs] at hs'
  | erase c ec hpc =>
    obtain rfl := Option.some.inj hc
    rw [hpc] at hf
    rw [PublishState.advance, PublishState.setCall_self]
    exact hc'.of_sync hf.2 rfl rfl rfl rfl
  | report c hpc =>
    obtain rfl := Option.some.inj hc
    rw [PublishState.advance, PublishState.setCall_self]
    have hstarted : (s.calls c).pc.started = true := by rw [hpc]; rfl
    cases hd : (s.calls c).req.delivers with
    | true =>
      obtain ⟨hthread, hholds⟩ := hc'.after hd hstarted
      have hnil : (s.calls c).leftover = [] := PublishCall.leftover_eq_nil (by simp [hpc])
      have honce := hc'.once hd
      have hwaiting := hc'.waiting hd
      rw [hnil] at honce hwaiting
      constructor
      · simp [hd]
      · simp [PublishPc.started]
      · exact fun _ _ => ⟨hthread, hholds⟩
      · intro _ hne
        by_cases hh : (s.calls c).holdsCallback = true <;>
          simp [PublishCall.leftover, hh, hwaiting hne]
      · intro _
        by_cases hh : (s.calls c).holdsCallback = true
        · simpa [PublishCall.leftover, hh] using honce
        · simpa [PublishCall.leftover, hh] using honce
    | false =>
      obtain ⟨hthread, hholds, hrep⟩ := hc'.silent hd
      simp only [hpc, reduceCtorEq, and_false, if_false] at hrep
      constructor <;> simp [hd, hholds, hthread, hrep]
  | timeout c hpc hp =>
    obtain rfl := Option.some.inj hc
    rw [hpc] at hf
    rw [PublishState.advance, PublishState.setCall_self]
    exact hc'.of_sync hf.2 rfl rfl rfl rfl
  | get c r hpc hget =>
    obtain rfl := Option.some.inj hc
    rw [hpc] at hf
    rw [PublishState.advance, PublishState.setCall_self]
    exact hc'.of_sync hf.2 rfl rfl rfl rfl
  | deliver c r hthread hget =>
    obtain rfl := Option.some.inj hc
    rw [PublishState.setCall_self]
    have hd : (s.calls c).req.delivers = true := by
      by_contra hd
      simp [(hc'.silent (by simpa using hd)).1] at hthread
    have hstarted : (s.calls c).pc.started = true := by
      by_contra hs
      simp [hc'.before hd (by simpa using hs)] at hthread
    have hrep := hc'.waiting hd (by simp [hthread])
    have hholds := (hc'.after hd hstarted).2
    constructor
    · simp [hd]
    · simp [hstarted]
    · exact fun _ _ => ⟨by simp, hholds⟩
    · simp
    · intro _
      cases r <;> simp [hrep, PublishCall.leftover, Nat.add_comm]
  | puback answered id => contradiction
  | loseConnection => contradiction
  | failAllPending => contradiction

/-! ## Promises -/

/-- The promise of call `c` against its entry. -/
structure PromiseFits (s : PublishState) (c : ℕ) : Prop where
  unset : (s.calls c).pc.stage ≤ 4 ∨
    (s.calls c).req.sync = false ∧ (s.calls c).pc = .done .notConnected → s.promises c = .unset
  kept : (s.calls c).req.sync = false → s.promises c ≠ .unset →
    s.promises c = .pending ∧ s.pendingPubacks (s.calls c).id = some c ∨
      ∃ ec, s.promises c = .fulfilled ec
  set : (s.calls c).pc = .spawn ∨ (s.calls c).thread ≠ .none → s.promises c ≠ .unset

namespace PromiseFits

/-- What concerns neither the call nor its promise and entry. -/
theorem frame (h : PromiseFits s c) (hcall : s'.calls c = s.calls c)
    (hpromise : s'.promises c = s.promises c)
    (hpend : s.pendingPubacks (s.calls c).id = some c →
      s'.pendingPubacks (s.calls c).id = some c) : PromiseFits s' c where
  unset := by
    rw [hcall, hpromise]
    exact h.unset
  kept := by
    rw [hcall, hpromise]
    exact fun hs hne => (h.kept hs hne).imp_left (And.imp_right hpend)
  set := by
    rw [hcall, hpromise]
    exact h.set

/-- Before its registration a call has no promise. -/
theorem early (hp : ∀ c, PromiseFits s c) {k : PublishCall}
    (hcalls : s'.calls = Function.update s.calls c k) (hpromises : s'.promises = s.promises)
    (hpend : s'.pendingPubacks = s.pendingPubacks) (hstage : (s.calls c).pc.stage ≤ 4)
    (hspawn : k.pc ≠ .spawn) (hthread : k.thread = .none ∨ k.thread = (s.calls c).thread) :
    ∀ c, PromiseFits s' c := by
  intro c'
  by_cases hc : c' = c
  · subst hc
    have hcall : s'.calls c' = k := by rw [hcalls, Function.update_self]
    have hunset : s'.promises c' = .unset := by
      rw [hpromises]
      exact (hp c').unset (.inl hstage)
    have hnone : k.thread = .none := by
      rcases hthread with h | h
      · exact h
      · by_contra hne
        exact (hp c').set (.inr (h ▸ hne)) (hpromises ▸ hunset)
    refine ⟨fun _ => hunset, fun _ hne => (hne hunset).elim, ?_⟩
    rw [hcall]
    rintro (h | h)
    · exact (hspawn h).elim
    · exact (h hnone).elim
  · exact (hp c').frame (by rw [hcalls, Function.update_of_ne hc]) (by rw [hpromises])
      (by rw [hpend]; exact id)

/-- After its registration a call leaves its promise to others. -/
theorem late (hp : ∀ c, PromiseFits s c) {k : PublishCall}
    (hcalls : s'.calls = Function.update s.calls c k) (hpromises : s'.promises = s.promises)
    (hpend : s'.pendingPubacks = s.pendingPubacks) (hreq : k.req = (s.calls c).req)
    (hid : k.id = (s.calls c).id) (hstage : 4 < k.pc.stage)
    (hpc : k.req.sync = false → k.pc = .done .notConnected → (s.calls c).pc = .done .notConnected)
    (hset : k.pc = .spawn ∨ k.thread ≠ .none →
      (s.calls c).pc = .spawn ∨ (s.calls c).thread ≠ .none) : ∀ c, PromiseFits s' c := by
  intro c'
  by_cases hc : c' = c
  · subst hc
    have hcall : s'.calls c' = k := by rw [hcalls, Function.update_self]
    constructor
    · rw [hcall, hpromises]
      rintro (h | ⟨hs, h⟩)
      · omega
      · exact (hp c').unset (.inr ⟨hreq ▸ hs, hpc hs h⟩)
    · rw [hcall, hpromises, hpend, hreq, hid]
      exact (hp c').kept
    · rw [hcall, hpromises]
      exact fun h => (hp c').set (hset h)
  · exact (hp c').frame (by rw [hcalls, Function.update_of_ne hc]) (by rw [hpromises])
      (by rw [hpend]; exact id)

/-- A registration finds no entry that it would replace. -/
theorem register (hi : PublishInv s) (hp : ∀ c, PromiseFits s c) {k : PublishCall}
    (hq : 0 < (s.calls c).req.qos) (hpc : (s.calls c).pc = .register)
    (hid : k.id = (s.calls c).id)
    (hk : k.pc = if (s.calls c).req.sync then .send else .spawn) :
    ∀ c', PromiseFits ((s.register c).setCall c k) c' := by
  have hfree := hi.ids.register_free hi.entries hq hpc
  intro c'
  by_cases hc : c' = c
  · subst hc
    have hcall : ((s.register c').setCall c' k).calls c' = k := PublishState.setCall_self ..
    have hpending : ((s.register c').setCall c' k).promises c' = .pending :=
      Function.update_self ..
    have hentry : ((s.register c').setCall c' k).pendingPubacks (s.calls c').id = some c' :=
      Function.update_self ..
    constructor
    · rw [hcall, hk]
      split <;> simp [PublishPc.stage]
    · rw [hcall, hpending, hid]
      exact fun _ _ => .inl ⟨rfl, hentry⟩
    · rw [hpending]
      simp
  · refine (hp c').frame (PublishState.setCall_of_ne _ _ _ hc) ?_ fun h => ?_
    · refine (Function.update_of_ne hc ..).trans (Pending.resolve_of_ne ?_)
      simp [hfree]
    · refine (Function.update_of_ne (fun he => ?_) ..).trans h
      rw [he, hfree] at h
      contradiction

/-- What happens to the entry of another call. -/
theorem unowned (h : PromiseFits s c) {id : UInt16} {f : Promise → Promise}
    (hcall : s'.calls c = s.calls c)
    (hpromises : s'.promises = Pending.resolve s.pendingPubacks s.promises id f)
    (hpend : s'.pendingPubacks = Function.update s.pendingPubacks id none)
    (hne : s.pendingPubacks id ≠ some c) : PromiseFits s' c := by
  refine h.frame hcall (by rw [hpromises, Pending.resolve_of_ne hne]) fun hold => ?_
  have hid : (s.calls c).id ≠ id := fun he => hne (he ▸ hold)
  rw [hpend, Function.update_of_ne hid]
  exact hold

/-- The owner of an entry whose promise is fulfilled. -/
theorem fulfilled (he : EntriesFit s) {id : UInt16} {ec : ErrorCode}
    (hown : s.pendingPubacks id = some c) (hcall : s'.calls c = s.calls c)
    (hpromise : s'.promises c = .fulfilled ec) : PromiseFits s' c := by
  obtain ⟨-, -, hstage, hpc⟩ := he id c hown
  constructor
  · rw [hcall]
    rintro (h | ⟨hs, h⟩)
    · omega
    · exact (hpc hs h).elim
  · exact fun _ _ => .inr ⟨ec, hpromise⟩
  · simp [hpromise]

/-- A synchronous call that gives up takes no entry of another call away. -/
theorem erase (hi : PublishInv s) (hp : ∀ c, PromiseFits s c) {ec : ErrorCode}
    (hpc : (s.calls c).pc = .erase ec) :
    ∀ c', PromiseFits ((s.eraseEntry (s.calls c).id).advance c (s.calls c) (.done ec)) c' := by
  have hf := hi.fit c
  rw [hpc] at hf
  have hu : s.InUse c := ⟨hf.1, .inl (by rw [hpc]; rfl)⟩
  intro c'
  by_cases hc : c' = c
  · subst hc
    have hcall : ((s.eraseEntry (s.calls c').id).advance c' (s.calls c') (.done ec)).calls c' =
        { s.calls c' with pc := .done ec } := PublishState.setCall_self ..
    constructor
    · simp [hcall, PublishPc.stage, hf.2]
    · simp [hcall, hf.2]
    · rw [hcall]
      intro h
      have hset := (hp c').set (h.imp_left (by simp))
      show Pending.resolve s.pendingPubacks s.promises _ _ c' ≠ _
      by_cases hown : s.pendingPubacks (s.calls c').id = some c'
      · rw [Pending.resolve_owner hown]
        cases hpr : s.promises c' <;> simp_all [Promise.drop]
      · rwa [Pending.resolve_of_ne hown]
  · refine (hp c').unowned (PublishState.setCall_of_ne _ _ _ hc) rfl rfl fun hown => hc ?_
    obtain ⟨hid, htracked, -⟩ := hi.entries _ c' hown
    exact hi.ids.unique c' c ⟨PublishRequest.qos_pos htracked, .inr (.inr ⟨_, hown⟩)⟩ hu hid

end PromiseFits

theorem promiseFits_step (hi : PublishInv s) (hp : ∀ c, PromiseFits s c) {l : PublishLabel}
    (h : publishStep offlineBuffering s l = some s') : ∀ c, PromiseFits s' c := by
  cases PublishStep.of_eq h with
  | begin c req hpc =>
    exact PromiseFits.early hp rfl rfl rfl (by rw [hpc]; decide) (by simp) (.inl rfl)
  | check c connected hpc =>
    refine PromiseFits.early hp rfl rfl rfl (by rw [hpc]; decide) ?_ (.inr rfl)
    rcases (s.calls c).req.afterCheck_cases offlineBuffering connected with ⟨h, -⟩ | ⟨h, -⟩ | h <;>
      simp [h]
  | fetch c hpc =>
    refine PromiseFits.early hp rfl rfl rfl (by rw [hpc]; decide) ?_ (.inr rfl)
    rcases (s.calls c).req.afterAlloc_cases with ⟨h, -⟩ | ⟨h, -⟩ <;>
      by_cases hz : s.nextPacketId = 0 <;> simp [hz, h]
  | refetch c hpc =>
    refine PromiseFits.early hp rfl rfl rfl (by rw [hpc]; decide) ?_ (.inr rfl)
    rcases (s.calls c).req.afterAlloc_cases with ⟨h, -⟩ | ⟨h, -⟩ <;> simp [h]
  | register c hpc =>
    have hreg := hi.fit c
    rw [hpc] at hreg
    exact PromiseFits.register hi hp (PublishRequest.qos_pos hreg) hpc rfl rfl
  | spawn c stays hpc =>
    exact PromiseFits.late hp rfl rfl rfl rfl rfl (by simp [PublishPc.stage]) (by simp)
      fun _ => .inl hpc
  | send c ok hpc =>
    refine PromiseFits.late hp rfl rfl rfl rfl rfl ?_ ?_ ?_ <;>
      rcases (s.calls c).req.afterSend_cases ok with h | ⟨h, -⟩ | ⟨-, h | ⟨-, h | h⟩⟩ <;>
      simp +contextual [h, PublishPc.stage]
  | erase c ec hpc => exact PromiseFits.erase hi hp hpc
  | report c hpc =>
    exact PromiseFits.late hp rfl rfl rfl rfl rfl (by simp [PublishPc.stage]) (by simp)
      (Or.imp_left (by simp))
  | timeout c hpc hpending =>
    exact PromiseFits.late hp rfl rfl rfl rfl rfl (by simp [PublishPc.stage]) (by simp)
      (Or.imp_left (by simp))
  | get c r hpc hget =>
    have hf := hi.fit c
    rw [hpc] at hf
    refine PromiseFits.late hp rfl rfl rfl rfl rfl ?_ (by simp [hf.2]) ?_ <;> cases r <;>
      simp +contextual [PublishPc.afterGet, PublishPc.stage]
  | deliver c r hthread hget =>
    have hne : (s.calls c).thread ≠ .none := by simp [hthread]
    refine PromiseFits.late hp rfl rfl rfl rfl rfl ?_ (fun _ h => h) fun _ => .inr hne
    by_contra hstage
    exact (hp c).set (.inr hne) ((hp c).unset (.inl (by simpa using hstage)))
  | puback answered id =>
    have hpromises : (s.handlePuback answered id).promises =
        Pending.resolve s.pendingPubacks s.promises id fun _ => .fulfilled .ok := rfl
    intro c
    by_cases hown : s.pendingPubacks id = some c
    · exact PromiseFits.fulfilled hi.entries hown rfl
        (by rw [hpromises, Pending.resolve_owner hown])
    · exact (hp c).unowned rfl hpromises rfl hown
  | loseConnection => exact fun c => (hp c).frame rfl rfl id
  | failAllPending =>
    intro c
    by_cases hown : s.pendingPubacks (s.calls c).id = some c
    · exact PromiseFits.fulfilled hi.entries hown rfl (if_pos hown)
    · exact (hp c).frame rfl (if_neg hown) fun h => (hown h).elim

/-! ## Runs -/

/-- A detached thread is started by a call that delivers, on its way to the send. -/
theorem PublishCall.Reports.started_of_thread {k : PublishCall} {stays : Prop}
    (h : k.Reports stays) (hthread : k.thread ≠ .none) :
    k.req.delivers = true ∧ k.pc.started = true := by
  have hd : k.req.delivers = true := by
    by_contra hd
    exact hthread (h.silent (by simpa using hd)).1
  refine ⟨hd, ?_⟩
  by_contra hs
  exact hthread (h.before hd (by simpa using hs))

/-- A detached thread that has ended has run the callback, as its promise was kept. -/
theorem delivered_step {stays : ℕ → Prop} (hfit : CallsFit s)
    (hr : ∀ c, (s.calls c).Reports (stays c)) (hp : ∀ c, PromiseFits s c)
    (hd : ∀ c, (s.calls c).thread = .finished →
      (s.calls c).reported.length = 1 + (s.calls c).leftover.length)
    {l : PublishLabel} (h : publishStep offlineBuffering s l = some s') :
    ∀ c, (s'.calls c).thread = .finished →
      (s'.calls c).reported.length = 1 + (s'.calls c).leftover.length := by
  refine forall_calls_step
    (P := fun _ k => k.thread = .finished → k.reported.length = 1 + k.leftover.length) h hd
    fun c hc => ?_
  have hc' := hr c
  have hf := hfit c
  -- a call whose thread has ended is past its start, and none of `publish`
  have hearly (hs : (s.calls c).pc.started = false) : (s.calls c).thread ≠ .finished := fun h =>
    Bool.false_ne_true (hs.symm.trans (hc'.started_of_thread (by rw [h]; simp)).2)
  have hsync (hs : (s.calls c).req.sync = true) : (s.calls c).thread ≠ .finished := fun h =>
    Bool.false_ne_true ((PublishRequest.sync_of_delivers
      (hc'.started_of_thread (by rw [h]; simp)).1).2.symm.trans hs)
  cases PublishStep.of_eq h with
  | begin c req hpc =>
    obtain rfl := Option.some.inj hc
    simp
  | check c connected hpc =>
    obtain rfl := Option.some.inj hc
    rw [PublishState.setCall_self]
    exact fun hthread => (hearly (by rw [hpc]; rfl) hthread).elim
  | fetch c hpc =>
    obtain rfl := Option.some.inj hc
    rw [PublishState.fetch, PublishState.setCall_self]
    exact fun hthread => (hearly (by rw [hpc]; rfl) hthread).elim
  | refetch c hpc =>
    obtain rfl := Option.some.inj hc
    rw [PublishState.fetch, PublishState.setCall_self]
    exact fun hthread => (hearly (by rw [hpc]; rfl) hthread).elim
  | register c hpc =>
    obtain rfl := Option.some.inj hc
    rw [PublishState.setCall_self]
    exact fun hthread => (hearly (by rw [hpc]; rfl) hthread).elim
  | spawn c stays hpc =>
    obtain rfl := Option.some.inj hc
    simp
  | send c ok hpc =>
    obtain rfl := Option.some.inj hc
    rw [PublishState.advance, PublishState.setCall_self]
    intro hthread
    have hlength := hd c hthread
    rw [PublishCall.leftover_eq_nil (by simp [hpc])] at hlength
    rw [PublishCall.leftover_eq_nil]
    · exact hlength
    · rcases (s.calls c).req.afterSend_cases ok with h | ⟨h, -⟩ | ⟨hs, -⟩
      · simp [h]
      · simp [h]
      · exact (hsync hs hthread).elim
  | erase c ec hpc =>
    obtain rfl := Option.some.inj hc
    rw [hpc] at hf
    rw [PublishState.advance, PublishState.setCall_self]
    exact fun hthread => (hsync hf.2 hthread).elim
  | report c hpc =>
    obtain rfl := Option.some.inj hc
    rw [PublishState.advance, PublishState.setCall_self]
    intro hthread
    have hlength := hd c hthread
    rw [PublishCall.leftover_eq_nil (by simp [hpc])] at hlength
    by_cases hh : (s.calls c).holdsCallback = true
    · simpa [PublishCall.leftover, hh] using hlength
    · simpa [PublishCall.leftover, hh] using hlength
  | timeout c hpc hpending =>
    obtain rfl := Option.some.inj hc
    rw [hpc] at hf
    rw [PublishState.advance, PublishState.setCall_self]
    exact fun hthread => (hsync hf.2 hthread).elim
  | get c r hpc hget =>
    obtain rfl := Option.some.inj hc
    rw [hpc] at hf
    rw [PublishState.advance, PublishState.setCall_self]
    exact fun hthread => (hsync hf.2 hthread).elim
  | deliver c r hthread hget =>
    obtain rfl := Option.some.inj hc
    have hne : (s.calls c).thread ≠ .none := by simp [hthread]
    have hdel := (hc'.started_of_thread hne).1
    rw [PublishState.setCall_self]
    dsimp only
    rw [hc'.waiting hdel (by simp [hthread])]
    rcases (hp c).kept (PublishRequest.sync_of_delivers hdel).2 ((hp c).set (.inr hne)) with
      ⟨h, -⟩ | ⟨ec, h⟩
    · simp [h, Promise.get] at hget
    · obtain rfl : some ec = r := by simpa [h, Promise.get] using hget
      intro _
      rw [List.length_append, Nat.add_comm]
      rfl
  | puback answered id => contradiction
  | loseConnection => contradiction
  | failAllPending => contradiction

theorem promiseFits_initial (c : ℕ) : PromiseFits PublishState.initial c := by
  constructor <;> simp [PublishState.initial]

theorem reports_initial (c : ℕ) (stays : Prop) :
    (PublishState.initial.calls c).Reports stays := by
  constructor <;>
    simp [PublishState.initial, PublishRequest.callsBack, PublishPc.started, PublishCall.leftover]

/-- The send of call `c` has failed, after a move that had left its callback in place. -/
def LeftBehind (ls : List PublishLabel) (k : PublishCall) (c : ℕ) : Prop :=
  .spawn c true ∈ ls ∧ k.pc = .done .publishFailed

theorem PublishCall.Reports.leftover_eq_nil {ls : List PublishLabel} {k : PublishCall}
    (h : k.Reports (.spawn c true ∈ ls)) (hd : k.req.delivers = true)
    (hleft : ¬ LeftBehind ls k c) : k.leftover = [] := by
  refine if_neg fun ⟨hholds, hpc⟩ => hleft ⟨(h.after hd ?_).2 hholds, hpc⟩
  rw [hpc]
  rfl

/-- How the callback of a `publishAsync` above QoS 0 stands in a run whose promises are kept. -/
structure PublishCall.Delivered (k : PublishCall) (promise : Promise) (pending : Option ℕ) (c : ℕ)
    (left : Prop) : Prop where
  /-- A call that has returned, past `isConnected`, has started its thread. -/
  started : ∀ ec, k.pc = .done ec → ec ≠ .notConnected → k.thread ≠ .none
  /-- The thread still waits for an entry of its own, or can go on. -/
  waits : k.thread = .waiting → pending = some c ∨ ∃ ec, promise = .fulfilled ec
  once : k.thread = .finished → ¬ left → k.reported.length = 1

/--
The callback of a `publishAsync` call runs at most once, unless a move has left it behind in a call
whose send fails. At QoS 0, where nothing is acknowledged, it runs as a failed send is reported and
at no other time, and a call that ends has no entry. Above QoS 0 it has run exactly once when its
detached thread has ended, as long as no identifier in use gets a round of the counter old.
-/
theorem callback_reports (offlineBuffering : Bool) (ls : List PublishLabel) (s : PublishState)
    (h : Runs.exec (publishStep offlineBuffering) PublishState.initial ls = some s) :
    (∀ c, ¬ LeftBehind ls (s.calls c) c → (s.calls c).reported.length ≤ 1) ∧
    (∀ c ec, (s.calls c).req.sync = false → (s.calls c).req.callback = true →
      (s.calls c).req.qos ≤ 0 → (s.calls c).pc = .done ec →
      (s.calls c).thread = .none ∧
        (s.calls c).reported = if ec = .publishFailed then [.publishFailed] else []) ∧
    (∀ c ec, (s.calls c).req.sync = false → (s.calls c).pc = .done ec →
      ec = .notConnected ∨ (s.calls c).req.qos ≤ 0 → ∀ id, s.pendingPubacks id ≠ some c) ∧
    (Runs.Along (publishStep offlineBuffering) FewFetches PublishState.initial ls →
      ∀ c, (s.calls c).req.sync = false → (s.calls c).req.callback = true →
        0 < (s.calls c).req.qos → (s.calls c).Delivered (s.promises c)
          (s.pendingPubacks (s.calls c).id) c (LeftBehind ls (s.calls c) c)) := by
  have hmem : Runs.Along (publishStep offlineBuffering) (fun _ l => l ∈ ls) PublishState.initial
      ls := Runs.along_of_forall fun l hl _ => hl
  have hrun : CallsFit s ∧ EntriesFit s ∧ ∀ c, (s.calls c).Reports (.spawn c true ∈ ls) := by
    refine Runs.invariant
      (I := fun s => CallsFit s ∧ EntriesFit s ∧ ∀ c, (s.calls c).Reports (.spawn c true ∈ ls))
      h hmem ⟨.initial, .initial, fun c => reports_initial c _⟩ ?_
    rintro s l s' ⟨hfit, he, hr⟩ hl hs
    exact ⟨hfit.step hs, he.step hfit hs, reports_step hfit hr (fun c hc => hc ▸ hl) hs⟩
  obtain ⟨-, he, hr⟩ := hrun
  refine ⟨fun c hleft => ?_, fun c ec hs hcb hq hpc => ?_, fun c ec hs hpc hec id hown => ?_,
    fun hfew c hs hcb hq => ?_⟩
  · cases hd : (s.calls c).req.delivers with
    | true =>
      have honce := (hr c).once hd
      rwa [(hr c).leftover_eq_nil hd hleft] at honce
    | false =>
      rw [((hr c).silent hd).2.2]
      split <;> simp
  · have hdel : (s.calls c).req.delivers = false := by
      simp [PublishRequest.delivers, PublishRequest.tracked, not_lt.mpr hq]
    obtain ⟨hthread, -, hrep⟩ := (hr c).silent hdel
    refine ⟨hthread, ?_⟩
    rw [hrep]
    simp [PublishRequest.callsBack, hs, hcb, hpc]
  · obtain ⟨-, htracked, -, hne⟩ := he id c hown
    rcases hec with rfl | hq
    · exact hne hs hpc
    · exact absurd (PublishRequest.qos_pos htracked) (not_lt.mpr hq)
  · have hrun : PublishInv s ∧ (∀ c, (s.calls c).Reports True) ∧ (∀ c, PromiseFits s c) ∧
        ∀ c, (s.calls c).thread = .finished →
          (s.calls c).reported.length = 1 + (s.calls c).leftover.length := by
      refine Runs.invariant (I := fun s => PublishInv s ∧ (∀ c, (s.calls c).Reports True) ∧
        (∀ c, PromiseFits s c) ∧ ∀ c, (s.calls c).thread = .finished →
          (s.calls c).reported.length = 1 + (s.calls c).leftover.length) h hfew
        ⟨.initial, fun c => reports_initial c _, promiseFits_initial,
          by simp [PublishState.initial]⟩ ?_
      rintro s l s' ⟨hi, hr, hp, hd⟩ hfew hs
      exact ⟨hi.step hfew hs, reports_step hi.fit hr (fun _ _ => trivial) hs,
        promiseFits_step hi hp hs, delivered_step hi.fit hr hp hd hs⟩
    obtain ⟨-, -, hp, hd⟩ := hrun
    have hdel : (s.calls c).req.delivers = true := by
      simp [PublishRequest.delivers, PublishRequest.tracked, hq, hs, hcb]
    refine ⟨fun ec hpc hne => ?_, fun hw => ?_, fun hthread hleft => ?_⟩
    · exact ((hr c).after hdel (by simp [hpc, PublishPc.started, hne])).1
    · exact ((hp c).kept hs ((hp c).set (.inr (by simp [hw])))).imp_left And.right
    · have hlength := hd c hthread
      rwa [(hr c).leftover_eq_nil hdel hleft] at hlength

/-- Left in its call by the move, the callback reports a failed send, and then the lost
connection. -/
example : (Runs.exec (publishStep false) PublishState.initial (trackedPublish 0 ++
    [.register 0, .spawn 0 true, .send 0 false, .report 0, .failAllPending, .deliver 0])).map
      (fun s => (s.calls 0).reported) = some [.publishFailed, .connectionLost] := by
  decide +kernel

/-- A `publishAsync` at QoS 1 whose PUBACK arrives. -/
def deliveredPublish : List PublishLabel :=
  firstPublish ++ [.puback (some 0) 1, .deliver 0]

/-- The callback of that call has run once. -/
theorem callback_reports_deliveredPublish :
    ∃ s, Runs.exec (publishStep false) PublishState.initial deliveredPublish = some s ∧
      (s.calls 0).thread = .finished ∧ (s.calls 0).reported.length = 1 ∧
      ∀ c, (s.calls c).reported.length ≤ 1 := by
  have hrun : (Runs.exec (publishStep false) PublishState.initial deliveredPublish).map
      (fun s => ((s.calls 0).req, (s.calls 0).thread)) =
      some ({ sync := false, msgQos := 1, callback := true }, .finished) := by
    decide +kernel
  obtain ⟨s, hs, hv⟩ := Option.map_eq_some_iff.mp hrun
  simp only [Prod.mk.injEq] at hv
  obtain ⟨hreq, hthread⟩ := hv
  have hfew : Runs.Along (publishStep false) FewFetches PublishState.initial deliveredPublish :=
    Runs.along_of_check (I := fun _ => True) (c := firstRound) (by decide +kernel) trivial
      (fun s l _ h => (conditions_of_firstRound s l h).1) fun _ _ _ _ _ _ => trivial
  have hleft (c : ℕ) : ¬ LeftBehind deliveredPublish (s.calls c) c := by
    simp [LeftBehind, deliveredPublish, firstPublish, trackedPublish]
  obtain ⟨honce, -, -, hdelivered⟩ := callback_reports false deliveredPublish s hs
  exact ⟨s, hs, hthread, (hdelivered hfew 0 (by simp [hreq]) (by simp [hreq])
    (by simp [hreq, PublishRequest.qos])).once hthread (hleft 0), fun c => honce c (hleft c)⟩

/-! ## QoS 0 -/

/-- A `publishAsync` at QoS 0 with a callback, sent without trouble. -/
def quietCallback : List PublishLabel :=
  [.begin 0 { sync := false, msgQos := 0, callback := true }, .check 0 true, .fetch 0,
    .send 0 true]

/-- It has returned, `disconnect` has failed what is pending, no detached thread is left, and its
callback has not run. -/
theorem callback_unreported :
    ∃ ls s, Runs.exec (publishStep false) PublishState.initial (ls ++ [.failAllPending]) = some s ∧
      (s.calls 0).req.sync = false ∧ (s.calls 0).req.callback = true ∧
      (s.calls 0).pc = .done .ok ∧ (s.calls 0).thread = .none ∧ (s.calls 0).reported = [] := by
  have hrun : (Runs.exec (publishStep false) PublishState.initial
      (quietCallback ++ [.failAllPending])).map (fun s => s.calls 0) = some
        { req := { sync := false, msgQos := 0, callback := true }, pc := .done .ok, id := 1,
          fetchedAt := some 0, holdsCallback := true } := by
    decide +kernel
  obtain ⟨s, hs, hv⟩ := Option.map_eq_some_iff.mp hrun
  exact ⟨quietCallback, s, hs, by simp [hv]⟩

end MqttNativeSocket
