import MqttNativeSocket.Publisher.Allocation

/-! # Each publish and its own acknowledgement

Calls under way have different identifiers, so an entry of `pendingPubacks` is its
owner's alone until a handler settles it: the outcome of a call is that of its own
entry.
-/

namespace MqttNativeSocket

variable {s s' : AckState} {c c' h : ℕ} {id : UInt16} {l : AckLabel}

/-! ## The lock and the table -/

/-- The mutex is held by the thread at a point that holds it. -/
structure LockFits (s : AckState) : Prop where
  call : ∀ c, (s.calls c).pc.holds = true → s.pubackMtx = some (.call c)
  handler : ∀ h, (s.handlers h).holds = true → s.pubackMtx = some (.handler h)

/-- Entries whose value a handler has set and that it has not erased yet. -/
def HandlerPc.settled (id : UInt16) : HandlerPc → Bool
  | .erase id' => decide (id = id')
  | .failing todo => decide (id ∉ todo)
  | _ => false

/-- The entry at `id` has its value already. -/
def AckState.settling (s : AckState) (id : UInt16) : Bool :=
  match s.pubackMtx with
  | some (.handler h) => (s.handlers h).settled id
  | some (.call _) => false
  | none => false

/-- With no handler in the table, no entry has its value. -/
theorem AckState.settling_of_not_handler (hno : ∀ h, s.pubackMtx ≠ some (.handler h)) :
    s.settling id = false := by
  unfold AckState.settling
  split
  · next h hm => exact absurd hm (hno h)
  · rfl
  · rfl

theorem AckState.settling_congr (hmtx : s'.pubackMtx = s.pubackMtx)
    (hhandlers : ∀ h, (s'.handlers h).settled id = (s.handlers h).settled id) :
    s'.settling id = s.settling id := by
  unfold AckState.settling
  rw [hmtx]
  split
  · exact hhandlers _
  · rfl
  · rfl

structure EntriesSound (s : AckState) : Prop where
  owner : ∀ id c, s.pendingPubacks.lookup id = some c → (s.calls c).id = id
  settled : ∀ id c, s.pendingPubacks.lookup id = some c → s.settling id = true →
    ∃ ec, s.promises c = .fulfilled ec
  unsettled : ∀ id c, s.pendingPubacks.lookup id = some c → s.settling id = false →
    s.promises c = .pending
  todo : ∀ h todo, s.handlers h = .failing todo → todo.Nodup

/-- A PUBACK with the identifier of call `c` was handled after the call had registered it. -/
def AckState.Acked (s : AckState) (c : ℕ) : Prop :=
  ∃ pre mid post, s.log = pre ++ .registered c :: (mid ++ .handled (s.calls c).id :: post)

/-! ## One call -/

/-- The points only a QoS above zero comes to. -/
def SyncPc.tracked : SyncPc → Bool
  | .fetch => true
  | .refetch => true
  | .registerLock => true
  | .register => true
  | .registerUnlock => true
  | .wait => true
  | .failLock => true
  | .failErase => true
  | .failUnlock => true
  | .timeoutLock => true
  | .timeoutErase => true
  | .timeoutCount => true
  | .timeoutUnlock => true
  | _ => false

/-- The points before the first fetch. -/
def SyncPc.beforeFetch : SyncPc → Bool
  | .unborn => true
  | .check => true
  | .refused => true
  | .fetch => true
  | _ => false

/-- The points between the first fetch and the registration. -/
def SyncPc.beforeRegister : SyncPc → Bool
  | .refetch => true
  | .registerLock => true
  | .register => true
  | _ => false

/-- The points of a call whose entry is its own to erase. -/
def SyncPc.live : SyncPc → Bool
  | .registerUnlock => true
  | .send => true
  | .wait => true
  | .failLock => true
  | .failErase => true
  | .timeoutLock => true
  | .timeoutErase => true
  | _ => false

/-- The points of a call that has given its entry up. -/
def SyncPc.gaveUp : SyncPc → Bool
  | .failUnlock => true
  | .timeoutCount => true
  | .timeoutUnlock => true
  | .count ec => decide (ec ≠ .ok)
  | .done ec => decide (ec ≠ .ok)
  | _ => false

/-- How often a call at this point has counted a success, and a failure. -/
def SyncPc.published : SyncPc → ℕ
  | .done ec => if ec = .ok then 1 else 0
  | _ => 0

def SyncPc.failed : SyncPc → ℕ
  | .timeoutUnlock => 1
  | .done ec => if ec = .ok then 0 else 1
  | _ => 0

/-- No promise has been registered for the call. -/
def SyncCall.early (k : SyncCall) : Prop := k.fetchedAt = none ∨ k.pc.beforeRegister = true

/-- How often a promise has been fulfilled. -/
def Promise.sets : Promise → ℕ
  | .fulfilled _ => 1
  | .unset => 0
  | .pending => 0
  | .broken => 0

structure SyncCallFits (s : AckState) (c : ℕ) : Prop where
  tracked : (s.calls c).pc.tracked = true → 0 < (s.calls c).qos
  fetched : (s.calls c).fetchedAt ≠ none ↔
    0 < (s.calls c).qos ∧ (s.calls c).pc.beforeFetch = false
  unset : s.promises c = .unset ↔ (s.calls c).early
  pending : s.promises c = .pending → s.pendingPubacks.lookup (s.calls c).id = some c ∧
    (s.calls c).pc.live = true ∧ .registered c ∈ s.log
  broken : s.promises c = .broken → (s.calls c).pc.gaveUp = true
  sets : s.setCalls c = (s.promises c).sets
  acked : s.promises c = .fulfilled .ok → s.Acked c
  result : (s.calls c).pc = .count .ok ∨ (s.calls c).pc = .done .ok → 0 < (s.calls c).qos →
    s.promises c = .fulfilled .ok
  published : s.published.count c = (s.calls c).pc.published
  failed : s.failed.count c = (s.calls c).pc.failed
  noThrow : (s.calls c).pc ≠ .threw

theorem AckState.Acked.frame (h : s.Acked c) (hid : (s'.calls c).id = (s.calls c).id)
    (hlog : s.log <+: s'.log) : s'.Acked c := by
  obtain ⟨pre, mid, post, hlog'⟩ := h
  obtain ⟨more, hmore⟩ := hlog
  refine ⟨pre, mid, post ++ more, ?_⟩
  rw [← hmore, hlog', hid]
  simp

/-- What the steps of the others leave of a call. -/
theorem SyncCallFits.frame (h : SyncCallFits s c) (hcall : s'.calls c = s.calls c)
    (hp : s'.promises c = s.promises c) (hsets : s'.setCalls c = s.setCalls c)
    (hentry : s.promises c = .pending → s.pendingPubacks.lookup (s.calls c).id = some c →
      s'.pendingPubacks.lookup (s.calls c).id = some c)
    (hlog : s.log <+: s'.log) (hpub : s'.published.count c = s.published.count c)
    (hfail : s'.failed.count c = s.failed.count c) : SyncCallFits s' c := by
  refine ⟨by rw [hcall]; exact h.tracked, by rw [hcall]; exact h.fetched,
    by rw [hcall, hp]; exact h.unset, ?_, by rw [hcall, hp]; exact h.broken,
    by rw [hp, hsets]; exact h.sets, ?_, by rw [hcall, hp]; exact h.result,
    by rw [hcall, hpub]; exact h.published, by rw [hcall, hfail]; exact h.failed,
    by rw [hcall]; exact h.noThrow⟩
  · rw [hcall, hp]
    intro hpend
    obtain ⟨hlookup, hlive, hreg⟩ := h.pending hpend
    exact ⟨hentry hpend hlookup, hlive, hlog.subset hreg⟩
  · rw [hp]
    exact fun hok => (h.acked hok).frame (by rw [hcall]) hlog

/-- What a step that only moves a call asks of its two points. -/
structure SyncPc.Fits (pc pc' : SyncPc) (k : SyncCall) (p : Promise) : Prop where
  tracked : pc'.tracked = true → 0 < k.qos
  fetched : 0 < k.qos → pc'.beforeFetch = pc.beforeFetch
  early : k.fetchedAt ≠ none → pc'.beforeRegister = pc.beforeRegister
  pending : p = .pending → pc'.live = true
  broken : p = .broken → pc'.gaveUp = true
  result : pc' = .count .ok ∨ pc' = .done .ok → 0 < k.qos → p = .fulfilled .ok
  noThrow : pc' ≠ .threw

/-- A call moves; what it has counted fits its new point. -/
theorem SyncCallFits.move (h : SyncCallFits s c) {pc : SyncPc}
    (hfit : (s.calls c).pc.Fits pc (s.calls c) (s.promises c))
    (hcall : s'.calls c = { s.calls c with pc := pc }) (hp : s'.promises c = s.promises c)
    (hsets : s'.setCalls c = s.setCalls c) (hentries : s'.pendingPubacks = s.pendingPubacks)
    (hlog : s'.log = s.log) (hpub : s'.published.count c = pc.published)
    (hfail : s'.failed.count c = pc.failed) : SyncCallFits s' c := by
  have hpc : (s'.calls c).pc = pc := by rw [hcall]
  have hqos : (s'.calls c).qos = (s.calls c).qos := by rw [hcall]
  have hid : (s'.calls c).id = (s.calls c).id := by rw [hcall]
  have hf : (s'.calls c).fetchedAt = (s.calls c).fetchedAt := by rw [hcall]
  have hfetched : (s.calls c).fetchedAt ≠ none ↔ 0 < (s.calls c).qos ∧ pc.beforeFetch = false := by
    rw [h.fetched]
    exact and_congr_right fun hq => by rw [hfit.fetched hq]
  constructor
  · rw [hpc, hqos]
    exact hfit.tracked
  · rw [hpc, hqos, hf]
    exact hfetched
  · rw [hp, h.unset, SyncCall.early, SyncCall.early, hpc, hf]
    by_cases hn : (s.calls c).fetchedAt = none
    · simp [hn]
    · simp [hn, hfit.early hn]
  · rw [hp, hpc, hid, hentries, hlog]
    intro hpend
    obtain ⟨hlookup, -, hreg⟩ := h.pending hpend
    exact ⟨hlookup, hfit.pending hpend, hreg⟩
  · rw [hp, hpc]
    exact hfit.broken
  · rw [hp, hsets]
    exact h.sets
  · rw [hp]
    exact fun hok => (h.acked hok).frame hid (by rw [hlog])
  · rw [hp, hpc, hqos]
    exact hfit.result
  · rw [hpub, hpc]
  · rw [hfail, hpc]
  · rw [hpc]
    exact hfit.noThrow

/-! ## Steps -/

namespace LockFits

variable {pc : SyncPc} {q : HandlerPc}

theorem free_call (hs : LockFits s) (hfree : s.pubackMtx = none) (c : ℕ) :
    (s.calls c).pc.holds = false := by
  refine Bool.eq_false_iff.mpr fun hc => ?_
  simpa [hfree] using hs.call c hc

theorem free_handler (hs : LockFits s) (hfree : s.pubackMtx = none) (h : ℕ) :
    (s.handlers h).holds = false := by
  refine Bool.eq_false_iff.mpr fun hh => ?_
  simpa [hfree] using hs.handler h hh

/-- The lock is with the call, if it holds it. -/
theorem of_call (hs : LockFits s) (hhandlers : s'.handlers = s.handlers)
    (hother : ∀ c', c' ≠ c → (s'.calls c').pc = (s.calls c').pc)
    (hself : (s'.calls c).pc.holds = true → s'.pubackMtx = some (.call c))
    (hmtx : s'.pubackMtx = s.pubackMtx ∨ s.pubackMtx = none ∨ s.pubackMtx = some (.call c)) :
    LockFits s' := by
  constructor
  · intro c' hc'
    by_cases hc : c' = c
    · subst hc
      exact hself hc'
    · rw [hother c' hc] at hc'
      rcases hmtx with h | h | h
      · rw [h]
        exact hs.call c' hc'
      · simp [hs.free_call h c'] at hc'
      · exact absurd ((hs.call c' hc').symm.trans h) (by simp [hc])
  · intro h hh
    rw [hhandlers] at hh
    rcases hmtx with hm | hm | hm
    · rw [hm]
      exact hs.handler h hh
    · simp [hs.free_handler hm h] at hh
    · exact absurd ((hs.handler h hh).symm.trans hm) (by simp)

/-- The lock is with the handler, if it holds it. -/
theorem of_handler (hs : LockFits s) (hcalls : ∀ c, (s'.calls c).pc = (s.calls c).pc)
    (hother : ∀ h', h' ≠ h → s'.handlers h' = s.handlers h')
    (hself : (s'.handlers h).holds = true → s'.pubackMtx = some (.handler h))
    (hmtx : s'.pubackMtx = s.pubackMtx ∨ s.pubackMtx = none ∨ s.pubackMtx = some (.handler h)) :
    LockFits s' := by
  constructor
  · intro c hc
    rw [hcalls] at hc
    rcases hmtx with hm | hm | hm
    · rw [hm]
      exact hs.call c hc
    · simp [hs.free_call hm c] at hc
    · exact absurd ((hs.call c hc).symm.trans hm) (by simp)
  · intro h' hh'
    by_cases hne : h' = h
    · subst hne
      exact hself hh'
    · rw [hother h' hne] at hh'
      rcases hmtx with hm | hm | hm
      · rw [hm]
        exact hs.handler h' hh'
      · simp [hs.free_handler hm h'] at hh'
      · exact absurd ((hs.handler h' hh').symm.trans hm) (by simp [hne])

end LockFits

structure AckInv (s : AckState) : Prop where
  lock : LockFits s
  ids : Allocation s
  entries : EntriesSound s
  calls : ∀ c, SyncCallFits s c
  metrics : s.messagesPublished = s.published.length ∧ s.publishFailures = s.failed.length

@[simp] theorem AckState.setPc_self (s : AckState) (c : ℕ) (pc : SyncPc) :
    (s.setPc c pc).calls c = { s.calls c with pc := pc } := Function.update_self ..

theorem AckState.setPc_of_ne (s : AckState) (pc : SyncPc) (h : c' ≠ c) :
    (s.setPc c pc).calls c' = s.calls c' := Function.update_of_ne h ..

theorem AckState.setPc_calls (s : AckState) (c c' : ℕ) (pc : SyncPc) :
    (s.setPc c pc).calls c' = { s.calls c' with pc := ((s.setPc c pc).calls c').pc } := by
  by_cases hc : c' = c
  · subst hc; simp
  · rw [s.setPc_of_ne pc hc]

/-- The entries are those of before, and so are their values. -/
theorem EntriesSound.frame (hs : EntriesSound s) (hentries : s'.pendingPubacks = s.pendingPubacks)
    (hpromises : s'.promises = s.promises)
    (hid : ∀ id c, s.pendingPubacks.lookup id = some c → (s'.calls c).id = (s.calls c).id)
    (hsettling : ∀ id, s.pendingPubacks.lookup id ≠ none → s'.settling id = s.settling id)
    (htodo : ∀ h todo, s'.handlers h = .failing todo → todo.Nodup) : EntriesSound s' := by
  refine ⟨?_, ?_, ?_, htodo⟩
  · intro id c hc
    rw [hentries] at hc
    rw [hid id c hc]
    exact hs.owner id c hc
  · intro id c hc hset
    rw [hentries] at hc
    rw [hpromises]
    exact hs.settled id c hc (hsettling id (by simp [hc]) ▸ hset)
  · intro id c hc hset
    rw [hentries] at hc
    rw [hpromises]
    exact hs.unsettled id c hc (hsettling id (by simp [hc]) ▸ hset)

/-- With no handler in the table, every entry still waits for its value. -/
theorem EntriesSound.of_held (hs : EntriesSound s) (hno : ∀ h, s'.pubackMtx ≠ some (.handler h))
    (hhandlers : s'.handlers = s.handlers)
    (hentry : ∀ id c, s'.pendingPubacks.lookup id = some c →
      (s'.calls c).id = id ∧ s'.promises c = .pending) : EntriesSound s' := by
  refine ⟨fun id c hc => (hentry id c hc).1, ?_, fun id c hc _ => (hentry id c hc).2, ?_⟩
  · intro id c _ hset
    rw [AckState.settling_of_not_handler hno] at hset
    contradiction
  · rw [hhandlers]
    exact hs.todo

/-- A call moves, and may take or release the lock or count its outcome. -/
theorem AckInv.move (hs : AckInv s) {pc : SyncPc} {m : Option Party} {np nf : ℕ}
    {pub fail : List ℕ} (hfit : (s.calls c).pc.Fits pc (s.calls c) (s.promises c))
    (hrun : pc.running = true → (s.calls c).pc.running = true)
    (hself : pc.holds = true → m = some (.call c))
    (hmtx : m = s.pubackMtx ∨ s.pubackMtx = none ∨ s.pubackMtx = some (.call c))
    (hfree : m = s.pubackMtx ∨ ∀ h, m ≠ some (.handler h))
    (hpub : pub.count c = pc.published) (hfail : fail.count c = pc.failed)
    (hpub' : ∀ c', c' ≠ c → pub.count c' = s.published.count c')
    (hfail' : ∀ c', c' ≠ c → fail.count c' = s.failed.count c')
    (hmetrics : np = pub.length ∧ nf = fail.length) :
    AckInv { s.setPc c pc with
      pubackMtx := m, messagesPublished := np, publishFailures := nf,
      published := pub, failed := fail } := by
  have hlock : LockFits { s.setPc c pc with
      pubackMtx := m, messagesPublished := np, publishFailures := nf,
      published := pub, failed := fail } := by
    refine hs.lock.of_call (c := c) rfl (fun c' hc => ?_) (fun h => hself ?_) hmtx
    · exact congrArg _ (s.setPc_of_ne pc hc)
    · simpa using h
  refine ⟨hlock, ?_, ?_, ?_, hmetrics⟩
  · refine (hs.ids.setPc (c := c) hrun).frame rfl rfl rfl (fun c' => ?_) fun c' hc' => hc'
    rfl
  · refine hs.entries.frame rfl rfl (fun _ c' _ => ?_) (fun id _ => ?_) hs.entries.todo
    · change ((s.setPc c pc).calls c').id = _
      rw [s.setPc_calls]
    · rcases hfree with rfl | hno
      · rfl
      · rw [AckState.settling_of_not_handler hno, AckState.settling_of_not_handler fun h hm => ?_]
        rcases hmtx with hm' | hm' | hm'
        · exact hno h (hm'.trans hm)
        · simp [hm'] at hm
        · simp [hm'] at hm
  · intro c'
    by_cases hc : c' = c
    · subst hc
      exact (hs.calls c').move hfit (s.setPc_self c' pc) rfl rfl rfl rfl hpub hfail
    · exact (hs.calls c').frame (s.setPc_of_ne pc hc) rfl rfl (fun _ h => h)
        (List.prefix_refl _) (hpub' c' hc) (hfail' c' hc)

/-- An entry has been registered by its owner, and is there until it has its value. -/
theorem AckInv.not_early (hs : AckInv s) (hc : s.pendingPubacks.lookup id = some c) :
    ¬(s.calls c).early := by
  rw [← (hs.calls c).unset]
  cases hset : s.settling id with
  | true =>
    obtain ⟨ec, hp⟩ := hs.entries.settled id c hc hset
    simp [hp]
  | false => simp [hs.entries.unsettled id c hc hset]

theorem SyncPc.running_of_live {pc : SyncPc} (h : pc.live = true) : pc.running = true := by
  cases pc <;> first | rfl | simp [SyncPc.live] at h

theorem SyncPc.running_of_holds {pc : SyncPc} (h : pc.holds = true) : pc.running = true := by
  cases pc <;> first | rfl | simp [SyncPc.holds] at h

/-- While a call holds the lock, the only entry at its identifier is its own. -/
theorem AckInv.own_entry (hs : AckInv s) (hpc : (s.calls c).pc.holds = true)
    (hf : (s.calls c).fetchedAt ≠ none)
    (hc' : s.pendingPubacks.lookup (s.calls c).id = some c') : c' = c := by
  have hset : s.settling (s.calls c).id = false :=
    AckState.settling_of_not_handler (by simp [hs.lock.call c hpc])
  have hlive := ((hs.calls c').pending (hs.entries.unsettled _ c' hc' hset)).2.1
  have hf' : (s.calls c').fetchedAt ≠ none := fun h => hs.not_early hc' (.inl h)
  exact hs.ids.unique (SyncPc.running_of_live hlive) (SyncPc.running_of_holds hpc) hf' hf
    (hs.entries.owner _ c' hc')

/-- Two points of a call, one after the other, that stand the same to its entry. -/
structure SyncPc.Alike (pc pc' : SyncPc) : Prop where
  tracked : pc'.tracked = true → pc.tracked = true
  beforeFetch : pc'.beforeFetch = pc.beforeFetch
  beforeRegister : pc'.beforeRegister = pc.beforeRegister
  live : pc.live = true → pc'.live = true
  gaveUp : pc.gaveUp = true → pc'.gaveUp = true
  result : pc' = .count .ok ∨ pc' = .done .ok → pc = .count .ok
  noThrow : pc' ≠ .threw
  running : pc.running = true

theorem SyncPc.locked_alike {pc pc' : SyncPc} (h : pc.locked = some pc') : pc.Alike pc' := by
  cases pc <;> simp only [SyncPc.locked, reduceCtorEq] at h
  all_goals
    obtain rfl := Option.some.inj h
    constructor <;> decide

theorem SyncPc.unlocked_alike {pc pc' : SyncPc} (h : pc.unlocked = some pc') : pc.Alike pc' := by
  cases pc <;> simp only [SyncPc.unlocked, reduceCtorEq] at h
  all_goals
    obtain rfl := Option.some.inj h
    constructor <;> decide

theorem SyncPc.locked_counted {pc pc' : SyncPc} (h : pc.locked = some pc') :
    pc.published = pc'.published ∧ pc.failed = pc'.failed := by
  cases pc <;> simp only [SyncPc.locked, reduceCtorEq] at h
  all_goals
    obtain rfl := Option.some.inj h
    exact ⟨rfl, rfl⟩

theorem SyncPc.unlocked_counted {pc pc' : SyncPc} (h : pc.unlocked = some pc') :
    pc.published = pc'.published ∧ pc.failed = pc'.failed := by
  cases pc <;> simp only [SyncPc.unlocked, reduceCtorEq] at h
  all_goals
    obtain rfl := Option.some.inj h
    exact ⟨rfl, rfl⟩

theorem SyncPc.unlocked_holds {pc pc' : SyncPc} (h : pc.unlocked = some pc') :
    pc.holds = true ∧ pc'.holds = false := by
  cases pc <;> simp only [SyncPc.unlocked, reduceCtorEq] at h
  all_goals
    obtain rfl := Option.some.inj h
    exact ⟨rfl, rfl⟩

theorem SyncPc.count_alike (ec : ErrorCode) : (SyncPc.count ec).Alike (.done ec) := by
  constructor <;> simp [SyncPc.tracked, SyncPc.beforeFetch, SyncPc.beforeRegister, SyncPc.live,
    SyncPc.gaveUp, SyncPc.running, SyncPc.returned]

theorem SyncCallFits.fits_of_alike (h : SyncCallFits s c) {pc : SyncPc}
    (ha : (s.calls c).pc.Alike pc) : (s.calls c).pc.Fits pc (s.calls c) (s.promises c) where
  tracked hpc := h.tracked (ha.tracked hpc)
  fetched _ := ha.beforeFetch
  early _ := ha.beforeRegister
  pending hp := ha.live (h.pending hp).2.1
  broken hp := ha.gaveUp (h.broken hp)
  result hpc := h.result (.inl (ha.result hpc))
  noThrow := ha.noThrow

namespace SyncCall.Moves

variable {k : SyncCall} {p : Promise} {pc : SyncPc}

theorem running (h : k.Moves p pc) : k.pc.running = true := by
  cases h with
  | check _ h => rw [h]; rfl
  | send _ h => rw [h]; rfl
  | timeout h => rw [h]; rfl
  | get _ h => rw [h]; rfl

theorem holds (h : k.Moves p pc) : pc.holds = false := by
  cases h with
  | check connected h => split_ifs <;> rfl
  | send ok h => unfold SyncPc.afterSend; split_ifs <;> rfl
  | timeout h => rfl
  | get r h => cases r <;> rfl

/-- Neither point has counted anything. -/
theorem uncounted (h : k.Moves p pc) :
    (k.pc.published = 0 ∧ k.pc.failed = 0) ∧ pc.published = 0 ∧ pc.failed = 0 := by
  cases h with
  | check connected h => rw [h]; split_ifs <;> decide
  | send ok h => rw [h]; unfold SyncPc.afterSend; split_ifs <;> decide
  | timeout h => rw [h]; decide
  | get r h => rw [h]; cases r <;> exact ⟨⟨rfl, rfl⟩, rfl, rfl⟩

end SyncCall.Moves

theorem SyncCallFits.fits (h : SyncCallFits s c) {pc : SyncPc}
    (hm : (s.calls c).Moves (s.promises c) pc) :
    (s.calls c).pc.Fits pc (s.calls c) (s.promises c) := by
  have htracked := h.tracked
  have hfetched := h.fetched
  have hunset := h.unset
  have hpending := h.pending
  have hbroken := h.broken
  cases hm with
  | check connected hpc =>
    simp only [hpc] at *
    have hnone : (s.calls c).fetchedAt = none := by simpa [SyncPc.beforeFetch] using hfetched
    have hp : s.promises c = .unset := hunset.mpr (.inl hnone)
    refine ⟨?_, ?_, ?_, by simp [hp], by simp [hp], ?_, ?_⟩
    · split_ifs with _ hq <;> simp [SyncPc.tracked]
      exact hq
    · intro hq
      split_ifs <;> rfl
    · simp [hnone]
    · split_ifs <;> simp
    · split_ifs <;> simp
  | send ok hpc =>
    simp only [hpc] at *
    have hq : s.promises c = .pending → 0 < (s.calls c).qos := fun hp => by
      refine (hfetched.mp fun hnone => ?_).1
      simp [hunset.mpr (.inl hnone)] at hp
    unfold SyncPc.afterSend
    constructor
    · split_ifs with hq' <;> simp [SyncPc.tracked, hq']
    · intro hq'
      split_ifs <;> rfl
    · intro _
      split_ifs <;> rfl
    · intro hp
      rw [if_pos (hq hp)]
      split_ifs <;> rfl
    · exact fun hp => absurd (hbroken hp) (by simp [SyncPc.gaveUp])
    · intro hpc' hq'
      rw [if_pos hq'] at hpc'
      split_ifs at hpc' <;> simp at hpc'
    · split_ifs <;> simp
  | timeout hpc hp =>
    simp only [hpc, hp] at *
    exact ⟨fun _ => htracked rfl, fun _ => rfl, fun _ => rfl, fun _ => rfl, by simp, by simp,
      by simp⟩
  | get r hpc hr =>
    simp only [hpc] at *
    obtain ⟨ec, hp, rfl⟩ : ∃ ec, s.promises c = .fulfilled ec ∧ r = some ec := by
      cases hp : s.promises c with
      | unset => simp [hp, Promise.get] at hr
      | pending => simp [hp, Promise.get] at hr
      | broken => exact absurd (hbroken hp) (by simp [SyncPc.gaveUp])
      | fulfilled ec => exact ⟨ec, rfl, by simpa [hp, Promise.get] using hr.symm⟩
    refine ⟨fun _ => htracked rfl, fun _ => rfl, fun _ => rfl, by simp [hp], by simp [hp], ?_,
      by simp⟩
    rintro (hec | hec) -
    · obtain rfl : ec = .ok := by simpa using hec
      exact hp
    · simp at hec

namespace AckInv

/-- A call by itself. -/
theorem moves (hs : AckInv s) {pc : SyncPc} (hm : (s.calls c).Moves (s.promises c) pc) :
    AckInv (s.setPc c pc) := by
  obtain ⟨⟨hp, hf⟩, hp', hf'⟩ := hm.uncounted
  refine hs.move ((hs.calls c).fits hm) (fun _ => hm.running) (by simp [hm.holds]) (.inl rfl)
    (.inl rfl) ?_ ?_ (fun _ _ => rfl) (fun _ _ => rfl) hs.metrics
  · rw [(hs.calls c).published, hp, hp']
  · rw [(hs.calls c).failed, hf, hf']

theorem lockCall (hs : AckInv s) {pc : SyncPc} (hfree : s.pubackMtx = none)
    (hpc : (s.calls c).pc.locked = some pc) :
    AckInv { s.setPc c pc with pubackMtx := some (.call c) } := by
  obtain ⟨hp, hf⟩ := SyncPc.locked_counted hpc
  have ha := SyncPc.locked_alike hpc
  refine hs.move ((hs.calls c).fits_of_alike ha) (fun _ => ha.running) (fun _ => rfl)
    (.inr (.inl hfree)) (.inr (by simp)) ?_ ?_ (fun _ _ => rfl) (fun _ _ => rfl) hs.metrics
  · exact (hs.calls c).published.trans hp
  · exact (hs.calls c).failed.trans hf

theorem unlockCall (hs : AckInv s) {pc : SyncPc} (hpc : (s.calls c).pc.unlocked = some pc) :
    AckInv { s.setPc c pc with pubackMtx := none } := by
  obtain ⟨hp, hf⟩ := SyncPc.unlocked_counted hpc
  obtain ⟨hold, hfree⟩ := SyncPc.unlocked_holds hpc
  have ha := SyncPc.unlocked_alike hpc
  refine hs.move ((hs.calls c).fits_of_alike ha) (fun _ => ha.running) (by simp [hfree])
    (.inr (.inr (hs.lock.call c hold))) (.inr (by simp)) ?_ ?_ (fun _ _ => rfl) (fun _ _ => rfl)
    hs.metrics
  · exact (hs.calls c).published.trans hp
  · exact (hs.calls c).failed.trans hf

/-- The outcome of a call is counted, in one of the two counters. -/
theorem count (hs : AckInv s) {ec : ErrorCode} {pc : SyncPc}
    (hpc : (s.calls c).pc = .count ec ∧ pc = .done ec ∨
      (s.calls c).pc = .timeoutCount ∧ ec = .publishTimeout ∧ pc = .timeoutUnlock) :
    AckInv ((s.record c ec).setPc c pc) := by
  have ha : (s.calls c).pc.Alike pc := by
    rcases hpc with ⟨h, rfl⟩ | ⟨h, -, rfl⟩
    · rw [h]
      exact SyncPc.count_alike ec
    · rw [h]
      constructor <;> decide
  have hself : pc.holds = true → s.pubackMtx = some (.call c) := fun hpc' => by
    rcases hpc with ⟨-, rfl⟩ | ⟨h, -⟩
    · simp [SyncPc.holds] at hpc'
    · exact hs.lock.call c (by rw [h]; rfl)
  have hcounts : ((s.calls c).pc.published = 0 ∧ (s.calls c).pc.failed = 0) ∧
      pc.published = (if ec = .ok then 1 else 0) ∧ pc.failed = if ec = .ok then 0 else 1 := by
    rcases hpc with ⟨h, rfl⟩ | ⟨h, rfl, rfl⟩ <;> rw [h] <;> exact ⟨⟨rfl, rfl⟩, rfl, rfl⟩
  have hpub := (hs.calls c).published
  have hfail := (hs.calls c).failed
  obtain ⟨hmp, hpf⟩ := hs.metrics
  rw [hcounts.1.1] at hpub
  rw [hcounts.1.2] at hfail
  obtain ⟨-, hp', hf'⟩ := hcounts
  have hfits := (hs.calls c).fits_of_alike ha
  unfold AckState.record
  split_ifs at hp' hf' ⊢
  · refine hs.move hfits (fun _ => ha.running) hself (.inl rfl) (.inl rfl) ?_ ?_ ?_
      (fun _ _ => rfl) ⟨by simp [hmp], hpf⟩
    · rw [List.count_cons_self, hpub, hp']
    · rw [hfail, hf']
    · exact fun c' hc => List.count_cons_of_ne hc.symm
  · refine hs.move hfits (fun _ => ha.running) hself (.inl rfl) (.inl rfl) ?_ ?_ (fun _ _ => rfl)
      ?_ ⟨hmp, by simp [hpf]⟩
    · rw [hpub, hp']
    · rw [List.count_cons_self, hfail, hf']
    · exact fun c' hc => List.count_cons_of_ne hc.symm

end AckInv

/-- What is left to ask of a call that has registered nothing yet. -/
structure SyncCall.Fresh (k : SyncCall) : Prop where
  early : k.early
  tracked : k.pc.tracked = true → 0 < k.qos
  fetched : k.fetchedAt ≠ none ↔ 0 < k.qos ∧ k.pc.beforeFetch = false
  uncounted : k.pc.published = 0 ∧ k.pc.failed = 0
  noResult : k.pc ≠ .count .ok ∧ k.pc ≠ .done .ok ∧ k.pc ≠ .threw
  free : k.pc.holds = false

theorem SyncCallFits.of_fresh (hk : (s.calls c).Fresh) (hp : s.promises c = .unset)
    (hsets : s.setCalls c = 0) (hpub : s.published.count c = 0) (hfail : s.failed.count c = 0) :
    SyncCallFits s c where
  tracked := hk.tracked
  fetched := hk.fetched
  unset := ⟨fun _ => hk.early, fun _ => hp⟩
  pending h := by simp [hp] at h
  broken h := by simp [hp] at h
  sets := by rw [hsets, hp]; rfl
  acked h := by simp [hp] at h
  result h := by simp [hk.noResult.1, hk.noResult.2.1] at h
  published := by rw [hpub, hk.uncounted.1]
  failed := by rw [hfail, hk.uncounted.2]
  noThrow := hk.noResult.2.2

namespace AckInv

/-- A call that has no entry yet begins, or draws from the counter. -/
theorem renew (hs : AckInv s) {k : SyncCall} {n : UInt16} {f a : ℕ} (hearly : (s.calls c).early)
    (hcounts : (s.calls c).pc.published = 0 ∧ (s.calls c).pc.failed = 0) (hk : k.Fresh)
    (hids : Allocation { s with
      calls := Function.update s.calls c k, nextPacketId := n, fetches := f, allocated := a }) :
    AckInv { s with
      calls := Function.update s.calls c k, nextPacketId := n, fetches := f, allocated := a } := by
  have hc := hs.calls c
  have hp := hc.unset.mpr hearly
  refine ⟨?_, hids, ?_, ?_, hs.metrics⟩
  · refine hs.lock.of_call (c := c) rfl (fun c' hne => ?_) ?_ (.inl rfl)
    · simp [Function.update_of_ne hne]
    · simp [hk.free]
  · refine hs.entries.frame rfl rfl ?_ (fun _ _ => rfl) hs.entries.todo
    intro id c' hentry
    have hne : c' ≠ c := by
      rintro rfl
      exact hs.not_early hentry hearly
    simp [Function.update_of_ne hne]
  · intro c'
    by_cases hne : c' = c
    · subst hne
      refine .of_fresh (by simpa using hk) hp ?_ ?_ ?_
      · exact hc.sets.trans (by rw [hp]; rfl)
      · exact hc.published.trans hcounts.1
      · exact hc.failed.trans hcounts.2
    · exact (hs.calls c').frame (Function.update_of_ne hne ..) rfl rfl (fun _ h => h)
        (List.prefix_refl _) rfl rfl

theorem begin (hs : AckInv s) {qos : ℤ} (hpc : (s.calls c).pc = .unborn) :
    AckInv (s.begin c qos) := by
  have hearly : (s.calls c).early :=
    .inl (by simpa [hpc, SyncPc.beforeFetch] using (hs.calls c).fetched)
  refine hs.renew hearly (by rw [hpc]; exact ⟨rfl, rfl⟩) ⟨.inl rfl, ?_, ?_, ⟨rfl, rfl⟩, ?_, rfl⟩
    (hs.ids.begin hpc)
  · simp [SyncPc.tracked]
  · simp [SyncPc.beforeFetch]
  · simp

theorem fetch (hs : AckInv s) {final : Bool} (hfew : FewIds s (.fetch c))
    (hpc : (s.calls c).pc = .fetch ∧ final = decide (s.nextPacketId ≠ 0) ∨
      (s.calls c).pc = .refetch ∧ final = true) : AckInv (s.fetch c final) := by
  have hc := hs.calls c
  have hold : (s.calls c).pc.tracked = true ∧ (s.calls c).pc.published = 0 ∧
      (s.calls c).pc.failed = 0 := by
    rcases hpc with ⟨h, -⟩ | ⟨h, -⟩ <;> rw [h] <;> exact ⟨rfl, rfl, rfl⟩
  have hearly : (s.calls c).early := by
    rcases hpc with ⟨h, -⟩ | ⟨h, -⟩
    · exact .inl (by simpa [h, SyncPc.beforeFetch] using hc.fetched)
    · exact .inr (by rw [h]; rfl)
  have hq := hc.tracked hold.1
  refine hs.renew hearly hold.2 ⟨.inr ?_, fun _ => hq, ?_, ?_, ?_, ?_⟩ (hs.ids.fetch hfew hpc)
  · cases final <;> rfl
  · cases final <;> simp [SyncPc.beforeFetch, hq]
  · cases final <;> exact ⟨rfl, rfl⟩
  · cases final <;> simp
  · cases final <;> rfl

/-- An entry at the identifier of a call that is about to register would be its own. -/
theorem register_free (hs : AckInv s) (hpc : (s.calls c).pc = .register) :
    s.pendingPubacks.lookup (s.calls c).id = none := by
  have hc := hs.calls c
  have hf : (s.calls c).fetchedAt ≠ none :=
    hc.fetched.mpr ⟨hc.tracked (by rw [hpc]; rfl), by rw [hpc]; rfl⟩
  refine Option.eq_none_iff_forall_ne_some.mpr fun c' hc' => ?_
  obtain rfl := hs.own_entry (by rw [hpc]; rfl) hf hc'
  exact hs.not_early hc' (.inr (by rw [hpc]; rfl))

theorem register (hs : AckInv s) (hpc : (s.calls c).pc = .register) :
    AckInv ((s.register c).setPc c .registerUnlock) := by
  have hc := hs.calls c
  have hq : 0 < (s.calls c).qos := hc.tracked (by rw [hpc]; rfl)
  have hf : (s.calls c).fetchedAt ≠ none := hc.fetched.mpr ⟨hq, by rw [hpc]; rfl⟩
  have hfree := hs.register_free hpc
  have hmtx := hs.lock.call c (by rw [hpc]; rfl)
  have hp : s.promises c = .unset := hc.unset.mpr (.inr (by rw [hpc]; rfl))
  have hcalls : ∀ c', ((s.register c).setPc c .registerUnlock).calls c' =
      (s.setPc c .registerUnlock).calls c' := fun c' => rfl
  have hpromises : ∀ c', c' ≠ c →
      ((s.register c).setPc c .registerUnlock).promises c' = s.promises c' := fun c' hne => by
    exact (Function.update_of_ne hne ..).trans (Pending.resolve_of_ne (by simp [hfree]))
  have hself : ((s.register c).setPc c .registerUnlock).promises c = .pending :=
    Function.update_self ..
  have hold : ∀ id c', s.pendingPubacks.lookup id = some c' →
      ((s.register c).setPc c .registerUnlock).pendingPubacks.lookup id = some c' := by
    intro id c' hc'
    have hid : id ≠ (s.calls c).id := by
      rintro rfl
      simp [hfree] at hc'
    exact (AList.lookup_insert_ne hid).trans hc'
  refine ⟨?_, ?_, ?_, ?_, hs.metrics⟩
  · refine hs.lock.of_call (c := c) rfl (fun c' hne => ?_) (fun _ => hmtx) (.inl rfl)
    rw [hcalls, s.setPc_of_ne _ hne]
  · have hids : Allocation (s.setPc c .registerUnlock) := hs.ids.setPc fun _ => by
      rw [hpc]
      rfl
    exact hids.frame rfl rfl rfl (fun c' => rfl) fun c' hc' => hc'
  · refine hs.entries.of_held (fun h => ?_) rfl fun id c' hc' => ?_
    · change s.pubackMtx ≠ _
      simp [hmtx]
    rw [hcalls]
    rcases eq_or_ne id (s.calls c).id with rfl | hid
    · obtain rfl : c = c' := Option.some.inj ((AList.lookup_insert _).symm.trans hc')
      exact ⟨by rw [s.setPc_calls], hself⟩
    · have hentry := (AList.lookup_insert_ne hid).symm.trans hc'
      have hne : c' ≠ c := by
        rintro rfl
        exact hid (hs.entries.owner _ _ hentry).symm
      rw [s.setPc_of_ne _ hne, hpromises c' hne]
      exact ⟨hs.entries.owner _ _ hentry, hs.entries.unsettled _ _ hentry
        (AckState.settling_of_not_handler (by simp [hmtx]))⟩
  · intro c'
    by_cases hne : c' = c
    · subst hne
      have hk : ((s.register c').setPc c' .registerUnlock).calls c' =
          { s.calls c' with pc := .registerUnlock } := s.setPc_self _ _
      constructor
      · exact fun _ => by rw [hk]; exact hq
      · rw [hk]
        exact ⟨fun _ => ⟨hq, rfl⟩, fun _ => hf⟩
      · rw [hself, hk]
        simp [SyncCall.early, hf, SyncPc.beforeRegister]
      · rw [hk]
        refine fun _ => ⟨AList.lookup_insert _, rfl, ?_⟩
        exact List.mem_append_right _ (List.mem_singleton_self _)
      · simp [hself]
      · rw [hself]
        exact hc.sets.trans (by rw [hp]; rfl)
      · simp [hself]
      · rw [hk]
        simp
      · rw [hk]
        exact hc.published.trans (by rw [hpc]; rfl)
      · rw [hk]
        exact hc.failed.trans (by rw [hpc]; rfl)
      · rw [hk]
        simp
    · exact (hs.calls c').frame (s.setPc_of_ne _ hne) (hpromises c' hne) rfl
        (fun _ h => hold _ _ h) (List.prefix_append _ _) rfl rfl

/-- A call erases the entry at its identifier, which can only be its own. -/
theorem erase (hs : AckInv s) {pc : SyncPc}
    (hpc : (s.calls c).pc = .failErase ∧ pc = .failUnlock ∨
      (s.calls c).pc = .timeoutErase ∧ pc = .timeoutCount) :
    AckInv ((s.erase (s.calls c).id).setPc c pc) := by
  have hc := hs.calls c
  obtain ⟨hholds, hlive, hq, hbf, hbr, hg⟩ : (s.calls c).pc.holds = true ∧
      (s.calls c).pc.live = true ∧ 0 < (s.calls c).qos ∧ (s.calls c).pc.beforeFetch = false ∧
      (s.calls c).pc.beforeRegister = false ∧ (s.calls c).pc.gaveUp = false := by
    refine ⟨?_, ?_, hc.tracked ?_, ?_, ?_, ?_⟩ <;>
      rcases hpc with ⟨h, -⟩ | ⟨h, -⟩ <;> rw [h] <;> rfl
  obtain ⟨hholds', htr', hbf', hbr', hg'⟩ : pc.holds = true ∧ pc.tracked = true ∧
      pc.beforeFetch = false ∧ pc.beforeRegister = false ∧ pc.gaveUp = true := by
    rcases hpc with ⟨-, rfl⟩ | ⟨-, rfl⟩ <;> exact ⟨rfl, rfl, rfl, rfl, rfl⟩
  have hf : (s.calls c).fetchedAt ≠ none := hc.fetched.mpr ⟨hq, hbf⟩
  have hmtx := hs.lock.call c hholds
  have hset : ∀ id, s.settling id = false := fun id =>
    AckState.settling_of_not_handler (by simp [hmtx])
  have hown : ∀ c', s.pendingPubacks.lookup (s.calls c).id = some c' → c' = c := fun c' =>
    hs.own_entry hholds hf
  have hpromises : ∀ c', c' ≠ c →
      ((s.erase (s.calls c).id).setPc c pc).promises c' = s.promises c' := fun c' hne =>
    Pending.resolve_of_ne fun h => hne (hown c' h)
  have hkeep : ∀ id c', c' ≠ c → s.pendingPubacks.lookup id = some c' →
      ((s.erase (s.calls c).id).setPc c pc).pendingPubacks.lookup id = some c' := by
    intro id c' hne hc'
    have hid : id ≠ (s.calls c).id := by
      rintro rfl
      exact hne (hown c' hc')
    exact (AList.lookup_erase_ne hid).trans hc'
  refine ⟨?_, ?_, ?_, ?_, hs.metrics⟩
  · refine hs.lock.of_call (c := c) rfl (fun c' hne => ?_) (fun _ => hmtx) (.inl rfl)
    exact congrArg _ (s.setPc_of_ne pc hne)
  · have hids : Allocation (s.setPc c pc) := hs.ids.setPc fun _ => SyncPc.running_of_holds hholds
    exact hids.frame rfl rfl rfl (fun c' => rfl) fun c' hc' => hc'
  · refine hs.entries.of_held (fun h => ?_) rfl fun id c' hc' => ?_
    · change s.pubackMtx ≠ _
      simp [hmtx]
    · have hid : id ≠ (s.calls c).id := by
        rintro rfl
        exact absurd ((AList.lookup_erase ..).symm.trans hc') (by simp)
      have hentry : s.pendingPubacks.lookup id = some c' :=
        (AList.lookup_erase_ne hid).symm.trans hc'
      have hne : c' ≠ c := by
        rintro rfl
        exact hid (hs.entries.owner _ _ hentry).symm
      rw [hpromises c' hne]
      refine ⟨?_, hs.entries.unsettled id c' hentry (hset id)⟩
      exact (congrArg _ (s.setPc_of_ne pc hne)).trans (hs.entries.owner id c' hentry)
  · intro c'
    by_cases hne : c' = c
    · subst hne
      have hk : ((s.erase (s.calls c').id).setPc c' pc).calls c' = { s.calls c' with pc := pc } :=
        s.setPc_self _ _
      -- a value that was set before stays, a promise without one is broken
      have hp : ((s.erase (s.calls c').id).setPc c' pc).promises c' = .broken ∧
            s.promises c' = .pending ∨
          ∃ ec, ((s.erase (s.calls c').id).setPc c' pc).promises c' = .fulfilled ec ∧
            s.promises c' = .fulfilled ec := by
        cases hp : s.promises c' with
        | unset => exact absurd (hc.unset.mp hp) (by simp [SyncCall.early, hf, hbr])
        | broken => exact absurd (hc.broken hp) (by simp [hg])
        | pending =>
          exact .inl ⟨(Pending.resolve_owner (hc.pending hp).1).trans (by rw [hp]; rfl), rfl⟩
        | fulfilled ec =>
          refine .inr ⟨ec, (Pending.resolve_of_ne fun h => ?_).trans hp, rfl⟩
          simpa [hp] using hs.entries.unsettled _ _ h (hset _)
      have hcounts : (s.calls c').pc.published = pc.published ∧
          (s.calls c').pc.failed = pc.failed := by
        rcases hpc with ⟨h, rfl⟩ | ⟨h, rfl⟩ <;> rw [h] <;> exact ⟨rfl, rfl⟩
      constructor
      · exact fun _ => by rw [hk]; exact hq
      · rw [hk]
        exact ⟨fun _ => ⟨hq, hbf'⟩, fun _ => hf⟩
      · rw [hk]
        rcases hp with ⟨hp, -⟩ | ⟨ec, hp, -⟩ <;> simp [hp, SyncCall.early, hf, hbr']
      · rcases hp with ⟨hp, -⟩ | ⟨ec, hp, -⟩ <;> simp [hp]
      · rw [hk]
        exact fun _ => hg'
      · rcases hp with ⟨hp, hp'⟩ | ⟨ec, hp, hp'⟩
        · exact hc.sets.trans (by rw [hp, hp']; rfl)
        · exact hc.sets.trans (by rw [hp, hp'])
      · rcases hp with ⟨hp, -⟩ | ⟨ec, hp, hp'⟩
        · simp [hp]
        · rw [hp, ← hp']
          exact fun h => (hc.acked h).frame (by rw [hk]) (List.prefix_refl _)
      · rw [hk]
        rcases hpc with ⟨-, rfl⟩ | ⟨-, rfl⟩ <;> simp
      · rw [hk]
        exact hc.published.trans hcounts.1
      · rw [hk]
        exact hc.failed.trans hcounts.2
      · rw [hk]
        rcases hpc with ⟨-, rfl⟩ | ⟨-, rfl⟩ <;> simp
    · exact (hs.calls c').frame (s.setPc_of_ne _ hne) (hpromises c' hne) rfl
        (fun _ h => hkeep _ _ hne h) (List.prefix_refl _) rfl rfl

/-! ## Handlers -/

/-- A handler moves on, and may take or release the lock, and look a PUBACK up. -/
theorem handler (hs : AckInv s) {q : HandlerPc} {m : Option Party} {log : List AckEvent}
    (hself : q.holds = true → m = some (.handler h))
    (hmtx : m = s.pubackMtx ∨ s.pubackMtx = none ∨ s.pubackMtx = some (.handler h))
    (hsettling : ∀ id, s.pendingPubacks.lookup id ≠ none →
      { s.setHandler h q with pubackMtx := m, log := log : AckState }.settling id = s.settling id)
    (htodo : ∀ todo, q = .failing todo → todo.Nodup) (hlog : s.log <+: log) :
    AckInv { s.setHandler h q with pubackMtx := m, log := log } := by
  refine ⟨?_, ?_, ?_, fun c => ?_, hs.metrics⟩
  · refine hs.lock.of_handler (h := h) (fun c => rfl) (fun h' hne => ?_) (fun hh => hself ?_) hmtx
    · exact Function.update_of_ne hne ..
    · simpa [AckState.setHandler] using hh
  · exact hs.ids.frame rfl rfl rfl (fun c => rfl) fun c hc => hc
  · refine hs.entries.frame rfl rfl (fun _ c _ => rfl) hsettling fun h' todo hh' => ?_
    by_cases hne : h' = h
    · subst hne
      exact htodo todo ((Function.update_self ..).symm.trans hh')
    · exact hs.entries.todo h' todo ((Function.update_of_ne hne ..).symm.trans hh')
  · exact (hs.calls c).frame rfl rfl rfl (fun _ h => h) hlog rfl rfl

/-- A handler in the table gives the entry at `id` its value. -/
theorem setValue (hs : AckInv s) {q : HandlerPc} {ec : ErrorCode} {log : List AckEvent}
    (hholds : (s.handlers h).holds = true) (hentry : s.pendingPubacks.lookup id = some c)
    (hnew : (s.handlers h).settled id = false)
    (hsettled : ∀ id', s.pendingPubacks.lookup id' ≠ none →
      q.settled id' = (decide (id' = id) || (s.handlers h).settled id'))
    (htodo : ∀ todo, q = .failing todo → todo.Nodup) (hlog : s.log <+: log)
    (hok : ec = .ok → log = s.log ++ [.handled id]) :
    AckInv { (s.setValue c ec).setHandler h q with log := log } := by
  have hmtx := hs.lock.handler h hholds
  have hsettling : ∀ id, s.settling id = (s.handlers h).settled id := fun id => by
    rw [AckState.settling, hmtx]
  have hsettling' : ∀ id',
      { (s.setValue c ec).setHandler h q with log := log : AckState }.settling id' =
        q.settled id' := fun id' => by
    have hm : { (s.setValue c ec).setHandler h q with log := log : AckState }.pubackMtx =
      some (.handler h) := hmtx
    rw [AckState.settling, hm]
    simp [AckState.setHandler]
  have hp : s.promises c = .pending := hs.entries.unsettled id c hentry ((hsettling id).trans hnew)
  have hid := hs.entries.owner id c hentry
  have hc := hs.calls c
  have hself : { (s.setValue c ec).setHandler h q with log := log : AckState }.promises c =
      .fulfilled ec := (Function.update_self ..).trans (by rw [hp]; rfl)
  have hother : ∀ c', c' ≠ c →
      { (s.setValue c ec).setHandler h q with log := log : AckState }.promises c' =
        s.promises c' := fun c' hne => Function.update_of_ne hne ..
  refine ⟨?_, ?_, ?_, fun c' => ?_, hs.metrics⟩
  · refine hs.lock.of_handler (h := h) (fun c => rfl) (fun h' hne => ?_) (fun _ => hmtx) (.inl rfl)
    exact Function.update_of_ne hne ..
  · exact hs.ids.frame rfl rfl rfl (fun c => rfl) fun c hc => hc
  · refine ⟨hs.entries.owner, ?_, ?_, ?_⟩
    · intro id' c' hc' hset
      rw [hsettling', hsettled id' (Option.ne_none_iff_exists'.mpr ⟨c', hc'⟩)] at hset
      by_cases hne : c' = c
      · subst hne
        exact ⟨ec, hself⟩
      · have hid' : id' ≠ id := by
          rintro rfl
          exact hne (Option.some.inj (hc'.symm.trans hentry))
        rw [hother c' hne]
        refine hs.entries.settled id' c' hc' ?_
        rw [hsettling]
        simpa [hid'] using hset
    · intro id' c' hc' hset
      rw [hsettling', hsettled id' (Option.ne_none_iff_exists'.mpr ⟨c', hc'⟩)] at hset
      obtain ⟨hid', hset⟩ := Bool.or_eq_false_iff.mp hset
      have hne : c' ≠ c := by
        rintro rfl
        exact of_decide_eq_false hid' ((hs.entries.owner id' c' hc').symm.trans hid)
      rw [hother c' hne]
      exact hs.entries.unsettled id' c' hc' ((hsettling id').trans hset)
    · intro h' todo hh'
      by_cases hne : h' = h
      · subst hne
        exact htodo todo ((Function.update_self ..).symm.trans hh')
      · exact hs.entries.todo h' todo ((Function.update_of_ne hne ..).symm.trans hh')
  · by_cases hne : c' = c
    · subst hne
      have hk : { (s.setValue c' ec).setHandler h q with log := log : AckState }.calls c' =
          s.calls c' := rfl
      refine ⟨hc.tracked, hc.fetched, ?_, ?_, ?_, ?_, ?_, ?_, hc.published, hc.failed, hc.noThrow⟩
      · rw [hself, hk, ← hc.unset, hp]
        simp
      · rw [hself]
        simp
      · rw [hself]
        simp
      · rw [hself]
        refine (Function.update_self ..).trans ?_
        rw [hc.sets, hp]
        rfl
      · rw [hself]
        intro h
        obtain ⟨pre, mid, hmid⟩ := List.append_of_mem (hc.pending hp).2.2
        refine ⟨pre, mid, [], ?_⟩
        rw [hk, hid]
        simp [hok (by simpa using h), hmid]
      · intro hpc hq'
        have := hc.result hpc hq'
        simp [hp] at this
    · exact (hs.calls c').frame rfl (hother c' hne) (Function.update_of_ne hne ..)
        (fun _ h => h) hlog rfl rfl

/-- A handler in the table drops the entries that have their value. -/
theorem discard (hs : AckInv s) {entries : AList fun _ : UInt16 => ℕ}
    (hholds : (s.handlers h).holds = true)
    (hentries : ∀ id c, entries.lookup id = some c ↔
      s.pendingPubacks.lookup id = some c ∧ (s.handlers h).settled id = false) :
    AckInv { s.setHandler h .unlock with pendingPubacks := entries } := by
  have hmtx := hs.lock.handler h hholds
  have hsettling : ∀ id, s.settling id = (s.handlers h).settled id := fun id => by
    rw [AckState.settling, hmtx]
  have hsettling' : ∀ id, { s.setHandler h .unlock with
      pendingPubacks := entries : AckState }.settling id = false := fun id => by
    have hm : { s.setHandler h .unlock with
      pendingPubacks := entries : AckState }.pubackMtx = some (.handler h) := hmtx
    rw [AckState.settling, hm]
    simp [AckState.setHandler, HandlerPc.settled]
  refine ⟨?_, ?_, ?_, fun c => ?_, hs.metrics⟩
  · refine hs.lock.of_handler (h := h) (fun c => rfl) (fun h' hne => ?_) (fun _ => hmtx) (.inl rfl)
    exact Function.update_of_ne hne ..
  · exact hs.ids.frame rfl rfl rfl (fun c => rfl) fun c hc => hc
  · refine ⟨fun id c hc => hs.entries.owner id c ((hentries id c).mp hc).1, ?_, ?_, ?_⟩
    · intro id c _ hset
      rw [hsettling'] at hset
      contradiction
    · intro id c hc _
      obtain ⟨hc, hset⟩ := (hentries id c).mp hc
      exact hs.entries.unsettled id c hc ((hsettling id).trans hset)
    · intro h' todo hh'
      by_cases hne : h' = h
      · subst hne
        exact absurd ((Function.update_self ..).symm.trans hh') (by simp)
      · exact hs.entries.todo h' todo ((Function.update_of_ne hne ..).symm.trans hh')
  · refine (hs.calls c).frame rfl rfl rfl (fun hp hc => ?_) (List.prefix_refl _) rfl rfl
    refine (hentries _ c).mpr ⟨hc, Bool.eq_false_iff.mpr fun hset => ?_⟩
    obtain ⟨ec, hec⟩ := hs.entries.settled _ c hc ((hsettling _).trans hset)
    simp [hp] at hec

theorem lockHandler (hs : AckInv s) {q : HandlerPc} (hfree : s.pubackMtx = none)
    (hq : (∃ id, q = .find id) ∨ q = .failing s.pendingPubacks.keys) :
    AckInv { s.setHandler h q with pubackMtx := some (.handler h) } := by
  refine hs.handler (fun _ => rfl) (.inr (.inl hfree)) (fun id hid => ?_) ?_ (List.prefix_refl _)
  · rw [AckState.settling_of_not_handler (s := s) (by simp [hfree]), AckState.settling]
    rcases hq with ⟨id', rfl⟩ | rfl
    · simp [AckState.setHandler, HandlerPc.settled]
    · have hmem : id ∈ s.pendingPubacks.keys := by
        rwa [← AList.mem_keys, ← AList.lookup_isSome, Option.isSome_iff_ne_none]
      simp [AckState.setHandler, HandlerPc.settled, hmem]
  · rintro todo rfl
    obtain ⟨id, hid⟩ | hkeys := hq
    · simp at hid
    · obtain rfl := HandlerPc.failing.inj hkeys
      exact s.pendingPubacks.keys_nodup

theorem unlockHandler (hs : AckInv s) (hpc : s.handlers h = .unlock) :
    AckInv { s.setHandler h .idle with pubackMtx := none } := by
  have hmtx := hs.lock.handler h (by rw [hpc]; rfl)
  refine hs.handler (by simp [HandlerPc.holds]) (.inr (.inr hmtx)) (fun id _ => ?_) (by simp)
    (List.prefix_refl _)
  rw [AckState.settling_of_not_handler (by simp), AckState.settling, hmtx]
  simp [hpc, HandlerPc.settled]

/-- A handler without the lock settles nothing. -/
theorem arrive (hs : AckInv s) {q : HandlerPc} (hpc : s.handlers h = .idle)
    (hq : q.holds = false) : AckInv (s.setHandler h q) := by
  have hset : ∀ id, q.settled id = false := fun id => by
    cases q <;> first | rfl | simp [HandlerPc.holds] at hq
  change AckInv { s.setHandler h q with pubackMtx := s.pubackMtx, log := s.log }
  refine hs.handler (by simp [hq]) (.inl rfl) (fun id _ => ?_) ?_ (List.prefix_refl _)
  · refine AckState.settling_congr rfl fun h' => ?_
    by_cases hne : h' = h
    · subst hne
      simp [AckState.setHandler, hset, hpc]
      rfl
    · simp [AckState.setHandler, Function.update_of_ne hne]
  · rintro todo rfl
    simp [HandlerPc.holds] at hq

theorem hit (hs : AckInv s) (hpc : s.handlers h = .find id)
    (hentry : s.pendingPubacks.lookup id = some c) :
    AckInv { (s.setValue c .ok).setHandler h (.erase id) with log := s.log ++ [.handled id] } := by
  refine hs.setValue (by rw [hpc]; rfl) hentry (by rw [hpc]; rfl) (fun id' _ => ?_) (by simp)
    (List.prefix_append _ _) fun _ => rfl
  rw [hpc]
  exact (Bool.or_false _).symm

theorem miss (hs : AckInv s) (hpc : s.handlers h = .find id) :
    AckInv { s.setHandler h .unlock with log := s.log ++ [.handled id] } := by
  have hmtx := hs.lock.handler h (by rw [hpc]; rfl)
  refine hs.handler (m := s.pubackMtx) (fun _ => hmtx) (.inl rfl) (fun id' _ => ?_) (by simp)
    (List.prefix_append _ _)
  simp [AckState.settling, hmtx, hpc, AckState.setHandler, HandlerPc.settled]

theorem eraseEntry (hs : AckInv s) (hpc : s.handlers h = .erase id) :
    AckInv ((s.erase id).setHandler h .unlock) := by
  have hmtx := hs.lock.handler h (by rw [hpc]; rfl)
  have hsettling : ∀ id', s.settling id' = decide (id' = id) := fun id' => by
    rw [AckState.settling, hmtx]
    simp [hpc, HandlerPc.settled]
  -- the promise that goes with the entry has its value
  have hpromises : (s.erase id).promises = s.promises := by
    funext c
    by_cases hc : s.pendingPubacks.lookup id = some c
    · obtain ⟨ec, hec⟩ := hs.entries.settled id c hc (by simp [hsettling])
      exact (Pending.resolve_owner hc).trans (by rw [hec]; rfl)
    · exact Pending.resolve_of_ne hc
  have hstate : (s.erase id).setHandler h .unlock =
      { s.setHandler h .unlock with pendingPubacks := s.pendingPubacks.erase id } := by
    change { s.setHandler h .unlock with
      pendingPubacks := s.pendingPubacks.erase id, promises := (s.erase id).promises } = _
    rw [hpromises]
    rfl
  rw [hstate]
  refine hs.discard (by rw [hpc]; rfl) fun id' c => ?_
  rw [hpc]
  by_cases hid : id' = id
  · subst hid
    simp [HandlerPc.settled, AList.lookup_erase]
  · simp [HandlerPc.settled, AList.lookup_erase_ne hid, hid]

theorem failEntry (hs : AckInv s) {todo : List UInt16} (hpc : s.handlers h = .failing todo)
    (hid : id ∈ todo) (hentry : s.pendingPubacks.lookup id = some c) :
    AckInv ((s.setValue c .connectionLost).setHandler h (.failing (todo.erase id))) := by
  have hnodup := hs.entries.todo h todo hpc
  change AckInv { (s.setValue c .connectionLost).setHandler h (.failing (todo.erase id)) with
    log := s.log }
  refine hs.setValue (by rw [hpc]; rfl) hentry ?_ (fun id' _ => ?_) ?_ (List.prefix_refl _)
    (by simp)
  · rw [hpc]
    simpa [HandlerPc.settled] using hid
  · rw [hpc]
    simp only [HandlerPc.settled, hnodup.mem_erase_iff]
    by_cases h : id' = id <;> simp [h]
  · rintro todo' htodo
    obtain rfl := HandlerPc.failing.inj htodo
    exact hnodup.erase id

theorem clear (hs : AckInv s) (hpc : s.handlers h = .failing []) :
    AckInv (s.clear.setHandler h .unlock) := by
  have hmtx := hs.lock.handler h (by rw [hpc]; rfl)
  have hpromises : s.clear.promises = s.promises := by
    funext c
    by_cases hc : s.pendingPubacks.lookup (s.calls c).id = some c
    · obtain ⟨ec, hec⟩ := hs.entries.settled _ c hc (by
        rw [AckState.settling, hmtx]
        simp [hpc, HandlerPc.settled])
      exact (if_pos hc).trans (by rw [hec]; rfl)
    · exact if_neg hc
  have hstate : s.clear.setHandler h .unlock =
      { s.setHandler h .unlock with pendingPubacks := ∅ } := by
    change { s.setHandler h .unlock with
      pendingPubacks := ∅, promises := s.clear.promises } = _
    rw [hpromises]
    rfl
  rw [hstate]
  refine hs.discard (by rw [hpc]; rfl) fun id' c => ?_
  rw [hpc]
  simp [HandlerPc.settled]

theorem step (hs : AckInv s) (hfew : FewIds s l) (hstep : ackStep s l = some s') : AckInv s' := by
  cases AckStep.of_eq hstep with
  | begin c qos hpc => exact hs.begin hpc
  | move c pc hm => exact hs.moves hm
  | fetch c final hpc => exact hs.fetch hfew hpc
  | lockCall c pc hfree hpc => exact hs.lockCall hfree hpc
  | unlockCall c pc hpc => exact hs.unlockCall hpc
  | register c hpc => exact hs.register hpc
  | erase c pc hpc => exact hs.erase hpc
  | count c ec pc hpc => exact hs.count hpc
  | lockHandler h pc hfree hpc => exact hs.lockHandler hfree hpc
  | unlockHandler h hpc => exact hs.unlockHandler hpc
  | arrive h pc hidle hpc => exact hs.arrive hidle hpc
  | hit h id c hpc hentry => exact hs.hit hpc hentry
  | miss h id hpc => exact hs.miss hpc
  | eraseEntry h id hpc => exact hs.eraseEntry hpc
  | failEntry h id c todo hpc hid hentry => exact hs.failEntry hpc hid hentry
  | clear h hpc => exact hs.clear hpc

theorem init : AckInv {} := by
  refine ⟨⟨fun c h => ?_, fun h hh => ?_⟩, ⟨rfl, ?_, ?_, ?_⟩, ⟨?_, ?_, ?_, ?_⟩, fun c => ?_,
    rfl, rfl⟩
  · simp [SyncPc.holds] at h
  · simp [HandlerPc.holds] at hh
  · simp
  · simp
  · simp [SyncPc.running]
  · simp
  · simp
  · simp
  · simp
  · exact .of_fresh ⟨.inl rfl, by simp [SyncPc.tracked], by simp [SyncPc.beforeFetch], ⟨rfl, rfl⟩,
      by simp, rfl⟩ rfl rfl rfl rfl

end AckInv

/-! ## Runs -/

/-- What a call of `publish` and its acknowledgement have to do with each other. -/
structure PairsAcks (s : AckState) : Prop where
  once : ∀ c, s.setCalls c ≤ 1
  entry : s.pubackMtx = none → ∀ id c, s.pendingPubacks.lookup id = some c →
    (s.calls c).id = id ∧ (s.calls c).pc.running = true
  acked : ∀ c, (s.calls c).pc = .done .ok → 0 < (s.calls c).qos → s.Acked c
  counted : ∀ c ec, (s.calls c).pc = .done ec →
    s.published.count c = (if ec = .ok then 1 else 0) ∧
      s.failed.count c = if ec = .ok then 0 else 1
  countedOnce : ∀ c, s.published.count c + s.failed.count c ≤ 1
  refused : ∀ c, (s.calls c).pc = .refused → s.published.count c = 0 ∧ s.failed.count c = 0
  metrics : s.messagesPublished = s.published.length ∧ s.publishFailures = s.failed.length
  noThrow : ∀ c, (s.calls c).pc ≠ .threw

theorem SyncPc.published_add_failed_le (pc : SyncPc) : pc.published + pc.failed ≤ 1 := by
  cases pc with
  | done ec => by_cases hec : ec = .ok <;> simp [SyncPc.published, SyncPc.failed, hec]
  | count ec => exact Nat.zero_le 1
  | _ => decide

theorem AckInv.pairsAcks (hs : AckInv s) : PairsAcks s where
  once c := by
    rw [(hs.calls c).sets]
    cases s.promises c <;> simp [Promise.sets]
  entry hfree id c hc := by
    have hp := hs.entries.unsettled id c hc (AckState.settling_of_not_handler (by simp [hfree]))
    exact ⟨hs.entries.owner id c hc, SyncPc.running_of_live ((hs.calls c).pending hp).2.1⟩
  acked c hpc hq := (hs.calls c).acked ((hs.calls c).result (.inr hpc) hq)
  counted c ec hpc := by
    rw [(hs.calls c).published, (hs.calls c).failed, hpc]
    exact ⟨rfl, rfl⟩
  countedOnce c := by
    rw [(hs.calls c).published, (hs.calls c).failed]
    exact SyncPc.published_add_failed_le _
  refused c hpc := by
    rw [(hs.calls c).published, (hs.calls c).failed, hpc]
    exact ⟨rfl, rfl⟩
  metrics := hs.metrics
  noThrow c := (hs.calls c).noThrow

/-- Every publish is paired with its own acknowledgement, and counted once. -/
theorem publish_pairs (ls : List AckLabel) (s : AckState)
    (hexec : Runs.exec ackStep {} ls = some s) (hfew : Runs.Along ackStep FewIds {} ls) :
    PairsAcks s :=
  (Runs.invariant hexec hfew AckInv.init fun _ _ _ hs hfew hstep => hs.step hfew hstep).pairsAcks

/-- A call up to its send. -/
def sentRun (c : ℕ) : List AckLabel :=
  [.begin c 1, .check c true, .fetch c, .lock (.call c), .register c, .unlock (.call c),
    .send c true]

/-- Two calls wait at once, and the second, acknowledged first, wakes up before its entry goes. -/
def acknowledgedRun : List AckLabel :=
  sentRun 0 ++ sentRun 1 ++
    [.puback 0 2, .lock (.handler 0), .find 0, .get 1, .count 1, .eraseEntry 0,
      .unlock (.handler 0), .puback 1 1, .lock (.handler 1), .find 1, .eraseEntry 1,
      .unlock (.handler 1), .get 0, .count 0]

theorem publish_pairs_acknowledgedRun :
    ∃ s, Runs.exec ackStep {} acknowledgedRun = some s ∧ (s.calls 0).pc = .done .ok ∧
      (s.calls 1).pc = .done .ok ∧ PairsAcks s := by
  have hrun : (Runs.exec ackStep {} acknowledgedRun).map
      (fun s => ((s.calls 0).pc, (s.calls 1).pc)) = some (.done .ok, .done .ok) := by
    decide +kernel
  obtain ⟨s, hs, hpc⟩ := Option.map_eq_some_iff.mp hrun
  obtain ⟨hpc, hpc'⟩ := Prod.mk.inj hpc
  refine ⟨s, hs, hpc, hpc', publish_pairs acknowledgedRun s hs ?_⟩
  refine Runs.along_of_check (I := fun _ => True) (c := fun s _ => decide (s.allocated < 65534))
    (by decide +kernel) trivial (fun s l _ h => ?_) fun _ _ _ _ _ _ => trivial
  cases l <;> try trivial
  intro _ c' _
  have := of_decide_eq_true h
  omega

end MqttNativeSocket
