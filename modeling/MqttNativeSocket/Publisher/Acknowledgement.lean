import MqttNativeSocket.Publisher.PacketIds
import Mathlib.Data.List.AList

/-! # Synchronous publishes and their acknowledgements

`publish` on any number of threads, with `pubackMtx` as a lock: every access to
`pendingPubacks` lies between the step that takes the lock and the one that
releases it. A thread that handles a PUBACK sets the value of a promise and
erases its entry in two steps, and `failAllPending` sets the values one by one,
so that a waiting call can wake up before its entry is gone.
-/

namespace MqttNativeSocket

/-- Points of `publish`. A call between `xLock` and its release holds `pubackMtx`. -/
inductive SyncPc where
  | unborn | check
  /-- `NotConnected` was returned. -/
  | refused
  /-- The first and the second `fetch_add` of `allocPacketId`. -/
  | fetch | refetch
  | registerLock | register | registerUnlock
  | send | wait
  | failLock | failErase | failUnlock
  | timeoutLock | timeoutErase | timeoutCount | timeoutUnlock
  /-- About to count the outcome. -/
  | count (ec : ErrorCode)
  | done (ec : ErrorCode)
  /-- The future of a destroyed promise threw. -/
  | threw
  deriving DecidableEq, Repr

/-- A thread inside the PUBACK case of the receive loop, or inside `failAllPending`. -/
inductive HandlerPc where
  | idle
  | pubackLock (id : UInt16)
  | find (id : UInt16)
  /-- The value is set, the entry still there. -/
  | erase (id : UInt16)
  | failLock
  /-- The loop of `failAllPending`, with the keys not visited yet. -/
  | failing (todo : List UInt16)
  | unlock
  deriving DecidableEq, Repr

/-- Who holds `pubackMtx`. -/
inductive Party where
  | call (c : ℕ)
  | handler (h : ℕ)
  deriving DecidableEq, Repr

/-- `begunAt` and `begunFetches` are the counts at the begin of the call. -/
structure SyncCall where
  qos : ℤ := 0
  pc : SyncPc := .unborn
  id : UInt16 := 0
  fetchedAt : Option ℕ := none
  begunAt : ℕ := 0
  begunFetches : ℕ := 0
  deriving DecidableEq, Repr

inductive AckEvent where
  | registered (c : ℕ)
  /-- A PUBACK with this identifier was looked up. -/
  | handled (id : UInt16)
  deriving DecidableEq, Repr

/--
The fields from `fetches` on only record what happened: the calls of `fetch_add`, the identifiers
allocated, the calls of `set_value` on each promise, the calls that counted a success or a failure,
and the registrations and PUBACKs in their order.
-/
structure AckState where
  nextPacketId : UInt16 := 1
  pubackMtx : Option Party := none
  pendingPubacks : AList (fun _ : UInt16 => ℕ) := ∅
  promises : ℕ → Promise := fun _ => .unset
  calls : ℕ → SyncCall := fun _ => {}
  handlers : ℕ → HandlerPc := fun _ => .idle
  messagesPublished : ℕ := 0
  publishFailures : ℕ := 0
  fetches : ℕ := 0
  allocated : ℕ := 0
  setCalls : ℕ → ℕ := fun _ => 0
  published : List ℕ := []
  failed : List ℕ := []
  log : List AckEvent := []

inductive AckLabel where
  | begin (c : ℕ) (qos : ℤ)
  | check (c : ℕ) (connected : Bool)
  | fetch (c : ℕ)
  | lock (p : Party)
  | register (c : ℕ)
  | send (c : ℕ) (ok : Bool)
  | timeout (c : ℕ)
  | get (c : ℕ)
  | erase (c : ℕ)
  | count (c : ℕ)
  | unlock (p : Party)
  /-- A PUBACK comes in, or `failAllPending` is called. -/
  | puback (h : ℕ) (id : UInt16)
  | failAllPending (h : ℕ)
  | find (h : ℕ)
  | eraseEntry (h : ℕ)
  | failEntry (h : ℕ) (id : UInt16)
  | clear (h : ℕ)
  deriving DecidableEq, Repr

/-- A second `set_value` throws, and the exception is swallowed. -/
def Promise.setValue (ec : ErrorCode) : Promise → Promise
  | .pending => .fulfilled ec
  | .unset => .unset
  | .fulfilled ec' => .fulfilled ec'
  | .broken => .broken

namespace AckState

def setPc (s : AckState) (c : ℕ) (pc : SyncPc) : AckState :=
  { s with calls := Function.update s.calls c { s.calls c with pc := pc } }

def setHandler (s : AckState) (h : ℕ) (pc : HandlerPc) : AckState :=
  { s with handlers := Function.update s.handlers h pc }

def begin (s : AckState) (c : ℕ) (qos : ℤ) : AckState :=
  { s with
    calls := Function.update s.calls c
      { qos := qos, pc := .check, begunAt := s.allocated, begunFetches := s.fetches } }

/-- `nextPacketId.fetch_add(1)` by call `c`; `final` if its value is the identifier. -/
def fetch (s : AckState) (c : ℕ) (final : Bool) : AckState :=
  { s with
    calls := Function.update s.calls c { s.calls c with
      id := s.nextPacketId
      fetchedAt := some s.fetches
      pc := if final then .registerLock else .refetch }
    nextPacketId := s.nextPacketId + 1
    fetches := s.fetches + 1
    allocated := if final then s.allocated + 1 else s.allocated }

/-- `pendingPubacks[id] = std::move(prom)`. -/
def register (s : AckState) (c : ℕ) : AckState :=
  { s with
    pendingPubacks := s.pendingPubacks.insert (s.calls c).id c
    promises := Function.update
      (Pending.resolve s.pendingPubacks.lookup s.promises (s.calls c).id Promise.drop) c .pending
    log := s.log ++ [.registered c] }

/-- `pendingPubacks.erase(id)`. -/
def erase (s : AckState) (id : UInt16) : AckState :=
  { s with
    pendingPubacks := s.pendingPubacks.erase id
    promises := Pending.resolve s.pendingPubacks.lookup s.promises id Promise.drop }

/-- `set_value` on the promise of the entry at `id`, which is that of call `c`. -/
def setValue (s : AckState) (c : ℕ) (ec : ErrorCode) : AckState :=
  { s with
    promises := Function.update s.promises c ((s.promises c).setValue ec)
    setCalls := Function.update s.setCalls c (s.setCalls c + 1) }

/-- `pendingPubacks.clear()`; an entry only ever stands at its owner's identifier. -/
def clear (s : AckState) : AckState :=
  { s with
    pendingPubacks := ∅
    promises := fun c =>
      if s.pendingPubacks.lookup (s.calls c).id = some c then (s.promises c).drop
      else s.promises c }

/-- `recordPublished` or `recordPublishFail`. -/
def record (s : AckState) (c : ℕ) (ec : ErrorCode) : AckState :=
  if ec = .ok then
    { s with messagesPublished := s.messagesPublished + 1, published := c :: s.published }
  else { s with publishFailures := s.publishFailures + 1, failed := c :: s.failed }

end AckState

/-- Where a call goes with `pubackMtx` taken. -/
def SyncPc.locked : SyncPc → Option SyncPc
  | .registerLock => some .register
  | .failLock => some .failErase
  | .timeoutLock => some .timeoutErase
  | _ => none

/-- Where a call goes with `pubackMtx` released. -/
def SyncPc.unlocked : SyncPc → Option SyncPc
  | .registerUnlock => some .send
  | .failUnlock => some (.count .publishFailed)
  | .timeoutUnlock => some (.done .publishTimeout)
  | _ => none

/-- Where `publish` goes after `sendAll`. -/
def SyncPc.afterSend (qos : ℤ) (ok : Bool) : SyncPc :=
  if 0 < qos then (if ok then .wait else .failLock)
  else .count (if ok then .ok else .publishFailed)

def ackStep (s : AckState) : AckLabel → Option AckState
  | .begin c qos =>
    if (s.calls c).pc = .unborn then
      some (s.begin c qos)
    else none
  | .check c connected =>
    if (s.calls c).pc = .check then
      some (s.setPc c
        (if connected then if 0 < (s.calls c).qos then .fetch else .send else .refused))
    else none
  | .fetch c =>
    if (s.calls c).pc = .fetch then some (s.fetch c (s.nextPacketId ≠ 0))
    else if (s.calls c).pc = .refetch then some (s.fetch c true)
    else none
  | .lock (.call c) =>
    if s.pubackMtx = none then
      (s.calls c).pc.locked.map fun pc => { s.setPc c pc with pubackMtx := some (.call c) }
    else none
  | .lock (.handler h) =>
    if s.pubackMtx = none then
      match s.handlers h with
      | .pubackLock id => some { s.setHandler h (.find id) with pubackMtx := some (.handler h) }
      | .failLock =>
        some { s.setHandler h (.failing s.pendingPubacks.keys) with
          pubackMtx := some (.handler h) }
      | .idle | .find _ | .erase _ | .failing _ | .unlock => none
    else none
  | .register c =>
    if (s.calls c).pc = .register then some ((s.register c).setPc c .registerUnlock) else none
  | .send c ok =>
    if (s.calls c).pc = .send then some (s.setPc c (.afterSend (s.calls c).qos ok)) else none
  | .timeout c =>
    if (s.calls c).pc = .wait ∧ s.promises c = .pending then some (s.setPc c .timeoutLock)
    else none
  | .get c =>
    if (s.calls c).pc = .wait then
      (s.promises c).get.map fun r => s.setPc c (r.elim .threw .count)
    else none
  | .erase c =>
    if (s.calls c).pc = .failErase then some ((s.erase (s.calls c).id).setPc c .failUnlock)
    else if (s.calls c).pc = .timeoutErase then
      some ((s.erase (s.calls c).id).setPc c .timeoutCount)
    else none
  | .count c =>
    match (s.calls c).pc with
    | .count ec => some ((s.record c ec).setPc c (.done ec))
    -- the failure is counted before the end of the scope releases the lock
    | .timeoutCount => some ((s.record c .publishTimeout).setPc c .timeoutUnlock)
    | _ => none
  | .unlock (.call c) =>
    (s.calls c).pc.unlocked.map fun pc => { s.setPc c pc with pubackMtx := none }
  | .unlock (.handler h) =>
    if s.handlers h = .unlock then some { s.setHandler h .idle with pubackMtx := none } else none
  | .puback h id => if s.handlers h = .idle then some (s.setHandler h (.pubackLock id)) else none
  | .failAllPending h => if s.handlers h = .idle then some (s.setHandler h .failLock) else none
  | .find h =>
    match s.handlers h with
    | .find id =>
      match s.pendingPubacks.lookup id with
      | some c =>
        some { (s.setValue c .ok).setHandler h (.erase id) with log := s.log ++ [.handled id] }
      | none => some { s.setHandler h .unlock with log := s.log ++ [.handled id] }
    | _ => none
  | .eraseEntry h =>
    match s.handlers h with
    | .erase id => some ((s.erase id).setHandler h .unlock)
    | _ => none
  | .failEntry h id =>
    match s.handlers h with
    | .failing todo =>
      if id ∈ todo then
        (s.pendingPubacks.lookup id).map fun c =>
          (s.setValue c .connectionLost).setHandler h (.failing (todo.erase id))
      else none
    | _ => none
  | .clear h => if s.handlers h = .failing [] then some (s.clear.setHandler h .unlock) else none

/-! ## What a step can do -/

/-- The points at which a call holds `pubackMtx`. -/
def SyncPc.holds : SyncPc → Bool
  | .register => true
  | .registerUnlock => true
  | .failErase => true
  | .failUnlock => true
  | .timeoutErase => true
  | .timeoutCount => true
  | .timeoutUnlock => true
  | _ => false

def HandlerPc.holds : HandlerPc → Bool
  | .find _ => true
  | .erase _ => true
  | .failing _ => true
  | .unlock => true
  | .idle => false
  | .pubackLock _ => false
  | .failLock => false

/-- The call has returned, or an exception has left it. -/
def SyncPc.returned : SyncPc → Bool
  | .refused => true
  | .done _ => true
  | .threw => true
  | _ => false

/-- A call under way. -/
def SyncPc.running (pc : SyncPc) : Bool := decide (pc ≠ .unborn) && !pc.returned

/-- A move of a call that touches nothing but its own point. -/
inductive SyncCall.Moves (k : SyncCall) (p : Promise) : SyncPc → Prop where

  | check (connected : Bool) : k.pc = .check →
      Moves k p (if connected then if 0 < k.qos then .fetch else .send else .refused)

  | send (ok : Bool) : k.pc = .send → Moves k p (.afterSend k.qos ok)

  | timeout : k.pc = .wait → p = .pending → Moves k p .timeoutLock

  | get (r : Option ErrorCode) : k.pc = .wait → p.get = some r → Moves k p (r.elim .threw .count)

/-- What each event asks of the state, and what it makes of it. -/
inductive AckStep (s : AckState) : AckLabel → AckState → Prop where

  | begin (c : ℕ) (qos : ℤ) : (s.calls c).pc = .unborn → AckStep s (.begin c qos) (s.begin c qos)

  | move {l : AckLabel} (c : ℕ) (pc : SyncPc) : (s.calls c).Moves (s.promises c) pc →
      AckStep s l (s.setPc c pc)

  | fetch (c : ℕ) (final : Bool) :
      (s.calls c).pc = .fetch ∧ final = decide (s.nextPacketId ≠ 0) ∨
        (s.calls c).pc = .refetch ∧ final = true →
      AckStep s (.fetch c) (s.fetch c final)

  | lockCall (c : ℕ) (pc : SyncPc) : s.pubackMtx = none → (s.calls c).pc.locked = some pc →
      AckStep s (.lock (.call c)) { s.setPc c pc with pubackMtx := some (.call c) }

  | unlockCall (c : ℕ) (pc : SyncPc) : (s.calls c).pc.unlocked = some pc →
      AckStep s (.unlock (.call c)) { s.setPc c pc with pubackMtx := none }

  | register (c : ℕ) : (s.calls c).pc = .register →
      AckStep s (.register c) ((s.register c).setPc c .registerUnlock)

  | erase (c : ℕ) (pc : SyncPc) :
      (s.calls c).pc = .failErase ∧ pc = .failUnlock ∨
        (s.calls c).pc = .timeoutErase ∧ pc = .timeoutCount →
      AckStep s (.erase c) ((s.erase (s.calls c).id).setPc c pc)

  | count (c : ℕ) (ec : ErrorCode) (pc : SyncPc) :
      (s.calls c).pc = .count ec ∧ pc = .done ec ∨
        (s.calls c).pc = .timeoutCount ∧ ec = .publishTimeout ∧ pc = .timeoutUnlock →
      AckStep s (.count c) ((s.record c ec).setPc c pc)

  | lockHandler (h : ℕ) (pc : HandlerPc) : s.pubackMtx = none →
      (∃ id, pc = .find id) ∨ pc = .failing s.pendingPubacks.keys →
      AckStep s (.lock (.handler h)) { s.setHandler h pc with pubackMtx := some (.handler h) }

  | unlockHandler (h : ℕ) : s.handlers h = .unlock →
      AckStep s (.unlock (.handler h)) { s.setHandler h .idle with pubackMtx := none }

  | arrive {l : AckLabel} (h : ℕ) (pc : HandlerPc) : s.handlers h = .idle → pc.holds = false →
      AckStep s l (s.setHandler h pc)

  | hit (h : ℕ) (id : UInt16) (c : ℕ) : s.handlers h = .find id →
      s.pendingPubacks.lookup id = some c →
      AckStep s (.find h)
        { (s.setValue c .ok).setHandler h (.erase id) with log := s.log ++ [.handled id] }

  | miss (h : ℕ) (id : UInt16) : s.handlers h = .find id →
      AckStep s (.find h) { s.setHandler h .unlock with log := s.log ++ [.handled id] }

  | eraseEntry (h : ℕ) (id : UInt16) : s.handlers h = .erase id →
      AckStep s (.eraseEntry h) ((s.erase id).setHandler h .unlock)

  | failEntry (h : ℕ) (id : UInt16) (c : ℕ) (todo : List UInt16) : s.handlers h = .failing todo →
      id ∈ todo → s.pendingPubacks.lookup id = some c →
      AckStep s (.failEntry h id)
        ((s.setValue c .connectionLost).setHandler h (.failing (todo.erase id)))

  | clear (h : ℕ) : s.handlers h = .failing [] → AckStep s (.clear h) (s.clear.setHandler h .unlock)

variable {s s' : AckState} {c c' h : ℕ} {id : UInt16} {l : AckLabel}

theorem AckStep.of_eq (hstep : ackStep s l = some s') : AckStep s l s' := by
  cases l with
  | begin c qos =>
    simp only [ackStep, Option.ite_none_right_eq_some, Option.some.injEq] at hstep
    obtain ⟨hpc, rfl⟩ := hstep
    exact .begin c qos hpc
  | check c connected =>
    simp only [ackStep, Option.ite_none_right_eq_some, Option.some.injEq] at hstep
    obtain ⟨hpc, rfl⟩ := hstep
    exact .move c _ (.check connected hpc)
  | fetch c =>
    simp only [ackStep] at hstep
    split at hstep
    · next hpc =>
      obtain rfl := Option.some.inj hstep
      exact .fetch c _ (.inl ⟨hpc, rfl⟩)
    · simp only [Option.ite_none_right_eq_some, Option.some.injEq] at hstep
      obtain ⟨hpc, rfl⟩ := hstep
      exact .fetch c _ (.inr ⟨hpc, rfl⟩)
  | lock p =>
    cases p with
    | call c =>
      simp only [ackStep, Option.ite_none_right_eq_some, Option.map_eq_some_iff] at hstep
      obtain ⟨hfree, pc, hpc, rfl⟩ := hstep
      exact .lockCall c pc hfree hpc
    | handler h =>
      simp only [ackStep, Option.ite_none_right_eq_some] at hstep
      obtain ⟨hfree, hstep⟩ := hstep
      split at hstep
      · obtain rfl := Option.some.inj hstep
        exact .lockHandler h _ hfree (.inl ⟨_, rfl⟩)
      · obtain rfl := Option.some.inj hstep
        exact .lockHandler h _ hfree (.inr rfl)
      all_goals simp at hstep
  | register c =>
    simp only [ackStep, Option.ite_none_right_eq_some, Option.some.injEq] at hstep
    obtain ⟨hpc, rfl⟩ := hstep
    exact .register c hpc
  | send c ok =>
    simp only [ackStep, Option.ite_none_right_eq_some, Option.some.injEq] at hstep
    obtain ⟨hpc, rfl⟩ := hstep
    exact .move c _ (.send ok hpc)
  | timeout c =>
    simp only [ackStep, Option.ite_none_right_eq_some, Option.some.injEq] at hstep
    obtain ⟨⟨hpc, hp⟩, rfl⟩ := hstep
    exact .move c _ (.timeout hpc hp)
  | get c =>
    simp only [ackStep, Option.ite_none_right_eq_some, Option.map_eq_some_iff] at hstep
    obtain ⟨hpc, r, hr, rfl⟩ := hstep
    exact .move c _ (.get r hpc hr)
  | erase c =>
    simp only [ackStep] at hstep
    split at hstep
    · next hpc =>
      obtain rfl := Option.some.inj hstep
      exact .erase c _ (.inl ⟨hpc, rfl⟩)
    · simp only [Option.ite_none_right_eq_some, Option.some.injEq] at hstep
      obtain ⟨hpc, rfl⟩ := hstep
      exact .erase c _ (.inr ⟨hpc, rfl⟩)
  | count c =>
    simp only [ackStep] at hstep
    split at hstep
    · next ec hpc =>
      obtain rfl := Option.some.inj hstep
      exact .count c ec _ (.inl ⟨hpc, rfl⟩)
    · next hpc =>
      obtain rfl := Option.some.inj hstep
      exact .count c _ _ (.inr ⟨hpc, rfl, rfl⟩)
    · simp at hstep
  | unlock p =>
    cases p with
    | call c =>
      simp only [ackStep, Option.map_eq_some_iff] at hstep
      obtain ⟨pc, hpc, rfl⟩ := hstep
      exact .unlockCall c pc hpc
    | handler h =>
      simp only [ackStep, Option.ite_none_right_eq_some, Option.some.injEq] at hstep
      obtain ⟨hpc, rfl⟩ := hstep
      exact .unlockHandler h hpc
  | puback h id =>
    simp only [ackStep, Option.ite_none_right_eq_some, Option.some.injEq] at hstep
    obtain ⟨hpc, rfl⟩ := hstep
    exact .arrive h _ hpc rfl
  | failAllPending h =>
    simp only [ackStep, Option.ite_none_right_eq_some, Option.some.injEq] at hstep
    obtain ⟨hpc, rfl⟩ := hstep
    exact .arrive h _ hpc rfl
  | find h =>
    simp only [ackStep] at hstep
    split at hstep
    · next id hpc =>
      split at hstep
      · next c hc =>
        obtain rfl := Option.some.inj hstep
        exact .hit h id c hpc hc
      · obtain rfl := Option.some.inj hstep
        exact .miss h id hpc
    · simp at hstep
  | eraseEntry h =>
    simp only [ackStep] at hstep
    split at hstep
    · next id hpc =>
      obtain rfl := Option.some.inj hstep
      exact .eraseEntry h id hpc
    · simp at hstep
  | failEntry h id =>
    simp only [ackStep] at hstep
    split at hstep
    · next todo hpc =>
      simp only [Option.ite_none_right_eq_some, Option.map_eq_some_iff] at hstep
      obtain ⟨hid, c, hc, rfl⟩ := hstep
      exact .failEntry h id c todo hpc hid hc
    · simp at hstep
  | clear h =>
    simp only [ackStep, Option.ite_none_right_eq_some, Option.some.injEq] at hstep
    obtain ⟨hpc, rfl⟩ := hstep
    exact .clear h hpc

end MqttNativeSocket
