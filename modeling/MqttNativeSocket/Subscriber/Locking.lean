import MqttNativeSocket.Client.Threads
import MqttNativeSocket.Foundations.Locks
import MqttNativeSocket.Foundations.Runs

/-! # The subscriber's locks

`sendMtx`, `ackMtx` and `subsMtx` as the threads of a subscriber take and release
them: user threads in `subscribe`, `unsubscribe`, `connect` and `disconnect`, the
receive loop, the keepalive thread and the reconnect worker. What is done under a
lock is left out; whether a send succeeds, an answer comes in time or the broker
accepts is a choice of the step.
-/

namespace MqttNativeSocket

open Locks

inductive SubscriberLock where
  | sendMtx | ackMtx | subsMtx
  deriving DecidableEq, Repr

inductive RequestOp where
  | subscribe | unsubscribe
  deriving DecidableEq, Repr

/-- Points of `subscribe` and `unsubscribe`: `xLock` is where the lock for `x` is asked for. -/
inductive RequestPc where
  | tableLock | table | check | registerLock | register | sendLock | sending
  | failAckLock | failSubsLock | failSubs | failAck | failSend
  | await | timeoutLock | timeout | rejectLock | reject
  deriving DecidableEq, Repr

inductive DispatchPc where
  | qos | ackLock | ack | findLock | find
  deriving DecidableEq, Repr

/-- Points of `connect`; `resub` is the head of the loop of `resubscribeAll`. -/
inductive ConnectLockPc where
  | sendLock | sending | handshake | resubLock
  | resub (entries : ℕ)
  | resubSending (entries : ℕ)
  deriving DecidableEq, Repr

/-- Code that takes one lock and gives it back. -/
inductive Critical where
  /-- A SUBACK or an UNSUBACK. -/
  | settle
  | failAllAcks | ping | disconnect | registerFallback
  deriving DecidableEq, Repr

def Critical.lock : Critical → SubscriberLock
  | .settle => .ackMtx
  | .failAllAcks => .ackMtx
  | .ping => .sendMtx
  | .disconnect => .sendMtx
  | .registerFallback => .subsMtx

inductive LockPc where
  | idle
  | request (op : RequestOp) (p : RequestPc)
  | dispatch (p : DispatchPc)
  | connect (p : ConnectLockPc)
  | critical (c : Critical) (inside : Bool)
  deriving DecidableEq, Repr

inductive LockCall where
  | request (op : RequestOp)
  | dispatchPublish
  | connect
  | critical (c : Critical)
  deriving DecidableEq, Repr

inductive LockChoice where
  | go | yes | no | rejected
  | entries (n : ℕ)
  | call (c : LockCall)
  deriving DecidableEq, Repr

/-! ## Programs -/

def requestLocks (op : RequestOp) :
    RequestPc → LockChoice → Option (Op SubscriberLock × LockPc)
  | .tableLock, .go => some (.lock .subsMtx .exclusive, .request op .table)
  | .table, .go => some (.unlock .subsMtx, .request op .check)
  | .check, .yes => some (.skip, .request op .registerLock)
  | .check, .no => some (.skip, .idle)
  | .registerLock, .go => some (.lock .ackMtx .exclusive, .request op .register)
  | .register, .go => some (.unlock .ackMtx, .request op .sendLock)
  | .sendLock, .go => some (.lock .sendMtx .exclusive, .request op .sending)
  | .sending, .yes => some (.unlock .sendMtx, .request op .await)
  -- the send failed: `sendMtx` is kept to the end of the scope
  | .sending, .no => some (.skip, .request op .failAckLock)
  | .failAckLock, .go =>
    some (.lock .ackMtx .exclusive,
      .request op (if op = .subscribe then .failSubsLock else .failAck))
  | .failSubsLock, .go => some (.lock .subsMtx .exclusive, .request op .failSubs)
  | .failSubs, .go => some (.unlock .subsMtx, .request op .failAck)
  | .failAck, .go => some (.unlock .ackMtx, .request op .failSend)
  | .failSend, .go => some (.unlock .sendMtx, .idle)
  | .await, .yes => some (.skip, .idle)
  | .await, .no => some (.skip, .request op .timeoutLock)
  | .await, .rejected =>
    if op = .subscribe then some (.skip, .request op .rejectLock) else none
  | .timeoutLock, .go => some (.lock .ackMtx .exclusive, .request op .timeout)
  | .timeout, .go => some (.unlock .ackMtx, .idle)
  | .rejectLock, .go => some (.lock .subsMtx .exclusive, .request op .reject)
  | .reject, .go => some (.unlock .subsMtx, .idle)
  | _, _ => none

/-- `dispatchPublish`; the callback runs afterwards, with no lock held. -/
def dispatchLocks : DispatchPc → LockChoice → Option (Op SubscriberLock × LockPc)
  | .qos, .yes => some (.skip, .dispatch .ackLock)
  | .qos, .no => some (.skip, .dispatch .findLock)
  | .ackLock, .go => some (.lock .sendMtx .exclusive, .dispatch .ack)
  | .ack, .go => some (.unlock .sendMtx, .dispatch .findLock)
  | .findLock, .go => some (.lock .subsMtx .shared, .dispatch .find)
  | .find, .go => some (.unlock .subsMtx, .idle)
  | _, _ => none

/-- `connect` with `resubscribeAll`, which keeps `subsMtx` over all its sends. -/
def connectLocks : ConnectLockPc → LockChoice → Option (Op SubscriberLock × LockPc)
  | .sendLock, .go => some (.lock .sendMtx .exclusive, .connect .sending)
  | .sending, .yes => some (.unlock .sendMtx, .connect .handshake)
  | .sending, .no => some (.unlock .sendMtx, .idle)
  | .handshake, .yes => some (.skip, .connect .resubLock)
  | .handshake, .no => some (.skip, .idle)
  | .resubLock, .entries n => some (.lock .subsMtx .shared, .connect (.resub n))
  | .resub 0, .go => some (.unlock .subsMtx, .idle)
  | .resub (n + 1), .go => some (.lock .sendMtx .exclusive, .connect (.resubSending n))
  | .resubSending n, .go => some (.unlock .sendMtx, .connect (.resub n))
  | _, _ => none

def LockCall.entry : LockCall → LockPc
  | .request op => .request op .tableLock
  | .dispatchPublish => .dispatch .qos
  | .connect => .connect .sendLock
  | .critical c => .critical c false

def lockNext : LockPc → LockChoice → Option (Op SubscriberLock × LockPc)
  | .idle, .call c => some (.skip, c.entry)
  | .request op p, ch => requestLocks op p ch
  | .dispatch p, ch => dispatchLocks p ch
  | .connect p, ch => connectLocks p ch
  | .critical c false, .go => some (.lock c.lock .exclusive, .critical c true)
  | .critical c true, .go => some (.unlock c.lock, .idle)
  | _, _ => none

/-! ## What is held where -/

def holding (send ack subs : Option Mode) : SubscriberLock → Option Mode
  | .sendMtx => send
  | .ackMtx => ack
  | .subsMtx => subs

def RequestPc.holds : RequestPc → SubscriberLock → Option Mode
  | .tableLock => holding none none none
  | .table => holding none none (some .exclusive)
  | .check => holding none none none
  | .registerLock => holding none none none
  | .register => holding none (some .exclusive) none
  | .sendLock => holding none none none
  | .sending => holding (some .exclusive) none none
  | .failAckLock => holding (some .exclusive) none none
  | .failSubsLock => holding (some .exclusive) (some .exclusive) none
  | .failSubs => holding (some .exclusive) (some .exclusive) (some .exclusive)
  | .failAck => holding (some .exclusive) (some .exclusive) none
  | .failSend => holding (some .exclusive) none none
  | .await => holding none none none
  | .timeoutLock => holding none none none
  | .timeout => holding none (some .exclusive) none
  | .rejectLock => holding none none none
  | .reject => holding none none (some .exclusive)

def DispatchPc.holds : DispatchPc → SubscriberLock → Option Mode
  | .qos => holding none none none
  | .ackLock => holding none none none
  | .ack => holding (some .exclusive) none none
  | .findLock => holding none none none
  | .find => holding none none (some .shared)

def ConnectLockPc.holds : ConnectLockPc → SubscriberLock → Option Mode
  | .sendLock => holding none none none
  | .sending => holding (some .exclusive) none none
  | .handshake => holding none none none
  | .resubLock => holding none none none
  | .resub _ => holding none none (some .shared)
  | .resubSending _ => holding (some .exclusive) none (some .shared)

def LockPc.holds : LockPc → SubscriberLock → Option Mode
  | .idle => holding none none none
  | .request _ p => p.holds
  | .dispatch p => p.holds
  | .connect p => p.holds
  | .critical c inside =>
    if inside then Function.update (holding none none none) c.lock (some .exclusive)
    else holding none none none

variable {p q : LockPc} {ch : LockChoice} {op : Op SubscriberLock} {ℓ ℓ' : SubscriberLock}
  {m : Mode}

theorem holding_ext {f g : SubscriberLock → Option Mode} (hsend : f .sendMtx = g .sendMtx)
    (hack : f .ackMtx = g .ackMtx) (hsubs : f .subsMtx = g .subsMtx) : f = g := by
  funext ℓ
  cases ℓ with
  | sendMtx => exact hsend
  | ackMtx => exact hack
  | subsMtx => exact hsubs

theorem LockCall.entry_holds (c : LockCall) :
    c.entry.holds = LockProgram.after .skip LockPc.idle.holds := by
  cases c <;> rfl

theorem Critical.unlock_holds (c : Critical) :
    LockPc.idle.holds = LockProgram.after (.unlock c.lock) (LockPc.critical c true).holds := by
  cases c <;> exact holding_ext rfl rfl rfl

theorem lockNext_holds (h : lockNext p ch = some (op, q)) :
    q.holds = LockProgram.after op p.holds := by
  unfold lockNext requestLocks dispatchLocks connectLocks at h
  repeat' split at h
  all_goals simp only [reduceCtorEq, Option.some.injEq, Prod.mk.injEq] at h
  all_goals
    obtain ⟨rfl, rfl⟩ := h
    first
    | exact holding_ext rfl rfl rfl
    | exact LockCall.entry_holds _
    | exact Critical.unlock_holds _

/-- The program of a subscriber's threads. -/
def subscriberLocks : LockProgram LockPc LockChoice SubscriberLock :=
  .ofAfter lockNext LockPc.holds lockNext_holds

/-- What a thread calls: an API function from a user thread or a callback, its own work else. -/
def mayCall : Tid → LockCall → Bool
  | .user _, .request _ => true
  | .user _, .connect => true
  | .user _, .critical .disconnect => true
  | .user _, .critical .registerFallback => true
  | .recv _, .request _ => true
  | .recv _, .dispatchPublish => true
  | .recv _, .critical .settle => true
  | .recv _, .critical .failAllAcks => true
  | .recv _, .critical .disconnect => true
  | .recv _, .critical .registerFallback => true
  | .keepalive _, .critical .ping => true
  | .worker _, .connect => true
  | _, _ => false

abbrev LockState := Locks.State Tid LockPc SubscriberLock

def LockState.initial : LockState := ⟨fun _ => .idle, fun _ => .free⟩

/-- One step of one thread. -/
def lockStep (s : LockState) (l : Tid × LockChoice) : Option LockState :=
  match l.2 with
  | .call c => if mayCall l.1 c then Locks.step subscriberLocks s l else none
  | .go => Locks.step subscriberLocks s l
  | .yes => Locks.step subscriberLocks s l
  | .no => Locks.step subscriberLocks s l
  | .rejected => Locks.step subscriberLocks s l
  | .entries _ => Locks.step subscriberLocks s l

theorem lockStep_step {s s' : LockState} {l : Tid × LockChoice} (h : lockStep s l = some s') :
    Locks.step subscriberLocks s l = some s' := by
  rw [lockStep] at h
  split at h
  · split at h
    · exact h
    · simp at h
  all_goals exact h

theorem agrees_initial : Agrees subscriberLocks LockState.initial := by
  intro t ℓ
  cases ℓ <;> rfl

/-! ## Cycles -/

/-- A `subscribe` whose send has failed asks for `subsMtx`. -/
def LockPc.failing (p : LockPc) : Prop := ∃ op, p = .request op .failSubsLock

/-- `resubscribeAll` asks for `sendMtx` for one more entry. -/
def LockPc.resubscribing (p : LockPc) : Prop := ∃ n, p = .connect (.resub (n + 1))

/-- All locks are asked for in this order, except in `resubscribeAll`. -/
def SubscriberLock.rank : SubscriberLock → ℕ
  | .sendMtx => 0
  | .ackMtx => 1
  | .subsMtx => 2

theorem wants_cases (h : Wants subscriberLocks p ℓ m) :
    p.holds = holding none none none ∨
      (∃ op, p = .request op .failAckLock ∧ ℓ = .ackMtx) ∨
      (∃ op, p = .request op .failSubsLock ∧ ℓ = .subsMtx) ∨
      (∃ n, p = .connect (.resub (n + 1)) ∧ ℓ = .sendMtx) := by
  obtain ⟨ch, q, h⟩ := h
  change lockNext p ch = some (.lock ℓ m, q) at h
  unfold lockNext requestLocks dispatchLocks connectLocks at h
  repeat' split at h
  all_goals simp only [reduceCtorEq, Option.some.injEq, Prod.mk.injEq, Op.lock.injEq,
    false_and] at h
  all_goals
    obtain ⟨⟨rfl, rfl⟩, rfl⟩ := h
    first
    | exact .inl rfl
    | exact .inr (.inl ⟨_, rfl, rfl⟩)
    | exact .inr (.inr (.inl ⟨_, rfl, rfl⟩))
    | exact .inr (.inr (.inr ⟨_, rfl, rfl⟩))

variable {s s' : LockState} {t t' : Tid}

/-- Only `resubscribeAll` asks for a lock before one it holds. -/
theorem resubscribing_of_unordered (h : Wants subscriberLocks p ℓ m) (hh : p.holds ℓ' ≠ none)
    (hle : ℓ.rank ≤ ℓ'.rank) : p.resubscribing := by
  rcases wants_cases h with hfree | ⟨op, rfl, rfl⟩ | ⟨op, rfl, rfl⟩ | ⟨n, rfl, rfl⟩
  · rw [hfree] at hh
    cases ℓ' <;> exact absurd rfl hh
  · cases ℓ' with
    | sendMtx => simp [SubscriberLock.rank] at hle
    | ackMtx => exact absurd rfl hh
    | subsMtx => exact absurd rfl hh
  · cases ℓ' with
    | sendMtx => simp [SubscriberLock.rank] at hle
    | ackMtx => simp [SubscriberLock.rank] at hle
    | subsMtx => exact absurd rfl hh
  · exact ⟨n, rfl⟩

theorem sendMtx_of_resubscribing (hp : p.resubscribing) (h : Wants subscriberLocks p ℓ m) :
    ℓ = .sendMtx := by
  obtain ⟨n, rfl⟩ := hp
  rcases wants_cases h with hfree | ⟨op, hpc, -⟩ | ⟨op, hpc, -⟩ | ⟨k, -, hℓ⟩
  · exact absurd (congrFun hfree .subsMtx) (by simp [LockPc.holds, ConnectLockPc.holds, holding])
  · simp at hpc
  · simp at hpc
  · exact hℓ

/-- A thread that holds `sendMtx` and asks for a lock is on an error path. -/
theorem failing_or_ack_of_sendMtx (h : Wants subscriberLocks p ℓ m)
    (hh : p.holds .sendMtx = some .exclusive) :
    (∃ op, p = .request op .failAckLock) ∧ ℓ = .ackMtx ∨ p.failing := by
  rcases wants_cases h with hfree | ⟨op, rfl, rfl⟩ | ⟨op, rfl, rfl⟩ | ⟨n, rfl, rfl⟩
  · rw [hfree] at hh
    cases hh
  · exact .inl ⟨⟨op, rfl⟩, rfl⟩
  · exact .inr ⟨op, rfl⟩
  · cases hh

/-- A thread that holds `ackMtx` and asks for a lock asks for `subsMtx`. -/
theorem failing_of_ackMtx (h : Wants subscriberLocks p ℓ m) (hh : p.holds .ackMtx ≠ none) :
    p.failing := by
  rcases wants_cases h with hfree | ⟨op, rfl, rfl⟩ | ⟨op, rfl, rfl⟩ | ⟨n, rfl, rfl⟩
  · rw [hfree] at hh
    exact absurd rfl hh
  · exact absurd rfl hh
  · exact ⟨op, rfl⟩
  · exact absurd rfl hh

theorem sendMtx_exclusive (p : LockPc) :
    p.holds .sendMtx = none ∨ p.holds .sendMtx = some .exclusive := by
  cases p with
  | idle => exact .inl rfl
  | request op p => cases p <;> simp [LockPc.holds, RequestPc.holds, holding]
  | dispatch p => cases p <;> simp [LockPc.holds, DispatchPc.holds, holding]
  | connect p => cases p <;> simp [LockPc.holds, ConnectLockPc.holds, holding]
  | critical c inside => cases c <;> cases inside <;> simp [LockPc.holds, holding, Critical.lock]

theorem LockPc.failing.holds (h : p.failing) :
    p.holds = holding (some .exclusive) (some .exclusive) none := by
  obtain ⟨op, rfl⟩ := h
  rfl

/-- A thread on a cycle waits for a thread on a cycle. -/
theorem cycle_next (h : Relation.TransGen (WaitsFor subscriberLocks s) t t) :
    ∃ t', WaitsFor subscriberLocks s t t' ∧
      Relation.TransGen (WaitsFor subscriberLocks s) t' t' := by
  obtain ⟨t', hedge, hback⟩ := Relation.TransGen.head'_iff.mp h
  exact ⟨t', hedge, Relation.TransGen.tail' hback hedge⟩

/-- The holder of `sendMtx` on a cycle is a `subscribe` that asks for `subsMtx`. -/
theorem failing_of_cycle (hs : Agrees subscriberLocks s)
    (h : Relation.TransGen (WaitsFor subscriberLocks s) t t)
    (hh : (s.pc t).holds .sendMtx = some .exclusive) : (s.pc t).failing := by
  obtain ⟨u, ⟨ℓ, m, m', hw, hheld, -⟩, hu⟩ := cycle_next h
  rcases failing_or_ack_of_sendMtx hw hh with ⟨⟨op, hpc⟩, rfl⟩ | hfail
  · -- the holder of `ackMtx` would hold `sendMtx` too
    rw [hs] at hheld
    obtain ⟨w, ⟨ℓ', k, k', hw', -, -⟩, -⟩ := cycle_next hu
    have hfail := failing_of_ackMtx hw' (by rw [show (s.pc u).holds .ackMtx = _ from hheld]; simp)
    have heq : t = u := hs.eq_of_holds hh
      (show subscriberLocks.holds (s.pc u) .sendMtx = some .exclusive by
        change (s.pc u).holds .sendMtx = _
        rw [hfail.holds]
        rfl)
      (.inl rfl)
    subst heq
    obtain ⟨op', hpc'⟩ := hfail
    simp [hpc] at hpc'
  · exact hfail

/-- The only cycle: a failed `subscribe` and a `resubscribeAll` that wait for each other. -/
theorem deadlocked_iff (hs : Agrees subscriberLocks s) :
    Deadlocked subscriberLocks s ↔
      (∃ t, (s.pc t).failing) ∧ ∃ t, (s.pc t).resubscribing := by
  constructor
  · rintro ⟨t, h⟩
    obtain ⟨u, ℓ, m, ℓ', hu, hw, hh, hle⟩ := exists_unordered SubscriberLock.rank hs h
    have hresub := resubscribing_of_unordered hw hh hle
    obtain ⟨v, ⟨ℓ₁, m₁, m', hw', hheld, -⟩, hv⟩ := cycle_next hu
    obtain rfl := sendMtx_of_resubscribing hresub hw'
    rw [hs] at hheld
    refine ⟨⟨v, failing_of_cycle hs hv ?_⟩, ⟨u, hresub⟩⟩
    rcases sendMtx_exclusive (s.pc v) with hnone | hex
    · rw [show (s.pc v).holds .sendMtx = _ from hheld] at hnone
      simp at hnone
    · exact hex
  · rintro ⟨⟨t, op, ht⟩, ⟨t', n, ht'⟩⟩
    have hedge : WaitsFor subscriberLocks s t t' := by
      refine ⟨.subsMtx, .exclusive, .shared, ⟨.go, .request op .failSubs, ?_⟩, ?_, .inl rfl⟩
      · rw [ht]; rfl
      · rw [hs, ht']; rfl
    have hedge' : WaitsFor subscriberLocks s t' t := by
      refine ⟨.sendMtx, .exclusive, .exclusive, ⟨.go, .connect (.resubSending n), ?_⟩, ?_, .inl rfl⟩
      · rw [ht']; rfl
      · rw [hs, ht]; rfl
    exact ⟨t, .tail (.single hedge) hedge'⟩

/-! ## Runs -/

/--
A `subscribe` whose send has failed takes `ackMtx`, on its way to `subsMtx`, only while no
`resubscribeAll` has an entry left to send; and `resubscribeAll` takes `subsMtx` for a table with
entries only while no such `subscribe` asks for it.
-/
def KeepsOrder (s : LockState) (l : Tid × LockChoice) : Prop :=
  (s.pc l.1 = .request .subscribe .failAckLock → ∀ t, ¬ (s.pc t).resubscribing) ∧
    (∀ n, s.pc l.1 = .connect .resubLock → l.2 = .entries (n + 1) → ∀ t, ¬ (s.pc t).failing)

/-- What holds along a run without a cycle. -/
structure LockInv (s : LockState) : Prop where
  agrees : Agrees subscriberLocks s
  free : ¬ Deadlocked subscriberLocks s

theorem not_failing_entry (c : LockCall) : ¬ c.entry.failing := by
  rintro ⟨op, h⟩
  cases c <;> simp [LockCall.entry] at h

theorem not_resubscribing_entry (c : LockCall) : ¬ c.entry.resubscribing := by
  rintro ⟨n, h⟩
  cases c <;> simp [LockCall.entry] at h

/-- The one way to the point where a `subscribe` asks for `subsMtx` with `sendMtx` in hand. -/
theorem failing_of_next (h : lockNext p ch = some (op, q)) (hq : q.failing) :
    p = .request .subscribe .failAckLock := by
  obtain ⟨op', rfl⟩ := hq
  unfold lockNext requestLocks dispatchLocks connectLocks at h
  repeat' split at h
  all_goals simp only [reduceCtorEq, Option.some.injEq, Prod.mk.injEq, LockPc.request.injEq,
    and_false] at h
  · exact absurd ⟨op', h.2⟩ (not_failing_entry _)
  · next hop => rw [hop]

theorem next_failing (h : lockNext (.request .subscribe .failAckLock) ch = some (op, q)) :
    q.failing := by
  cases ch with
  | go =>
    obtain ⟨-, rfl⟩ := Prod.mk.inj (Option.some.inj h)
    exact ⟨.subscribe, rfl⟩
  | yes => simp [lockNext, requestLocks] at h
  | no => simp [lockNext, requestLocks] at h
  | rejected => simp [lockNext, requestLocks] at h
  | entries n => simp [lockNext, requestLocks] at h
  | call c => simp [lockNext, requestLocks] at h

/-- The two ways to the next entry of `resubscribeAll`. -/
theorem resubscribing_of_next (h : lockNext p ch = some (op, q)) (hq : q.resubscribing) :
    ∃ n, (p = .connect .resubLock ∧ ch = .entries (n + 1)) ∨
      p = .connect (.resubSending (n + 1)) := by
  obtain ⟨n, rfl⟩ := hq
  unfold lockNext requestLocks dispatchLocks connectLocks at h
  repeat' split at h
  all_goals simp only [reduceCtorEq, Option.some.injEq, Prod.mk.injEq, LockPc.connect.injEq,
    ConnectLockPc.resub.injEq, and_false] at h
  · exact absurd ⟨n, h.2⟩ (not_resubscribing_entry _)
  · exact ⟨n, .inl ⟨rfl, by rw [h.2]⟩⟩
  · exact ⟨n, .inr (by rw [h.2])⟩

theorem LockPc.failing.not_resubscribing (h : p.failing) : ¬ p.resubscribing := by
  rintro ⟨n, rfl⟩
  obtain ⟨op, hop⟩ := h
  simp at hop

/-- A step closes the cycle exactly when it does not keep the order. -/
theorem LockInv.step_iff (hs : LockInv s) {l : Tid × LockChoice} (h : lockStep s l = some s') :
    ¬ Deadlocked subscriberLocks s' ↔ KeepsOrder s l := by
  have hstep := lockStep_step h
  have hagrees := hs.agrees.step hstep
  obtain ⟨t, ch⟩ := l
  obtain ⟨op, q, hnext, hpc⟩ := Locks.step_pc hstep
  have hself : s'.pc t = q := by rw [hpc, Function.update_self]
  have hother : ∀ t', t' ≠ t → s'.pc t' = s.pc t' := fun t' ht => by
    rw [hpc, Function.update_of_ne ht]
  rw [deadlocked_iff hagrees]
  constructor
  · intro hfree
    constructor
    · intro hfail t' ht'
      have hne : t' ≠ t := by
        rintro rfl
        obtain ⟨n, hn⟩ := ht'
        simp [show s.pc t' = _ from hfail] at hn
      refine hfree ⟨⟨t, ?_⟩, ⟨t', by rwa [hother t' hne]⟩⟩
      rw [hself]
      exact next_failing (by rwa [show s.pc t = _ from hfail] at hnext)
    · intro n hresub hch t' ht'
      have hne : t' ≠ t := by
        rintro rfl
        obtain ⟨op', hop⟩ := ht'
        simp [show s.pc t' = _ from hresub] at hop
      refine hfree ⟨⟨t', by rwa [hother t' hne]⟩, ⟨t, n, ?_⟩⟩
      rw [hself]
      rw [show s.pc t = _ from hresub, show ch = _ from hch] at hnext
      exact (Prod.mk.inj (Option.some.inj hnext)).2.symm
  · rintro ⟨hfailing, hresubscribing⟩ ⟨⟨t₁, h₁⟩, ⟨t₂, h₂⟩⟩
    by_cases ht₁ : t₁ = t
    · subst ht₁
      rw [hself] at h₁
      have hne : t₂ ≠ t₁ := by
        rintro rfl
        rw [hself] at h₂
        exact h₁.not_resubscribing h₂
      rw [hother t₂ hne] at h₂
      exact hfailing (failing_of_next hnext h₁) t₂ h₂
    · rw [hother t₁ ht₁] at h₁
      by_cases ht₂ : t₂ = t
      · subst ht₂
        rw [hself] at h₂
        obtain ⟨n, ⟨hresub, hch⟩ | hsending⟩ := resubscribing_of_next hnext h₂
        · exact hresubscribing n hresub hch t₁ h₁
        · -- both would hold `sendMtx`
          have hheld₁ : subscriberLocks.holds (s.pc t₁) .sendMtx = some .exclusive := by
            change (s.pc t₁).holds .sendMtx = _
            rw [h₁.holds]
            rfl
          have hheld₂ : subscriberLocks.holds (s.pc t₂) .sendMtx = some .exclusive := by
            change (s.pc t₂).holds .sendMtx = _
            rw [show s.pc t₂ = _ from hsending]
            rfl
          exact ht₁ (hs.agrees.eq_of_holds hheld₁ hheld₂ (.inl rfl))
      · rw [hother t₂ ht₂] at h₂
        exact hs.free ((deadlocked_iff hs.agrees).mpr ⟨⟨t₁, h₁⟩, ⟨t₂, h₂⟩⟩)

theorem lockInv_initial : LockInv LockState.initial where
  agrees := agrees_initial
  free := by
    rw [deadlocked_iff agrees_initial]
    rintro ⟨⟨t, op, ht⟩, -⟩
    simp [LockState.initial] at ht

/--
No state of a run has a cycle of threads that wait for each other's locks, exactly when every step
keeps a failed `subscribe` and a `resubscribeAll` with entries left apart.
-/
theorem no_deadlock_iff (ls : List (Tid × LockChoice)) :
    (∀ pre, pre <+: ls → ∀ s, Runs.exec lockStep LockState.initial pre = some s →
        ¬ Deadlocked subscriberLocks s) ↔
      Runs.Along lockStep (fun s l => (lockStep s l).isSome → KeepsOrder s l)
        LockState.initial ls :=
  Runs.forall_prefix_iff_along lockInv_initial (fun _ h => h.free)
    (fun _ _ _ hs h => hs.step_iff h)
    fun _ _ _ hs hk h => ⟨hs.agrees.step (lockStep_step h), (hs.step_iff h).mpr hk⟩

/-- A `subscribe` whose send fails while another thread is about to resubscribe. -/
def deadlockRun : List (Tid × LockChoice) :=
  [(.user 1, .call .connect), (.user 1, .go), (.user 1, .yes), (.user 1, .yes),
    (.user 0, .call (.request .subscribe)), (.user 0, .go), (.user 0, .go), (.user 0, .yes),
    (.user 0, .go), (.user 0, .go), (.user 0, .go), (.user 0, .no),
    (.user 1, .entries 1), (.user 0, .go)]

theorem subscribe_deadlocks : ∃ ls s, Runs.exec lockStep LockState.initial ls = some s ∧
    Deadlocked subscriberLocks s := by
  have hrun : (Runs.exec lockStep LockState.initial deadlockRun).map (fun s =>
      (s.pc (.user 0), s.pc (.user 1))) =
      some (.request .subscribe .failSubsLock, .connect (.resub 1)) := by
    decide
  obtain ⟨s, hs, hv⟩ := Option.map_eq_some_iff.mp hrun
  obtain ⟨h₀, h₁⟩ := Prod.mk.inj hv
  have hagrees : Agrees subscriberLocks s :=
    Runs.always hs agrees_initial fun _ _ _ hi h => hi.step (lockStep_step h)
  exact ⟨deadlockRun, s, hs, (deadlocked_iff hagrees).mpr ⟨⟨_, _, h₀⟩, ⟨_, 0, h₁⟩⟩⟩

end MqttNativeSocket
