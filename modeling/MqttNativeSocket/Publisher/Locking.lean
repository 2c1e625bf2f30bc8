import MqttNativeSocket.Client.Threads
import MqttNativeSocket.Foundations.Locks
import MqttNativeSocket.Foundations.Runs

/-! # The publisher's locks

`sendMtx` and `pubackMtx` as the threads of a publisher take and release them:
user threads in `publish`, `publishAsync`, `connect` and `disconnect`, the receive
loop, the keepalive thread and the reconnect worker. A `publishAsync` whose send
fails runs its callback with `sendMtx` in hand, and the callback may call the
publisher. What is done under a lock is left out, as for the subscriber.
-/

namespace MqttNativeSocket

open Locks

inductive PublisherLock where
  | sendMtx | pubackMtx
  deriving DecidableEq, Repr

inductive PublishOp where
  | publish | publishAsync
  deriving DecidableEq, Repr

/-- Points of `publish` and `publishAsync`; a call is `tracked` when it registers a promise. -/
inductive PublishLockPc where
  | check | registerLock | register
  | sendLock (tracked : Bool)
  | sending (tracked : Bool)
  | failLock | fail | failSend
  | await | timeoutLock | timeout
  deriving DecidableEq, Repr

/-- Points of `disconnect` on a connected client. -/
inductive DisconnectLockPc where
  | sendLock | sending | failLock | fail
  deriving DecidableEq, Repr

/-- Points of the callback of a failed send, and of the calls that it makes. -/
inductive CallbackLockPc where
  | running | check | registerLock | register | sendLock
  deriving DecidableEq, Repr

/-- Code that takes one lock and gives it back. -/
inductive PublisherCritical where
  | puback | failAllPending | ping
  /-- The CONNECT of a `connect`. -/
  | connect
  deriving DecidableEq, Repr

def PublisherCritical.lock : PublisherCritical → PublisherLock
  | .puback => .pubackMtx
  | .failAllPending => .pubackMtx
  | .ping => .sendMtx
  | .connect => .sendMtx

inductive PublisherPc where
  | idle
  | publish (op : PublishOp) (p : PublishLockPc)
  | callback (p : CallbackLockPc)
  | disconnect (p : DisconnectLockPc)
  | critical (c : PublisherCritical) (inside : Bool)
  deriving DecidableEq, Repr

inductive PublisherCall where
  | publish (op : PublishOp)
  | disconnect
  | critical (c : PublisherCritical)
  deriving DecidableEq, Repr

/-- A send fails with a callback at hand or without one. -/
inductive PublisherChoice where
  | go | yes | no
  | proceed (tracked : Bool)
  | failed (callback : Bool)
  | call (c : PublisherCall)
  deriving DecidableEq, Repr

/-! ## Programs -/

def publishLocks (op : PublishOp) :
    PublishLockPc → PublisherChoice → Option (Op PublisherLock × PublisherPc)
  | .check, .no => some (.skip, .idle)
  | .check, .proceed tracked =>
    some (.skip, .publish op (if tracked then .registerLock else .sendLock false))
  | .registerLock, .go => some (.lock .pubackMtx .exclusive, .publish op .register)
  | .register, .go => some (.unlock .pubackMtx, .publish op (.sendLock true))
  | .sendLock tracked, .go => some (.lock .sendMtx .exclusive, .publish op (.sending tracked))
  | .sending tracked, .yes =>
    some (.unlock .sendMtx, if op = .publish ∧ tracked then .publish op .await else .idle)
  | .sending tracked, .failed callback =>
    match op with
    | .publish =>
      if tracked then some (.skip, .publish op .failLock) else some (.unlock .sendMtx, .idle)
    -- a tracked call has its callback at hand only if the move into the thread left it behind
    | .publishAsync =>
      if callback then some (.skip, .callback .running) else some (.unlock .sendMtx, .idle)
  | .failLock, .go => some (.lock .pubackMtx .exclusive, .publish op .fail)
  | .fail, .go => some (.unlock .pubackMtx, .publish op .failSend)
  | .failSend, .go => some (.unlock .sendMtx, .idle)
  | .await, .yes => some (.skip, .idle)
  | .await, .no => some (.skip, .publish op .timeoutLock)
  | .timeoutLock, .go => some (.lock .pubackMtx .exclusive, .publish op .timeout)
  | .timeout, .go => some (.unlock .pubackMtx, .idle)
  | _, _ => none

/-- Where a call that the callback makes comes to first. The work of other threads is no call. -/
def PublisherCall.fromCallback : PublisherCall → Option CallbackLockPc
  | .publish _ => some .check
  | .disconnect => some .sendLock
  | .critical .connect => some .sendLock
  | .critical _ => none

/-- The callback runs under `sendMtx`; a call that does not come to its send just returns to it. -/
def callbackLocks :
    CallbackLockPc → PublisherChoice → Option (Op PublisherLock × PublisherPc)
  | .running, .go => some (.unlock .sendMtx, .idle)
  | .running, .call c => c.fromCallback.map fun p => (.skip, .callback p)
  | .check, .no => some (.skip, .callback .running)
  | .check, .proceed tracked =>
    some (.skip, .callback (if tracked then .registerLock else .sendLock))
  | .registerLock, .go => some (.lock .pubackMtx .exclusive, .callback .register)
  | .register, .go => some (.unlock .pubackMtx, .callback .sendLock)
  -- a `std::mutex` is not recursive: its owner never gets it
  | .sendLock, .go => some (.lock .sendMtx .exclusive, .callback .sendLock)
  | _, _ => none

/-- `disconnect` ends with `failAllPending`. -/
def disconnectLocks :
    DisconnectLockPc → PublisherChoice → Option (Op PublisherLock × PublisherPc)
  | .sendLock, .go => some (.lock .sendMtx .exclusive, .disconnect .sending)
  | .sending, .go => some (.unlock .sendMtx, .disconnect .failLock)
  | .failLock, .go => some (.lock .pubackMtx .exclusive, .disconnect .fail)
  | .fail, .go => some (.unlock .pubackMtx, .idle)
  | _, _ => none

def PublisherCall.entry : PublisherCall → PublisherPc
  | .publish op => .publish op .check
  | .disconnect => .disconnect .sendLock
  | .critical c => .critical c false

def publisherNext : PublisherPc → PublisherChoice → Option (Op PublisherLock × PublisherPc)
  | .idle, .call c => some (.skip, c.entry)
  | .publish op p, ch => publishLocks op p ch
  | .callback p, ch => callbackLocks p ch
  | .disconnect p, ch => disconnectLocks p ch
  | .critical c false, .go => some (.lock c.lock .exclusive, .critical c true)
  | .critical c true, .go => some (.unlock c.lock, .idle)
  | _, _ => none

/-! ## What is held where -/

def publisherHolding (send puback : Option Mode) : PublisherLock → Option Mode
  | .sendMtx => send
  | .pubackMtx => puback

def PublishLockPc.holds : PublishLockPc → PublisherLock → Option Mode
  | .check => publisherHolding none none
  | .registerLock => publisherHolding none none
  | .register => publisherHolding none (some .exclusive)
  | .sendLock _ => publisherHolding none none
  | .sending _ => publisherHolding (some .exclusive) none
  | .failLock => publisherHolding (some .exclusive) none
  | .fail => publisherHolding (some .exclusive) (some .exclusive)
  | .failSend => publisherHolding (some .exclusive) none
  | .await => publisherHolding none none
  | .timeoutLock => publisherHolding none none
  | .timeout => publisherHolding none (some .exclusive)

def CallbackLockPc.holds : CallbackLockPc → PublisherLock → Option Mode
  | .running => publisherHolding (some .exclusive) none
  | .check => publisherHolding (some .exclusive) none
  | .registerLock => publisherHolding (some .exclusive) none
  | .register => publisherHolding (some .exclusive) (some .exclusive)
  | .sendLock => publisherHolding (some .exclusive) none

def DisconnectLockPc.holds : DisconnectLockPc → PublisherLock → Option Mode
  | .sendLock => publisherHolding none none
  | .sending => publisherHolding (some .exclusive) none
  | .failLock => publisherHolding none none
  | .fail => publisherHolding none (some .exclusive)

def PublisherPc.holds : PublisherPc → PublisherLock → Option Mode
  | .idle => publisherHolding none none
  | .publish _ p => p.holds
  | .callback p => p.holds
  | .disconnect p => p.holds
  | .critical c inside =>
    if inside then Function.update (publisherHolding none none) c.lock (some .exclusive)
    else publisherHolding none none

variable {p q : PublisherPc} {ch : PublisherChoice} {op : Op PublisherLock}
  {ℓ ℓ' : PublisherLock} {m : Mode}

theorem publisherHolding_ext {f g : PublisherLock → Option Mode}
    (hsend : f .sendMtx = g .sendMtx) (hpuback : f .pubackMtx = g .pubackMtx) : f = g := by
  funext ℓ
  cases ℓ with
  | sendMtx => exact hsend
  | pubackMtx => exact hpuback

theorem PublisherCall.entry_holds (c : PublisherCall) :
    c.entry.holds = LockProgram.after .skip PublisherPc.idle.holds := by
  cases c <;> rfl

theorem PublisherCritical.unlock_holds (c : PublisherCritical) :
    PublisherPc.idle.holds =
      LockProgram.after (.unlock c.lock) (PublisherPc.critical c true).holds := by
  cases c <;> exact publisherHolding_ext rfl rfl

theorem PublisherCall.fromCallback_holds {c : PublisherCall} {p : CallbackLockPc}
    (h : c.fromCallback = some p) : p.holds = CallbackLockPc.running.holds := by
  cases c with
  | publish op =>
    obtain rfl := Option.some.inj h
    rfl
  | disconnect =>
    obtain rfl := Option.some.inj h
    rfl
  | critical c =>
    cases c with
    | connect =>
      obtain rfl := Option.some.inj h
      rfl
    | puback => simp [fromCallback] at h
    | failAllPending => simp [fromCallback] at h
    | ping => simp [fromCallback] at h

theorem publishLocks_holds {o : PublishOp} {p : PublishLockPc}
    (h : publishLocks o p ch = some (op, q)) : q.holds = LockProgram.after op p.holds := by
  unfold publishLocks at h
  repeat' split at h
  all_goals simp only [reduceCtorEq, Option.some.injEq, Prod.mk.injEq] at h
  all_goals
    obtain ⟨rfl, rfl⟩ := h
    exact publisherHolding_ext rfl rfl

theorem callbackLocks_holds {p : CallbackLockPc} (h : callbackLocks p ch = some (op, q)) :
    q.holds = LockProgram.after op p.holds := by
  unfold callbackLocks at h
  split at h
  case h_2 c =>
    obtain ⟨p, hp, heq⟩ := Option.map_eq_some_iff.mp h
    obtain ⟨rfl, rfl⟩ := Prod.mk.inj heq
    exact PublisherCall.fromCallback_holds hp
  all_goals simp only [reduceCtorEq, Option.some.injEq, Prod.mk.injEq] at h
  all_goals
    obtain ⟨rfl, rfl⟩ := h
    first
    | exact publisherHolding_ext rfl rfl
    | split <;> exact publisherHolding_ext rfl rfl

theorem disconnectLocks_holds {p : DisconnectLockPc} (h : disconnectLocks p ch = some (op, q)) :
    q.holds = LockProgram.after op p.holds := by
  unfold disconnectLocks at h
  split at h
  all_goals simp only [reduceCtorEq, Option.some.injEq, Prod.mk.injEq] at h
  all_goals
    obtain ⟨rfl, rfl⟩ := h
    exact publisherHolding_ext rfl rfl

theorem publisherNext_holds (h : publisherNext p ch = some (op, q)) :
    q.holds = LockProgram.after op p.holds := by
  unfold publisherNext at h
  split at h
  · obtain ⟨rfl, rfl⟩ := Prod.mk.inj (Option.some.inj h)
    exact PublisherCall.entry_holds _
  · exact publishLocks_holds h
  · exact callbackLocks_holds h
  · exact disconnectLocks_holds h
  · obtain ⟨rfl, rfl⟩ := Prod.mk.inj (Option.some.inj h)
    exact publisherHolding_ext rfl rfl
  · obtain ⟨rfl, rfl⟩ := Prod.mk.inj (Option.some.inj h)
    exact PublisherCritical.unlock_holds _
  · simp at h

/-- The program of a publisher's threads. -/
def publisherLocks : LockProgram PublisherPc PublisherChoice PublisherLock :=
  .ofAfter publisherNext PublisherPc.holds publisherNext_holds

/-- What a thread calls; the thread that waits for a callback's future is one of the users'. -/
def mayCallPublisher : Tid → PublisherCall → Bool
  | .user _, .publish _ => true
  | .user _, .disconnect => true
  | .user _, .critical .connect => true
  | .recv _, .critical .puback => true
  | .recv _, .critical .failAllPending => true
  | .keepalive _, .critical .ping => true
  | .worker _, .critical .connect => true
  | _, _ => false

abbrev PublisherLockState := Locks.State Tid PublisherPc PublisherLock

def PublisherLockState.initial : PublisherLockState := ⟨fun _ => .idle, fun _ => .free⟩

/-- One step of one thread. -/
def publisherLockStep (s : PublisherLockState) (l : Tid × PublisherChoice) :
    Option PublisherLockState :=
  match l.2 with
  | .call c => if mayCallPublisher l.1 c then Locks.step publisherLocks s l else none
  | _ => Locks.step publisherLocks s l

variable {s s' : PublisherLockState} {l : Tid × PublisherChoice} {t : Tid}

theorem publisherLockStep_step (h : publisherLockStep s l = some s') :
    Locks.step publisherLocks s l = some s' := by
  rw [publisherLockStep] at h
  split at h
  · split at h
    · exact h
    · simp at h
  · exact h

theorem publisher_agrees_initial : Agrees publisherLocks PublisherLockState.initial := by
  intro t ℓ
  cases ℓ <;> rfl

theorem publisher_agrees {ls : List (Tid × PublisherChoice)}
    (h : Runs.exec publisherLockStep s ls = some s') (hs : Agrees publisherLocks s) :
    Agrees publisherLocks s' :=
  Runs.always h hs fun _ _ _ hi h => hi.step (publisherLockStep_step h)

/-! ## Cycles -/

/-- `pubackMtx` is asked for with `sendMtx` in hand, never the other way round. -/
def PublisherLock.rank : PublisherLock → ℕ
  | .sendMtx => 0
  | .pubackMtx => 1

/-- A lock is asked for with no lock in hand, or with `sendMtx` alone. -/
theorem publisher_wants_cases (h : Wants publisherLocks p ℓ m) :
    p.holds = publisherHolding none none ∨
      p.holds = publisherHolding (some .exclusive) none ∧
        (ℓ = .pubackMtx ∨ p = .callback .sendLock) := by
  obtain ⟨ch, q, h⟩ := h
  change publisherNext p ch = some (.lock ℓ m, q) at h
  unfold publisherNext publishLocks callbackLocks disconnectLocks at h
  repeat' split at h
  all_goals simp only [reduceCtorEq, Option.some.injEq, Option.map_eq_some_iff, Prod.mk.injEq,
    Op.lock.injEq, false_and, and_false, exists_false] at h
  all_goals
    obtain ⟨⟨rfl, rfl⟩, rfl⟩ := h
    first
    | exact .inl rfl
    | exact .inr ⟨rfl, .inl rfl⟩
    | exact .inr ⟨rfl, .inr rfl⟩

/-- The only cycle is that of a callback that waits for its own thread. -/
theorem publisher_deadlocked_iff (hs : Agrees publisherLocks s) :
    Deadlocked publisherLocks s ↔ ∃ t, s.pc t = .callback .sendLock := by
  constructor
  · rintro ⟨t, h⟩
    obtain ⟨u, ℓ, m, ℓ', -, hw, hheld, hle⟩ := exists_unordered PublisherLock.rank hs h
    change (s.pc u).holds ℓ' ≠ none at hheld
    rcases publisher_wants_cases hw with hfree | ⟨hsend, rfl | hpc⟩
    · rw [hfree] at hheld
      cases ℓ' <;> exact absurd rfl hheld
    · -- `pubackMtx` comes after `sendMtx`
      rw [hsend] at hheld
      cases ℓ' with
      | sendMtx => simp [PublisherLock.rank] at hle
      | pubackMtx => exact absurd rfl hheld
    · exact ⟨u, hpc⟩
  · rintro ⟨t, ht⟩
    have hw : Wants publisherLocks (s.pc t) .sendMtx .exclusive := by
      rw [ht]
      exact ⟨.go, _, rfl⟩
    exact deadlocked_of_held hs hw (by rw [ht]; rfl) (.inl rfl)

/-! ## Runs -/

/-- The step takes no callback that runs under `sendMtx` to a send of its own. -/
def CallbackSilent (s : PublisherLockState) (l : Tid × PublisherChoice) : Prop :=
  ∀ op, publisherNext (s.pc l.1) l.2 ≠ some (op, .callback .sendLock)

/-- What holds along a run without a cycle. -/
structure PublisherLockInv (s : PublisherLockState) : Prop where
  agrees : Agrees publisherLocks s
  free : ∀ t, s.pc t ≠ .callback .sendLock

theorem PublisherLockInv.step_iff (hs : PublisherLockInv s) (h : publisherLockStep s l = some s') :
    ¬ Deadlocked publisherLocks s' ↔ CallbackSilent s l := by
  have hstep := publisherLockStep_step h
  obtain ⟨op, q, hnext, hpc⟩ := Locks.step_pc hstep
  change publisherNext (s.pc l.1) l.2 = some (op, q) at hnext
  rw [publisher_deadlocked_iff (hs.agrees.step hstep)]
  constructor
  · intro hfree op' heq
    obtain ⟨rfl, rfl⟩ := Prod.mk.inj (Option.some.inj (hnext.symm.trans heq))
    exact hfree ⟨l.1, by rw [hpc, Function.update_self]⟩
  · rintro hsilent ⟨t, ht⟩
    rw [hpc] at ht
    by_cases heq : t = l.1
    · subst heq
      rw [Function.update_self] at ht
      exact hsilent op (by rw [hnext, ht])
    · rw [Function.update_of_ne heq] at ht
      exact hs.free t ht

theorem PublisherLockInv.step (hs : PublisherLockInv s) (h : publisherLockStep s l = some s')
    (hsilent : CallbackSilent s l) : PublisherLockInv s' where
  agrees := hs.agrees.step (publisherLockStep_step h)
  free := by
    intro t ht
    have hfree := (hs.step_iff h).mpr hsilent
    exact hfree ((publisher_deadlocked_iff (hs.agrees.step (publisherLockStep_step h))).mpr ⟨t, ht⟩)

theorem publisherLockInv_initial : PublisherLockInv PublisherLockState.initial where
  agrees := publisher_agrees_initial
  free := by simp [PublisherLockState.initial]

/-- The one operation left to a callback that has come to its send. -/
theorem callback_next (h : publisherNext (.callback .sendLock) ch = some (op, q)) :
    op = .lock .sendMtx .exclusive := by
  cases ch with
  | go => exact (Prod.mk.inj (Option.some.inj h)).1.symm
  | yes => simp [publisherNext, callbackLocks] at h
  | no => simp [publisherNext, callbackLocks] at h
  | proceed tracked => simp [publisherNext, callbackLocks] at h
  | failed callback => simp [publisherNext, callbackLocks] at h
  | call c => simp [publisherNext, callbackLocks] at h

/-- As long as a callback waits for its own thread, nobody gets `sendMtx`. -/
theorem sendMtx_blocked (hs : Agrees publisherLocks s) (ht : s.pc t = .callback .sendLock)
    (hnext : publisherNext (s.pc l.1) l.2 = some (.lock .sendMtx m, q)) :
    publisherLockStep s l = none := by
  by_contra hne
  obtain ⟨s', h⟩ := Option.ne_none_iff_exists'.mp hne
  have hheld : publisherLocks.holds (s.pc t) .sendMtx = some .exclusive := by
    rw [ht]
    rfl
  have hblocked := step_eq_none hs hnext hheld (.inr rfl)
  simp [publisherLockStep_step h] at hblocked

/-- It waits for ever. -/
theorem callback_stuck (hs : Agrees publisherLocks s) (ht : s.pc t = .callback .sendLock)
    (h : publisherLockStep s l = some s') : s'.pc t = .callback .sendLock := by
  obtain ⟨op, q, hnext, hpc⟩ := Locks.step_pc (publisherLockStep_step h)
  by_cases heq : t = l.1
  · subst heq
    have hop := callback_next (ht ▸ hnext)
    subst hop
    simp [sendMtx_blocked hs ht hnext] at h
  · rw [hpc, Function.update_of_ne heq, ht]

/--
No state of a run has a cycle of threads that wait for each other's locks, exactly when no
callback that `publishAsync` runs after a failed send comes to a send of its own; and from the
first such cycle on, nobody sends any more.
-/
theorem publisher_no_deadlock_iff (ls : List (Tid × PublisherChoice)) :
    ((∀ pre, pre <+: ls → ∀ s, Runs.exec publisherLockStep PublisherLockState.initial pre = some s →
        ¬ Deadlocked publisherLocks s) ↔
      Runs.Along publisherLockStep (fun s l => (publisherLockStep s l).isSome → CallbackSilent s l)
        PublisherLockState.initial ls) ∧
    ∀ s, Runs.exec publisherLockStep PublisherLockState.initial ls = some s →
      Deadlocked publisherLocks s → ∀ rest s', Runs.exec publisherLockStep s rest = some s' →
        ∀ l q, publisherNext (s'.pc l.1) l.2 = some (.lock .sendMtx .exclusive, q) →
          publisherLockStep s' l = none := by
  constructor
  · exact Runs.forall_prefix_iff_along publisherLockInv_initial
      (fun s hs hd => ((publisher_deadlocked_iff hs.agrees).mp hd).elim fun t ht => hs.free t ht)
      (fun _ _ _ hs h => hs.step_iff h) fun _ _ _ hs hsilent h => hs.step h hsilent
  · intro s h hd rest s' hrest l q hnext
    have hs := publisher_agrees h publisher_agrees_initial
    obtain ⟨t, ht⟩ := (publisher_deadlocked_iff hs).mp hd
    have hagrees := publisher_agrees hrest hs
    have hstuck := Runs.always
      (I := fun s => Agrees publisherLocks s ∧ s.pc t = .callback .sendLock) hrest ⟨hs, ht⟩
      fun _ _ _ hi h => ⟨hi.1.step (publisherLockStep_step h), callback_stuck hi.1 hi.2 h⟩
    exact sendMtx_blocked hagrees hstuck.2 hnext

/-- A callback that publishes again when its own send has failed. -/
def publishAgainRun : List (Tid × PublisherChoice) :=
  [(.user 0, .call (.publish .publishAsync)), (.user 0, .proceed false), (.user 0, .go),
    (.user 0, .failed true), (.user 0, .call (.publish .publish)), (.user 0, .proceed true),
    (.user 0, .go), (.user 0, .go)]

theorem publishAsync_deadlocks : ∃ ls s,
    Runs.exec publisherLockStep PublisherLockState.initial ls = some s ∧
      Deadlocked publisherLocks s := by
  have hrun : (Runs.exec publisherLockStep PublisherLockState.initial publishAgainRun).map
      (fun s => s.pc (.user 0)) = some (.callback .sendLock) := by
    decide
  obtain ⟨s, hs, hpc⟩ := Option.map_eq_some_iff.mp hrun
  exact ⟨publishAgainRun, s, hs, (publisher_deadlocked_iff
    (publisher_agrees hs publisher_agrees_initial)).mpr ⟨_, hpc⟩⟩

end MqttNativeSocket
