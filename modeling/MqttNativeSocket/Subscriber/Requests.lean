import MqttNativeSocket.Client.Connect
import MqttNativeSocket.Foundations.Pending
import MqttNativeSocket.Foundations.Runs

/-! # Subscribe requests

`subscribe` and `unsubscribe` run by any number of calling threads, interleaved
with each other and with the receive loop. A step is one access to the packet-id
counter, to the table of subscriptions or to a map of pending acknowledgements,
one send, or one event of a future.
-/

namespace MqttNativeSocket

variable {κ : Type}

inductive SubscribeRequest (κ : Type) where
  | subscribe (topic : Bytes) (qos : ℤ) (callback : κ)
  | unsubscribe (topic : Bytes)

/-- Why a request fails. -/
inductive FailureCause where
  | sendError (message : Bytes)
  | rejected
  | ackTimeout
  | connectionLost
  deriving DecidableEq, Repr

namespace SubscribeRequest

def topic : SubscribeRequest κ → Bytes
  | subscribe topic _ _ => topic
  | unsubscribe topic => topic

def subscribes : SubscribeRequest κ → Bool
  | subscribe .. => true
  | unsubscribe _ => false

/-- `subscriptions[topic] = {qos, callback}` and `subscriptions.erase(topic)`. -/
def apply (subscriptions : AList fun _ : Bytes => TopicSub κ) :
    SubscribeRequest κ → AList fun _ : Bytes => TopicSub κ
  | subscribe topic qos callback => subscriptions.insert topic ⟨qos, callback⟩
  | unsubscribe topic => subscriptions.erase topic

/-- A failed send and a rejection undo `subscribe`; nothing undoes `unsubscribe`. -/
def undoes : SubscribeRequest κ → FailureCause → Bool
  | subscribe .., .ackTimeout => false
  | subscribe .., _ => true
  | unsubscribe _, _ => false

/-- What a failed call returns or throws. An UNSUBACK cannot reject. -/
def failure : SubscribeRequest κ → FailureCause → Completion Unit
  | subscribe .., .sendError message => .returned (.error ⟨.subscribeFailed, message⟩)
  | subscribe topic _ _, .ackTimeout =>
    .returned (.error ⟨.subscribeFailed, ascii "SUBACK timed out for: " ++ topic⟩)
  -- to `subscribe`, a lost connection is return code 0x80
  | subscribe topic _ _, .rejected | subscribe topic _ _, .connectionLost =>
    .returned (.error ⟨.subscribeFailed, ascii "Broker rejected subscription to: " ++ topic⟩)
  | unsubscribe _, .sendError message => .returned (.error ⟨.unsubscribeFailed, message⟩)
  | unsubscribe topic, .ackTimeout =>
    .returned (.error ⟨.unsubscribeFailed, ascii "UNSUBACK timed out for: " ++ topic⟩)
  | unsubscribe _, .connectionLost => .thrown ⟨.connectionLost, ascii "Disconnected"⟩
  | unsubscribe _, .rejected => .returned (.ok ())

end SubscribeRequest

inductive SubscribePc where
  | unborn | table | check
  /-- The first and the second `fetch_add` of `allocPacketId`. -/
  | fetch | refetch
  | register | send | wait
  /-- About to erase its entry, or its topic, and to fail. -/
  | eraseEntry (cause : FailureCause)
  | eraseTopic (cause : FailureCause)
  | done
  | failed (cause : FailureCause)
  /-- The future of a destroyed promise threw. -/
  | broken
  deriving DecidableEq, Repr

/-- `lost` is the value 0x80 of a SUBACK promise and the exception of an UNSUBACK promise. -/
inductive AckPromise where
  | unset | pending
  | answered (returnCode : UInt8)
  | lost
  | broken
  deriving DecidableEq, Repr

/-- A promise that is destroyed or assigned over. -/
def AckPromise.drop : AckPromise → AckPromise
  | .pending => .broken
  | p => p

structure SubscribeCall (κ : Type) where
  req : SubscribeRequest κ
  pc : SubscribePc := .unborn
  id : UInt16 := 0

/-- An entry of either map names the call whose promise it holds. -/
structure SubscribeState (κ : Type) where
  subscriptions : AList fun _ : Bytes => TopicSub κ
  nextPacketId : UInt16
  pendingSubacks : UInt16 → Option ℕ
  pendingUnsubacks : UInt16 → Option ℕ
  promises : ℕ → AckPromise
  calls : ℕ → SubscribeCall κ

namespace SubscribeState

def initial : SubscribeState κ where
  subscriptions := ∅
  nextPacketId := 1
  pendingSubacks := fun _ => none
  pendingUnsubacks := fun _ => none
  promises := fun _ => .unset
  calls := fun _ => { req := .unsubscribe [] }

def setCall (s : SubscribeState κ) (c : ℕ) (k : SubscribeCall κ) : SubscribeState κ :=
  { s with calls := Function.update s.calls c k }

/-- Call `c` goes on at `pc`. -/
def goto (s : SubscribeState κ) (c : ℕ) (pc : SubscribePc) : SubscribeState κ :=
  s.setCall c { s.calls c with pc := pc }

/-- `pendingSubacks.erase(id)` or `pendingUnsubacks.erase(id)`. -/
def eraseEntry (s : SubscribeState κ) (c : ℕ) : SubscribeState κ :=
  if (s.calls c).req.subscribes then
    { s with
      promises := Pending.resolve s.pendingSubacks s.promises (s.calls c).id AckPromise.drop
      pendingSubacks := Function.update s.pendingSubacks (s.calls c).id none }
  else
    { s with
      promises := Pending.resolve s.pendingUnsubacks s.promises (s.calls c).id AckPromise.drop
      pendingUnsubacks := Function.update s.pendingUnsubacks (s.calls c).id none }

/-- `pendingSubacks[id] = std::move(prom)` or `pendingUnsubacks[id] = std::move(prom)`. -/
def register (s : SubscribeState κ) (c : ℕ) : SubscribeState κ :=
  if (s.calls c).req.subscribes then
    { s with
      promises := Function.update
        (Pending.resolve s.pendingSubacks s.promises (s.calls c).id AckPromise.drop) c .pending
      pendingSubacks := Function.update s.pendingSubacks (s.calls c).id (some c) }
  else
    { s with
      promises := Function.update
        (Pending.resolve s.pendingUnsubacks s.promises (s.calls c).id AckPromise.drop) c .pending
      pendingUnsubacks := Function.update s.pendingUnsubacks (s.calls c).id (some c) }

/-- The SUBACK case of the receive loop; a body that does not parse is logged. -/
def handleSuback (s : SubscribeState κ) (body : Bytes) : SubscribeState κ :=
  match parseSuback body with
  | .error _ => s
  | .ok info =>
    { s with
      promises := Pending.resolve s.pendingSubacks s.promises info.packetId fun _ =>
        .answered (info.returnCodes.head?.getD 0x80)
      pendingSubacks := Function.update s.pendingSubacks info.packetId none }

/-- The UNSUBACK case of the receive loop. -/
def handleUnsuback (s : SubscribeState κ) (body : Bytes) : SubscribeState κ :=
  let id := parsePacketId body
  { s with
    promises := Pending.resolve s.pendingUnsubacks s.promises id fun _ => .answered 0
    pendingUnsubacks := Function.update s.pendingUnsubacks id none }

/-- An entry only ever stands at its owner's identifier. -/
def failAllAcks (s : SubscribeState κ) : SubscribeState κ :=
  { s with
    promises := fun c =>
      if s.pendingSubacks (s.calls c).id = some c ∨ s.pendingUnsubacks (s.calls c).id = some c then
        .lost
      else s.promises c
    pendingSubacks := fun _ => none
    pendingUnsubacks := fun _ => none }

/-- `nextPacketId.fetch_add(1)` by call `c`. -/
def fetch (s : SubscribeState κ) (c : ℕ) (next : UInt16 → SubscribePc) : SubscribeState κ :=
  { s.setCall c { s.calls c with id := s.nextPacketId, pc := next s.nextPacketId } with
    nextPacketId := s.nextPacketId + 1 }

end SubscribeState

/-- The next event: a step of call `c` or of the receive loop. -/
inductive SubscribeLabel (κ : Type) where
  | begin (c : ℕ) (req : SubscribeRequest κ)
  | table (c : ℕ)
  | check (c : ℕ) (connected : Bool)
  | fetch (c : ℕ)
  | register (c : ℕ)
  /-- The result of `sendAll`, with the text of its error. -/
  | send (c : ℕ) (error : Option Bytes)
  | timeout (c : ℕ)
  | get (c : ℕ)
  | eraseEntry (c : ℕ)
  | eraseTopic (c : ℕ)
  | suback (body : Bytes)
  | unsuback (body : Bytes)
  | failAllAcks

/-- The call that an event belongs to. -/
def SubscribeLabel.call : SubscribeLabel κ → Option ℕ
  | begin c _ | table c | check c _ | fetch c | register c | send c _ | timeout c | get c
  | eraseEntry c | eraseTopic c => some c
  | suback _ | unsuback _ | failAllAcks => none

/-- Where a call goes when its future is ready. -/
def SubscribeRequest.afterGet (r : SubscribeRequest κ) : AckPromise → Option SubscribePc
  | .unset | .pending => none
  | .answered rc =>
    if r.subscribes ∧ rc = 0x80 then some (.eraseTopic .rejected) else some .done
  | .lost =>
    if r.subscribes then some (.eraseTopic .connectionLost) else some (.failed .connectionLost)
  | .broken => some .broken

def subscribeStep (s : SubscribeState κ) : SubscribeLabel κ → Option (SubscribeState κ)
  | .begin c req =>
    if (s.calls c).pc = .unborn then some (s.setCall c { req := req, pc := .table }) else none
  | .table c =>
    let k := s.calls c
    if k.pc = .table then
      some { s.goto c .check with subscriptions := k.req.apply s.subscriptions }
    else none
  | .check c connected =>
    if (s.calls c).pc = .check then some (s.goto c (if connected then .fetch else .done)) else none
  | .fetch c =>
    if (s.calls c).pc = .fetch then
      some (s.fetch c fun id => if id = 0 then .refetch else .register)
    else if (s.calls c).pc = .refetch then some (s.fetch c fun _ => .register)
    else none
  | .register c =>
    if (s.calls c).pc = .register then some ((s.register c).goto c .send) else none
  | .send c error =>
    if (s.calls c).pc = .send then
      match error with
      | none => some (s.goto c .wait)
      | some message => some (s.goto c (.eraseEntry (.sendError message)))
    else none
  | .timeout c =>
    if (s.calls c).pc = .wait ∧ s.promises c = .pending then
      some (s.goto c (.eraseEntry .ackTimeout))
    else none
  | .get c =>
    let k := s.calls c
    if k.pc = .wait then (k.req.afterGet (s.promises c)).map (s.goto c) else none
  | .eraseEntry c =>
    let k := s.calls c
    match k.pc with
    | .eraseEntry cause =>
      some ((s.eraseEntry c).goto c
        (if k.req.undoes cause then .eraseTopic cause else .failed cause))
    | _ => none
  | .eraseTopic c =>
    let k := s.calls c
    match k.pc with
    | .eraseTopic cause =>
      some { s.goto c (.failed cause) with subscriptions := s.subscriptions.erase k.req.topic }
    | _ => none
  | .suback body => some (s.handleSuback body)
  | .unsuback body => some (s.handleUnsuback body)
  | .failAllAcks => some s.failAllAcks

/-- What each event asks of the state, and what it makes of it. -/
inductive SubscribeStep (s : SubscribeState κ) : SubscribeLabel κ → SubscribeState κ → Prop
  | begin (c : ℕ) (req : SubscribeRequest κ) (hpc : (s.calls c).pc = .unborn) :
      SubscribeStep s (.begin c req) (s.setCall c { req := req, pc := .table })
  | table (c : ℕ) (hpc : (s.calls c).pc = .table) :
      SubscribeStep s (.table c)
        { s.goto c .check with subscriptions := (s.calls c).req.apply s.subscriptions }
  | check (c : ℕ) (connected : Bool) (hpc : (s.calls c).pc = .check) :
      SubscribeStep s (.check c connected) (s.goto c (if connected then .fetch else .done))
  | fetch (c : ℕ) (hpc : (s.calls c).pc = .fetch) :
      SubscribeStep s (.fetch c) (s.fetch c fun id => if id = 0 then .refetch else .register)
  | refetch (c : ℕ) (hpc : (s.calls c).pc = .refetch) :
      SubscribeStep s (.fetch c) (s.fetch c fun _ => .register)
  | register (c : ℕ) (hpc : (s.calls c).pc = .register) :
      SubscribeStep s (.register c) ((s.register c).goto c .send)
  | sent (c : ℕ) (hpc : (s.calls c).pc = .send) :
      SubscribeStep s (.send c none) (s.goto c .wait)
  | sendFailed (c : ℕ) (message : Bytes) (hpc : (s.calls c).pc = .send) :
      SubscribeStep s (.send c (some message)) (s.goto c (.eraseEntry (.sendError message)))
  | timeout (c : ℕ) (hpc : (s.calls c).pc = .wait) (hp : s.promises c = .pending) :
      SubscribeStep s (.timeout c) (s.goto c (.eraseEntry .ackTimeout))
  | get (c : ℕ) (pc : SubscribePc) (hpc : (s.calls c).pc = .wait)
      (hget : (s.calls c).req.afterGet (s.promises c) = some pc) :
      SubscribeStep s (.get c) (s.goto c pc)
  | eraseEntry (c : ℕ) (cause : FailureCause) (hpc : (s.calls c).pc = .eraseEntry cause) :
      SubscribeStep s (.eraseEntry c) ((s.eraseEntry c).goto c
        (if (s.calls c).req.undoes cause then .eraseTopic cause else .failed cause))
  | eraseTopic (c : ℕ) (cause : FailureCause) (hpc : (s.calls c).pc = .eraseTopic cause) :
      SubscribeStep s (.eraseTopic c)
        { s.goto c (.failed cause) with
          subscriptions := s.subscriptions.erase (s.calls c).req.topic }
  | suback (body : Bytes) : SubscribeStep s (.suback body) (s.handleSuback body)
  | unsuback (body : Bytes) : SubscribeStep s (.unsuback body) (s.handleUnsuback body)
  | failAllAcks : SubscribeStep s .failAllAcks s.failAllAcks

theorem SubscribeStep.of_eq {s s' : SubscribeState κ} {l : SubscribeLabel κ}
    (h : subscribeStep s l = some s') : SubscribeStep s l s' := by
  cases l with
  | begin c req =>
    simp only [subscribeStep, Option.ite_none_right_eq_some, Option.some.injEq] at h
    obtain ⟨hpc, rfl⟩ := h
    exact .begin c req hpc
  | table c =>
    simp only [subscribeStep, Option.ite_none_right_eq_some, Option.some.injEq] at h
    obtain ⟨hpc, rfl⟩ := h
    exact .table c hpc
  | check c connected =>
    simp only [subscribeStep, Option.ite_none_right_eq_some, Option.some.injEq] at h
    obtain ⟨hpc, rfl⟩ := h
    exact .check c connected hpc
  | fetch c =>
    simp only [subscribeStep] at h
    split at h
    · next hpc =>
      obtain rfl := Option.some.inj h
      exact .fetch c hpc
    · simp only [Option.ite_none_right_eq_some, Option.some.injEq] at h
      obtain ⟨hpc, rfl⟩ := h
      exact .refetch c hpc
  | register c =>
    simp only [subscribeStep, Option.ite_none_right_eq_some, Option.some.injEq] at h
    obtain ⟨hpc, rfl⟩ := h
    exact .register c hpc
  | send c error =>
    simp only [subscribeStep, Option.ite_none_right_eq_some] at h
    obtain ⟨hpc, h⟩ := h
    cases error with
    | none =>
      obtain rfl := Option.some.inj h
      exact .sent c hpc
    | some message =>
      obtain rfl := Option.some.inj h
      exact .sendFailed c message hpc
  | timeout c =>
    simp only [subscribeStep, Option.ite_none_right_eq_some, Option.some.injEq] at h
    obtain ⟨⟨hpc, hp⟩, rfl⟩ := h
    exact .timeout c hpc hp
  | get c =>
    simp only [subscribeStep, Option.ite_none_right_eq_some, Option.map_eq_some_iff] at h
    obtain ⟨hpc, pc, hget, rfl⟩ := h
    exact .get c pc hpc hget
  | eraseEntry c =>
    simp only [subscribeStep] at h
    split at h
    · next cause hpc =>
      obtain rfl := Option.some.inj h
      exact .eraseEntry c cause hpc
    · contradiction
  | eraseTopic c =>
    simp only [subscribeStep] at h
    split at h
    · next cause hpc =>
      obtain rfl := Option.some.inj h
      exact .eraseTopic c cause hpc
    · contradiction
  | suback body =>
    obtain rfl := Option.some.inj h
    exact .suback body
  | unsuback body =>
    obtain rfl := Option.some.inj h
    exact .unsuback body
  | failAllAcks =>
    obtain rfl := Option.some.inj h
    exact .failAllAcks

namespace SubscribeState

variable {s : SubscribeState κ} {c : ℕ}

@[simp] theorem setCall_self (k : SubscribeCall κ) : (s.setCall c k).calls c = k :=
  Function.update_self ..

@[simp] theorem goto_self (pc : SubscribePc) :
    (s.goto c pc).calls c = { s.calls c with pc := pc } :=
  Function.update_self ..

theorem handleSuback_calls (body : Bytes) : (s.handleSuback body).calls = s.calls := by
  unfold handleSuback
  split <;> rfl

/-- An acknowledgement concerns the owner of its entry only. -/
theorem handleSuback_promises (body : Bytes) (h : ∀ id, s.pendingSubacks id ≠ some c) :
    (s.handleSuback body).promises c = s.promises c := by
  unfold handleSuback
  split
  · rfl
  · dsimp only
    exact Pending.resolve_of_ne (h _)

theorem handleUnsuback_promises (body : Bytes) (h : ∀ id, s.pendingUnsubacks id ≠ some c) :
    (s.handleUnsuback body).promises c = s.promises c := by
  unfold handleUnsuback
  dsimp only
  exact Pending.resolve_of_ne (h _)

end SubscribeState

end MqttNativeSocket
