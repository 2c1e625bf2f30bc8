import MqttNativeSocket.Core.Basic
import MqttNativeSocket.Foundations.Pending
import MqttNativeSocket.Foundations.Runs

/-! # Publish requests

`publish` and `publishAsync` run by any number of calling threads, interleaved
with each other, with the detached callback threads and with the receive loop.
A step is one access to the packet-id counter or to `pendingPubacks`, one send,
or one event of a future. What `isConnected` sees and how a send ends is left
open, so every order of losses and reconnects is covered.
-/

namespace MqttNativeSocket

/-- One call: `publish` when `sync`, else `publishAsync` with or without a callback. -/
structure PublishRequest where
  sync : Bool
  msgQos : ℤ
  defaultQos : ℤ := 0
  callback : Bool := false
  deriving DecidableEq, Repr

/-- `msg.qos > 0 ? msg.qos : defaultQos`. -/
def PublishRequest.qos (r : PublishRequest) : ℤ := if 0 < r.msgQos then r.msgQos else r.defaultQos

/-- `publish` takes an identifier at QoS above zero only, `publishAsync` always. -/
def PublishRequest.allocates (r : PublishRequest) : Bool := !r.sync || decide (0 < r.qos)

/-- Whether the call registers a promise. -/
def PublishRequest.tracked (r : PublishRequest) : Bool :=
  decide (0 < r.qos) && (r.sync || r.callback)

inductive PublishPc where
  | unborn | check
  /-- The first and the second `fetch_add` of `allocPacketId`. -/
  | fetch | refetch
  | register | spawn | send | wait
  /-- About to erase its entry and to return an error. -/
  | erase (ec : ErrorCode)
  /-- `publishAsync` after a failed send. -/
  | report
  | done (ec : ErrorCode)
  /-- The future of a destroyed promise threw. -/
  | threw
  deriving DecidableEq, Repr

/-- `recordPublished` and `recordPublishFail` as a call ends. -/
def PublishPc.published : PublishPc → ℕ
  | .done .ok => 1
  | _ => 0

def PublishPc.failed : PublishPc → ℕ
  | .done .ok => 0
  | .done _ => 1
  | _ => 0

inductive Promise where
  | unset | pending
  | fulfilled (ec : ErrorCode)
  | broken
  deriving DecidableEq, Repr

/-- A promise that is destroyed or assigned over. -/
def Promise.drop : Promise → Promise
  | .pending => .broken
  | p => p

/-- What `get` gives once the future is ready: a value, or `none` for an exception. -/
def Promise.get : Promise → Option (Option ErrorCode)
  | .fulfilled ec => some (some ec)
  | .broken => some none
  | _ => none

/-- The detached thread that waits for the future and runs the callback. -/
inductive CallbackThread where
  | none | waiting | finished
  deriving DecidableEq, Repr

/-- `fetchedAt` counts the fetches before the one that gave `id`; `reported` lists callback runs. -/
structure PublishCall where
  req : PublishRequest
  pc : PublishPc := .unborn
  id : UInt16 := 0
  fetchedAt : Option ℕ := none
  holdsCallback : Bool := false
  thread : CallbackThread := .none
  reported : List ErrorCode := []
  deriving DecidableEq, Repr

/--
An entry of `pendingPubacks` names the call whose promise it holds. `fetches`, `outstanding`,
`replaced` and `completed` only record what happened: the number of fetches, the calls whose
PUBLISH above QoS 0 was sent on this connection and not acknowledged, whether a registration
found an entry, and for each PUBACK that completed a request the call it answers and the call
it completed.
-/
structure PublishState where
  nextPacketId : UInt16
  pendingPubacks : UInt16 → Option ℕ
  promises : ℕ → Promise
  calls : ℕ → PublishCall
  messagesPublished : ℕ
  publishFailures : ℕ
  fetches : ℕ
  outstanding : List ℕ
  replaced : Bool
  completed : List (Option ℕ × ℕ)

def PublishState.initial : PublishState where
  nextPacketId := 1
  pendingPubacks := fun _ => none
  promises := fun _ => .unset
  calls := fun _ => { req := { sync := true, msgQos := 0 } }
  messagesPublished := 0
  publishFailures := 0
  fetches := 0
  outstanding := []
  replaced := false
  completed := []

namespace PublishState

def setCall (s : PublishState) (c : ℕ) (k : PublishCall) : PublishState :=
  { s with calls := Function.update s.calls c k }

/-- `pendingPubacks.erase(id)`: the promise goes with its entry. -/
def eraseEntry (s : PublishState) (id : UInt16) : PublishState :=
  { s with
    promises := Pending.resolve s.pendingPubacks s.promises id Promise.drop
    pendingPubacks := Function.update s.pendingPubacks id none }

/-- `pendingPubacks[id] = std::move(prom)`. -/
def register (s : PublishState) (c : ℕ) : PublishState :=
  let id := (s.calls c).id
  { s with
    promises := Function.update
      (Pending.resolve s.pendingPubacks s.promises id Promise.drop) c .pending
    pendingPubacks := Function.update s.pendingPubacks id (some c)
    replaced := s.replaced || (s.pendingPubacks id).isSome }

/-- The PUBACK case of the receive loop. -/
def handlePuback (s : PublishState) (answered : Option ℕ) (id : UInt16) : PublishState :=
  { s with
    promises := Pending.resolve s.pendingPubacks s.promises id fun _ => .fulfilled .ok
    pendingPubacks := Function.update s.pendingPubacks id none
    outstanding := s.outstanding.filter fun c => some c ≠ answered
    completed := s.completed ++ (s.pendingPubacks id).toList.map fun o => (answered, o) }

/-- An entry only ever stands at its owner's identifier. -/
def failAllPending (s : PublishState) : PublishState :=
  { s with
    promises := fun c =>
      if s.pendingPubacks (s.calls c).id = some c then .fulfilled .connectionLost
      else s.promises c
    pendingPubacks := fun _ => none }

/-- `nextPacketId.fetch_add(1)` by call `c`. -/
def fetch (s : PublishState) (c : ℕ) (next : UInt16 → PublishPc) : PublishState :=
  { s.setCall c { s.calls c with
      id := s.nextPacketId, fetchedAt := some s.fetches, pc := next s.nextPacketId } with
    nextPacketId := s.nextPacketId + 1
    fetches := s.fetches + 1 }

/-- Call `c`, with the data `k`, goes on at `pc`; a call that ends is counted. -/
def advance (s : PublishState) (c : ℕ) (k : PublishCall) (pc : PublishPc) : PublishState :=
  { s.setCall c { k with pc := pc } with
    messagesPublished := s.messagesPublished + pc.published
    publishFailures := s.publishFailures + pc.failed }

end PublishState

/-- The next event: a step of call `c`, of its callback thread, or of the receive loop. -/
inductive PublishLabel where
  | begin (c : ℕ) (req : PublishRequest)
  | check (c : ℕ) (connected : Bool)
  | fetch (c : ℕ)
  | register (c : ℕ)
  /-- A moved-from `std::function` is unspecified: `stays` says that the call has the callback
  still. -/
  | spawn (c : ℕ) (stays : Bool)
  | send (c : ℕ) (ok : Bool)
  | erase (c : ℕ)
  | report (c : ℕ)
  | timeout (c : ℕ)
  | get (c : ℕ)
  | deliver (c : ℕ)
  /-- A PUBACK with identifier `id` that the broker sent for call `answered`. -/
  | puback (answered : Option ℕ) (id : UInt16)
  | loseConnection
  | failAllPending
  deriving DecidableEq, Repr

/-- Where a call goes once it has its identifier. -/
def PublishRequest.afterAlloc (r : PublishRequest) : PublishPc :=
  if r.tracked then .register else .send

/-- Where a call goes after `isConnected()`. -/
def PublishRequest.afterCheck (r : PublishRequest) (offlineBuffering connected : Bool) :
    PublishPc :=
  if connected || (!r.sync && offlineBuffering) then
    if r.allocates then .fetch else .send
  else .done .notConnected

/-- Where a call goes after `sendAll`. -/
def PublishRequest.afterSend (r : PublishRequest) (ok : Bool) : PublishPc :=
  if ok then
    if r.sync && decide (0 < r.qos) then .wait else .done .ok
  else if r.sync then
    if 0 < r.qos then .erase .publishFailed else .done .publishFailed
  else .report

namespace PublishRequest

variable (r : PublishRequest)

theorem afterAlloc_cases :
    r.afterAlloc = .register ∧ r.tracked = true ∨ r.afterAlloc = .send ∧ r.tracked = false := by
  unfold afterAlloc
  split <;> simp_all

theorem afterCheck_cases (offlineBuffering connected : Bool) :
    r.afterCheck offlineBuffering connected = .fetch ∧ r.allocates = true ∨
      r.afterCheck offlineBuffering connected = .send ∧ r.allocates = false ∨
      r.afterCheck offlineBuffering connected = .done .notConnected := by
  unfold afterCheck
  split
  · split <;> simp_all
  · simp

theorem afterSend_cases (ok : Bool) :
    r.afterSend ok = .done .ok ∨ r.afterSend ok = .report ∧ r.sync = false ∨
      r.sync = true ∧ (r.afterSend ok = .done .publishFailed ∨
        0 < r.qos ∧ (r.afterSend ok = .wait ∨ r.afterSend ok = .erase .publishFailed)) := by
  unfold afterSend
  split
  · split <;> simp_all
  · split
    · split <;> simp_all
    · simp_all

end PublishRequest

/-- Where a call goes after `fut.get()`. -/
def PublishPc.afterGet : Option ErrorCode → PublishPc
  | some ec => .done ec
  | none => .threw

def publishStep (offlineBuffering : Bool) (s : PublishState) : PublishLabel → Option PublishState
  | .begin c req =>
    if (s.calls c).pc = .unborn then
      some (s.setCall c { req := req, pc := .check, holdsCallback := !req.sync && req.callback })
    else none
  | .check c connected =>
    let k := s.calls c
    if k.pc = .check then
      some (s.setCall c { k with pc := k.req.afterCheck offlineBuffering connected })
    else none
  | .fetch c =>
    let k := s.calls c
    if k.pc = .fetch then
      some (s.fetch c fun id => if id = 0 then .refetch else k.req.afterAlloc)
    else if k.pc = .refetch then some (s.fetch c fun _ => k.req.afterAlloc)
    else none
  | .register c =>
    let k := s.calls c
    if k.pc = .register then
      some ((s.register c).setCall c { k with pc := if k.req.sync then .send else .spawn })
    else none
  -- the callback is moved into the thread
  | .spawn c stays =>
    let k := s.calls c
    if k.pc = .spawn then
      some (s.setCall c { k with pc := .send, thread := .waiting, holdsCallback := stays })
    else none
  | .send c ok =>
    let k := s.calls c
    if k.pc = .send then
      let sent := ok && decide (0 < k.req.qos)
      some { s.advance c k (k.req.afterSend ok) with
        outstanding := if sent then c :: s.outstanding else s.outstanding }
    else none
  | .erase c =>
    let k := s.calls c
    match k.pc with
    | .erase ec => some ((s.eraseEntry k.id).advance c k (.done ec))
    | _ => none
  | .report c =>
    let k := s.calls c
    if k.pc = .report then
      let reported := if k.holdsCallback then k.reported ++ [.publishFailed] else k.reported
      some (s.advance c { k with reported := reported } (.done .publishFailed))
    else none
  | .timeout c =>
    let k := s.calls c
    if k.pc = .wait ∧ s.promises c = .pending then
      some (s.advance c k (.erase .publishTimeout))
    else none
  | .get c =>
    let k := s.calls c
    if k.pc = .wait then
      (s.promises c).get.map fun r => s.advance c k (.afterGet r)
    else none
  -- the exception of a broken promise is swallowed
  | .deliver c =>
    let k := s.calls c
    if k.thread = .waiting then
      (s.promises c).get.map fun r =>
        s.setCall c { k with thread := .finished, reported := k.reported ++ r.toList }
    else none
  | .puback answered id => some (s.handlePuback answered id)
  | .loseConnection => some { s with outstanding := [] }
  | .failAllPending => some s.failAllPending

/-- The call that an event belongs to. -/
def PublishLabel.call : PublishLabel → Option ℕ
  | .begin c _ | .check c _ | .fetch c | .register c | .spawn c _ | .send c _ | .erase c | .report c
  | .timeout c | .get c | .deliver c => some c
  | .puback _ _ | .loseConnection | .failAllPending => none

namespace PublishState

variable (s : PublishState) (c : ℕ) (id : UInt16)

@[simp] theorem setCall_self (k : PublishCall) : (s.setCall c k).calls c = k :=
  Function.update_self ..

theorem setCall_of_ne (k : PublishCall) {c' : ℕ} (h : c' ≠ c) :
    (s.setCall c k).calls c' = s.calls c' :=
  Function.update_of_ne h ..

end PublishState

variable {s s' : PublishState} {c : ℕ} {offlineBuffering : Bool}

/-- What each event asks of the state, and what it makes of it. -/
inductive PublishStep (offlineBuffering : Bool) (s : PublishState) :
    PublishLabel → PublishState → Prop
  | begin (c : ℕ) (req : PublishRequest) (hpc : (s.calls c).pc = .unborn) :
      PublishStep offlineBuffering s (.begin c req)
        (s.setCall c { req := req, pc := .check, holdsCallback := !req.sync && req.callback })
  | check (c : ℕ) (connected : Bool) (hpc : (s.calls c).pc = .check) :
      PublishStep offlineBuffering s (.check c connected)
        (s.setCall c { s.calls c with
          pc := (s.calls c).req.afterCheck offlineBuffering connected })
  | fetch (c : ℕ) (hpc : (s.calls c).pc = .fetch) :
      PublishStep offlineBuffering s (.fetch c)
        (s.fetch c fun id => if id = 0 then .refetch else (s.calls c).req.afterAlloc)
  | refetch (c : ℕ) (hpc : (s.calls c).pc = .refetch) :
      PublishStep offlineBuffering s (.fetch c) (s.fetch c fun _ => (s.calls c).req.afterAlloc)
  | register (c : ℕ) (hpc : (s.calls c).pc = .register) :
      PublishStep offlineBuffering s (.register c)
        ((s.register c).setCall c { s.calls c with
          pc := if (s.calls c).req.sync then .send else .spawn })
  | spawn (c : ℕ) (stays : Bool) (hpc : (s.calls c).pc = .spawn) :
      PublishStep offlineBuffering s (.spawn c stays)
        (s.setCall c { s.calls c with pc := .send, thread := .waiting, holdsCallback := stays })
  | send (c : ℕ) (ok : Bool) (hpc : (s.calls c).pc = .send) :
      PublishStep offlineBuffering s (.send c ok)
        { s.advance c (s.calls c) ((s.calls c).req.afterSend ok) with
          outstanding := if ok && decide (0 < (s.calls c).req.qos) then c :: s.outstanding
            else s.outstanding }
  | erase (c : ℕ) (ec : ErrorCode) (hpc : (s.calls c).pc = .erase ec) :
      PublishStep offlineBuffering s (.erase c)
        ((s.eraseEntry (s.calls c).id).advance c (s.calls c) (.done ec))
  | report (c : ℕ) (hpc : (s.calls c).pc = .report) :
      PublishStep offlineBuffering s (.report c)
        (s.advance c { s.calls c with
          reported := if (s.calls c).holdsCallback then (s.calls c).reported ++ [.publishFailed]
            else (s.calls c).reported } (.done .publishFailed))
  | timeout (c : ℕ) (hpc : (s.calls c).pc = .wait) (hp : s.promises c = .pending) :
      PublishStep offlineBuffering s (.timeout c) (s.advance c (s.calls c) (.erase .publishTimeout))
  | get (c : ℕ) (r : Option ErrorCode) (hpc : (s.calls c).pc = .wait)
      (hget : (s.promises c).get = some r) :
      PublishStep offlineBuffering s (.get c) (s.advance c (s.calls c) (.afterGet r))
  | deliver (c : ℕ) (r : Option ErrorCode) (hthread : (s.calls c).thread = .waiting)
      (hget : (s.promises c).get = some r) :
      PublishStep offlineBuffering s (.deliver c)
        (s.setCall c { s.calls c with
          thread := .finished, reported := (s.calls c).reported ++ r.toList })
  | puback (answered : Option ℕ) (id : UInt16) :
      PublishStep offlineBuffering s (.puback answered id) (s.handlePuback answered id)
  | loseConnection : PublishStep offlineBuffering s .loseConnection { s with outstanding := [] }
  | failAllPending : PublishStep offlineBuffering s .failAllPending s.failAllPending

theorem PublishStep.of_eq {l : PublishLabel} (h : publishStep offlineBuffering s l = some s') :
    PublishStep offlineBuffering s l s' := by
  cases l with
  | begin c req =>
    simp only [publishStep, Option.ite_none_right_eq_some, Option.some.injEq] at h
    obtain ⟨hpc, rfl⟩ := h
    exact .begin c req hpc
  | check c connected =>
    simp only [publishStep, Option.ite_none_right_eq_some, Option.some.injEq] at h
    obtain ⟨hpc, rfl⟩ := h
    exact .check c connected hpc
  | fetch c =>
    simp only [publishStep] at h
    split at h
    · next hpc =>
      obtain rfl := Option.some.inj h
      exact .fetch c hpc
    · simp only [Option.ite_none_right_eq_some, Option.some.injEq] at h
      obtain ⟨hpc, rfl⟩ := h
      exact .refetch c hpc
  | register c =>
    simp only [publishStep, Option.ite_none_right_eq_some, Option.some.injEq] at h
    obtain ⟨hpc, rfl⟩ := h
    exact .register c hpc
  | spawn c stays =>
    simp only [publishStep, Option.ite_none_right_eq_some, Option.some.injEq] at h
    obtain ⟨hpc, rfl⟩ := h
    exact .spawn c stays hpc
  | send c ok =>
    simp only [publishStep, Option.ite_none_right_eq_some, Option.some.injEq] at h
    obtain ⟨hpc, rfl⟩ := h
    exact .send c ok hpc
  | erase c =>
    simp only [publishStep] at h
    split at h
    · next ec hpc =>
      obtain rfl := Option.some.inj h
      exact .erase c ec hpc
    · contradiction
  | report c =>
    simp only [publishStep, Option.ite_none_right_eq_some, Option.some.injEq] at h
    obtain ⟨hpc, rfl⟩ := h
    exact .report c hpc
  | timeout c =>
    simp only [publishStep, Option.ite_none_right_eq_some, Option.some.injEq] at h
    obtain ⟨⟨hpc, hp⟩, rfl⟩ := h
    exact .timeout c hpc hp
  | get c =>
    simp only [publishStep, Option.ite_none_right_eq_some, Option.map_eq_some_iff] at h
    obtain ⟨hpc, r, hget, rfl⟩ := h
    exact .get c r hpc hget
  | deliver c =>
    simp only [publishStep, Option.ite_none_right_eq_some, Option.map_eq_some_iff] at h
    obtain ⟨hthread, r, hget, rfl⟩ := h
    exact .deliver c r hthread hget
  | puback answered id =>
    obtain rfl := Option.some.inj h
    exact .puback answered id
  | loseConnection =>
    obtain rfl := Option.some.inj h
    exact .loseConnection
  | failAllPending =>
    obtain rfl := Option.some.inj h
    exact .failAllPending

/-- The record of a call changes in its own events only. -/
theorem publishStep_calls_of_ne {l : PublishLabel} (h : publishStep offlineBuffering s l = some s')
    (hc : l.call ≠ some c) : s'.calls c = s.calls c := by
  cases PublishStep.of_eq h with
  | puback answered id => rfl
  | loseConnection => rfl
  | failAllPending => rfl
  | _ => exact PublishState.setCall_of_ne _ _ _ fun he => hc (congrArg some he.symm)

/-- So a run without events of a call leaves its record as it was. -/
theorem exec_calls_of_ne {ls : List PublishLabel} (hls : ∀ l ∈ ls, l.call ≠ some c)
    (h : Runs.exec (publishStep offlineBuffering) s ls = some s') : s'.calls c = s.calls c :=
  Runs.invariant (I := fun t => t.calls c = s.calls c) h
    (Runs.along_of_forall fun l hl _ => hls l hl) rfl
    fun _ _ _ hi hc hs => (publishStep_calls_of_ne hs hc).trans hi

/-! ## Calls keep to their request -/

/-- Which points of the code a request can reach. -/
def PublishRequest.Reaches (r : PublishRequest) : PublishPc → Prop
  | .fetch | .refetch => r.allocates = true
  | .register => r.tracked = true
  | .spawn => r.tracked = true ∧ r.sync = false
  | .wait | .erase _ => 0 < r.qos ∧ r.sync = true
  | .report => r.sync = false
  | _ => True

/-- Every call is at a point that its request can reach. -/
def CallsFit (s : PublishState) : Prop := ∀ c, (s.calls c).req.Reaches (s.calls c).pc

namespace PublishRequest

variable (r : PublishRequest)

theorem reaches_afterAlloc : r.Reaches r.afterAlloc := by
  rcases r.afterAlloc_cases with ⟨h, ht⟩ | ⟨h, -⟩
  · rw [h]
    exact ht
  · rw [h]
    trivial

theorem reaches_afterCheck (connected : Bool) :
    r.Reaches (r.afterCheck offlineBuffering connected) := by
  rcases r.afterCheck_cases offlineBuffering connected with ⟨h, ha⟩ | ⟨h, -⟩ | h
  · rw [h]
    exact ha
  · rw [h]
    trivial
  · rw [h]
    trivial

theorem reaches_afterSend (ok : Bool) : r.Reaches (r.afterSend ok) := by
  rcases r.afterSend_cases ok with h | ⟨h, hs⟩ | ⟨hs, h | ⟨hq, h | h⟩⟩ <;> rw [h]
  · trivial
  · exact hs
  · trivial
  · exact ⟨hq, hs⟩
  · exact ⟨hq, hs⟩

end PublishRequest

theorem CallsFit.initial : CallsFit PublishState.initial := fun _ => trivial

theorem CallsFit.setCall (hs : CallsFit s) {k : PublishCall} (hk : k.req.Reaches k.pc) :
    CallsFit (s.setCall c k) := by
  intro c'
  by_cases hc : c' = c
  · rw [hc, PublishState.setCall_self]
    exact hk
  · rw [PublishState.setCall_of_ne s c k hc]
    exact hs c'

theorem CallsFit.advance (hs : CallsFit s) {k : PublishCall} {pc : PublishPc}
    (hpc : k.req.Reaches pc) : CallsFit (s.advance c k pc) :=
  CallsFit.setCall (k := { k with pc := pc }) hs hpc

theorem CallsFit.step (hs : CallsFit s) {l : PublishLabel}
    (h : publishStep offlineBuffering s l = some s') : CallsFit s' := by
  cases PublishStep.of_eq h with
  | begin c req hpc => exact hs.setCall trivial
  | check c connected hpc => exact hs.setCall (PublishRequest.reaches_afterCheck ..)
  | fetch c hpc =>
    have hfit := hs c
    rw [hpc] at hfit
    refine hs.setCall ?_
    dsimp only
    split
    · exact hfit
    · exact PublishRequest.reaches_afterAlloc _
  | refetch c hpc => exact hs.setCall (PublishRequest.reaches_afterAlloc _)
  | register c hpc =>
    have hfit := hs c
    rw [hpc] at hfit
    refine CallsFit.setCall (s := s.register c) hs ?_
    dsimp only
    split
    · trivial
    · next hsync => exact ⟨hfit, by simpa using hsync⟩
  | spawn c stays hpc => exact hs.setCall trivial
  | send c ok hpc => exact hs.advance (PublishRequest.reaches_afterSend ..)
  | erase c ec hpc => exact CallsFit.advance (s := s.eraseEntry _) hs trivial
  | report c hpc => exact hs.advance trivial
  | timeout c hpc hp =>
    have hfit := hs c
    rw [hpc] at hfit
    exact hs.advance hfit
  | get c r hpc hget => cases r <;> exact hs.advance trivial
  | deliver c r hthread hget => exact hs.setCall (hs c)
  | puback answered id => exact hs
  | loseConnection => exact hs
  | failAllPending => exact hs

/-! ## Entries belong to registered requests -/

/-- How far a call has come. -/
def PublishPc.stage : PublishPc → ℕ
  | .unborn => 0
  | .check => 1
  | .fetch => 2
  | .refetch => 3
  | .register => 4
  | .spawn => 5
  | .send => 6
  | _ => 7

theorem PublishRequest.stage_afterSend (r : PublishRequest) (ok : Bool) :
    (r.afterSend ok).stage = 7 := by
  rcases r.afterSend_cases ok with h | ⟨h, -⟩ | ⟨-, h | ⟨-, h | h⟩⟩ <;> rw [h] <;> rfl

theorem PublishRequest.qos_pos {r : PublishRequest} (h : r.tracked = true) : 0 < r.qos := by
  simp only [tracked, Bool.and_eq_true, decide_eq_true_eq] at h
  exact h.1

/-- An entry stands at the identifier of its owner, which has registered it. -/
def PublishCall.OwnsEntry (k : PublishCall) (id : UInt16) : Prop :=
  k.id = id ∧ k.req.tracked = true ∧ 4 < k.pc.stage ∧
    (k.req.sync = false → k.pc ≠ .done .notConnected)

theorem PublishCall.OwnsEntry.of_eq {k k' : PublishCall} {id : UInt16} (h : k.OwnsEntry id)
    (hid : k'.id = k.id) (hreq : k'.req = k.req) (hstage : 4 < k'.pc.stage)
    (hpc : k.req.sync = false → k'.pc ≠ .done .notConnected) : k'.OwnsEntry id :=
  ⟨hid.trans h.1, hreq ▸ h.2.1, hstage, hreq ▸ hpc⟩

def EntriesFit (s : PublishState) : Prop :=
  ∀ id c, s.pendingPubacks id = some c → (s.calls c).OwnsEntry id

theorem EntriesFit.initial : EntriesFit PublishState.initial := by
  simp [EntriesFit, PublishState.initial]

namespace EntriesFit

theorem not_pending (hs : EntriesFit s) (hstage : (s.calls c).pc.stage ≤ 4) (id : UInt16) :
    s.pendingPubacks id ≠ some c := fun h => absurd (hs id c h).2.2.1 (by omega)

/-- A call that moves on keeps its entry. -/
theorem update (hs : EntriesFit s) {k : PublishCall}
    (hcalls : s'.calls = Function.update s.calls c k)
    (hpend : ∀ id c, s'.pendingPubacks id = some c → s.pendingPubacks id = some c)
    (hk : ∀ id, s.pendingPubacks id = some c → (s.calls c).OwnsEntry id → k.OwnsEntry id) :
    EntriesFit s' := by
  intro id c' h
  have hold := hpend id c' h
  rw [hcalls]
  by_cases hc : c' = c
  · subst hc
    rw [Function.update_self]
    exact hk id hold (hs id c' hold)
  · rw [Function.update_of_ne hc]
    exact hs id c' hold

/-- A call that has not registered has no entry to keep. -/
theorem early (hs : EntriesFit s) {k : PublishCall}
    (hcalls : s'.calls = Function.update s.calls c k)
    (hpend : s'.pendingPubacks = s.pendingPubacks) (hstage : (s.calls c).pc.stage ≤ 4) :
    EntriesFit s' :=
  hs.update hcalls (fun _ _ h => hpend ▸ h) fun id h => (hs.not_pending hstage id h).elim

theorem step (hs : EntriesFit s) (hfit : CallsFit s) {l : PublishLabel}
    (h : publishStep offlineBuffering s l = some s') : EntriesFit s' := by
  cases PublishStep.of_eq h with
  | begin c req hpc => exact hs.early rfl rfl (by rw [hpc]; decide)
  | check c connected hpc => exact hs.early rfl rfl (by rw [hpc]; decide)
  | fetch c hpc => exact hs.early rfl rfl (by rw [hpc]; decide)
  | refetch c hpc => exact hs.early rfl rfl (by rw [hpc]; decide)
  | register c hpc =>
    have htracked := hfit c
    rw [hpc] at htracked
    have hstage : 4 < (if (s.calls c).req.sync then PublishPc.send else .spawn).stage := by
      split <;> decide
    have hne : (if (s.calls c).req.sync then PublishPc.send else .spawn) ≠ .done .notConnected := by
      split <;> simp
    intro id c' hid
    rcases Pending.of_put hid with ⟨rfl, rfl⟩ | hold
    · rw [PublishState.setCall_self]
      exact ⟨rfl, htracked, hstage, fun _ => hne⟩
    · have hc : c' ≠ c := by
        rintro rfl
        exact hs.not_pending (by rw [hpc]; decide) id hold
      rw [PublishState.setCall_of_ne _ _ _ hc]
      exact hs id c' hold
  | spawn c stays hpc =>
    exact hs.update rfl (fun _ _ h => h) fun id _ h =>
      h.of_eq rfl rfl (by simp [PublishPc.stage]) (by simp)
  | send c ok hpc =>
    refine hs.update rfl (fun _ _ h => h) fun id _ h => h.of_eq rfl rfl ?_ fun _ => ?_
    · rw [PublishRequest.stage_afterSend]
      decide
    · rcases (s.calls c).req.afterSend_cases ok with h | ⟨h, -⟩ | ⟨-, h | ⟨-, h | h⟩⟩ <;> simp [h]
  | erase c ec hpc =>
    have hsync := hfit c
    rw [hpc] at hsync
    refine hs.update rfl (fun _ _ => Pending.of_remove) fun id _ h =>
      h.of_eq rfl rfl ?_ fun ha => ?_
    · simp [PublishPc.stage]
    · simp [hsync.2] at ha
  | report c hpc =>
    refine hs.update rfl (fun _ _ h => h) fun id _ h => h.of_eq rfl rfl ?_ (by simp)
    simp [PublishPc.stage]
  | timeout c hpc hp =>
    refine hs.update rfl (fun _ _ h => h) fun id _ h => h.of_eq rfl rfl ?_ (by simp)
    simp [PublishPc.stage]
  | get c r hpc hget =>
    have hsync := hfit c
    rw [hpc] at hsync
    refine hs.update rfl (fun _ _ h => h) fun id _ h => h.of_eq rfl rfl ?_ fun ha => ?_
    · cases r <;> simp [PublishPc.afterGet, PublishPc.stage]
    · simp [hsync.2] at ha
  | deliver c r hthread hget =>
    exact hs.update rfl (fun _ _ h => h) fun id _ h => h.of_eq rfl rfl h.2.2.1 h.2.2.2
  | puback answered id => exact fun id' c' h => hs id' c' (Pending.of_remove h)
  | loseConnection => exact hs
  | failAllPending => simp [EntriesFit, PublishState.failAllPending]

end EntriesFit

end MqttNativeSocket
