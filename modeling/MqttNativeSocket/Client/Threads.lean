import MqttNativeSocket.Core.Basic
import Mathlib.Logic.Function.Basic

/-! # The threads of a client

A client is driven by any number of user threads, by the receive and keepalive
threads that `connect` starts, and by the worker that `scheduleReconnect` starts.
Each thread follows its program: at a program point, `program` gives the next
atomic action and the next point, `enabled` says when the action can happen, and
`effect` performs it on the shared state. A step of the system is one action of
one thread, so a run is an interleaving of the threads.

A system call reports one of its possible results; which one is a choice of the
step. A `std::jthread` object is a slot that holds the thread last assigned to it.
-/

namespace MqttNativeSocket

/-- A descriptor returned by `socket(2)`, told apart from all earlier ones. -/
abbrev Conn := ℕ

inductive Role where
  | publisher | subscriber
  deriving DecidableEq, Repr

structure ThreadConfig where
  role : Role := .publisher
  reconnectEnabled : Bool := true
  maxRetries : UInt32 := 0
  offlineBufferingEnabled : Bool := true

inductive PacketKind where
  | connect | publish | puback | subscribe | unsubscribe | pingreq | disconnect
  deriving DecidableEq, Repr

/-- Bytes of one packet taken by the socket in one go; `first` when they begin the packet. -/
structure Piece where
  kind : PacketKind
  first : Bool
  deriving DecidableEq, Repr

inductive Tid where
  | user (n : ℕ)
  | recv (n : ℕ)
  | keepalive (n : ℕ)
  | worker (n : ℕ)
  deriving DecidableEq, Repr

/-- The three `std::jthread` members. -/
inductive Slot where
  | recvThread | keepaliveThread | reconnectThread
  deriving DecidableEq, Repr

def Slot.tid : Slot → ℕ → Tid
  | .recvThread => .recv
  | .keepaliveThread => .keepalive
  | .reconnectThread => .worker

/-- Who called `connect`: a user thread, or the worker in its attempt number `n`. -/
inductive Caller where
  | user
  | worker (n : UInt32)
  deriving DecidableEq, Repr

inductive ConnectPc where
  | check | begin | clearStop | openSocket | establish
  | lock | sending (started : Bool) | unlockFailed | connack | fail
  | succeed | resubscribe | resubSending (started : Bool)
  | spawnRecv | assignRecv (r : ℕ) | joinRecv (old : Option ℕ)
  | spawnKeepalive | assignKeepalive (k : ℕ) | joinKeepalive (old : Option ℕ)
  deriving DecidableEq, Repr

inductive DisconnectPc where
  | check | mark | lock | sending (started : Bool)
  | requestStop | stopRecv | stopKeepalive | stopTransport | close | setDisconnected | ret
  deriving DecidableEq, Repr

/-- Operations that send one packet after a look at the state. -/
inductive SendOp where
  | publish | publishAsync | subscribe | unsubscribe
  deriving DecidableEq, Repr

inductive SendPc where
  | check | lock | sending (started : Bool)
  deriving DecidableEq, Repr

inductive RecvPc where
  | top | reading | failed | lost | notify | joinable
  | spawnWorker | assignWorker (w : ℕ) | joinWorker (old : Option ℕ)
  | ackLock | ackSending (started : Bool)
  deriving DecidableEq, Repr

inductive WorkerPc where
  | top | wait | checkState | count | rearm
  deriving DecidableEq, Repr

inductive KeepalivePc where
  | top | awake | checkState | due | lock | sending (started : Bool)
  deriving DecidableEq, Repr

/-- A program point. A user thread is `idle` between calls; other threads start `unborn`. -/
inductive Pc where
  | unborn | idle | finished
  | connect (k : Caller) (p : ConnectPc)
  | disconnect (again : Bool) (p : DisconnectPc)
  | reconnect
  | send (op : SendOp) (p : SendPc)
  | recv (p : RecvPc)
  | worker (p : WorkerPc) (n : UInt32)
  | keepalive (p : KeepalivePc)
  deriving DecidableEq, Repr

/-- The atomic actions. -/
inductive Action where
  | skip
  | ifState (v : ConnectionState)
  | unlessState (v : ConnectionState)
  | setState (v : ConnectionState)
  /-- `transitionState(Connected)` at the end of a handshake. -/
  | succeed
  /-- `transitionState(Reconnecting)` by a receive loop. -/
  | lose
  | setStopFlag (b : Bool)
  | openSocket (c : Conn)
  | closeSocket
  | lock
  | unlock
  | piece (kind : PacketKind) (started : Bool)
  | receive
  | ifStopped
  | unlessStopped
  | spawn (child : Tid) (pc : Pc)
  /-- Move assignment to a `jthread`: the old thread is asked to stop. -/
  | assign (slot : Slot) (child : ℕ) (old : Option ℕ)
  | requestStop (slot : Slot)
  | join (old : Option Tid)
  | ifJoinable
  | unlessJoinable
  /-- `scheduleReconnect` sets the request. -/
  | notify
  | rearm
  /-- The wait ends with a request, which is cleared. -/
  | takeRequest
  /-- A user asks for a connection again. -/
  | endQuiet
  /-- `disconnect` returns to its caller. -/
  | beginQuiet
  deriving DecidableEq, Repr

inductive Call where
  | connect | disconnect | reconnect
  | send (op : SendOp)
  deriving DecidableEq, Repr

/-- What a step leaves open: the outcome of a test or a call, a fresh name, an old slot value. -/
inductive Choice where
  | go | yes | no | ok | error | more | throw
  | call (c : Call)
  | fresh (n : ℕ)
  | replace (old : Option ℕ)
  deriving DecidableEq, Repr

/-! ## Programs -/

/-- Where a caller of `connect` goes on. A worker whose attempt succeeds leaves its loop. -/
def Caller.resume : Caller → Bool → Pc
  | .user, _ => .idle
  | .worker _, true => .finished
  | .worker n, false => .worker .rearm n

/--
`connect()`. The dial with its TLS handshake and the read of the CONNACK are one step each, which
is taken when they return; a peer that stays silent can keep them from it.
-/
def connectProgram (cfg : ThreadConfig) (k : Caller) : ConnectPc → Choice → Option (Action × Pc)
  | .check, .yes => some (.ifState .connected, k.resume false)
  | .check, .no => some (.unlessState .connected, .connect k .begin)
  | .begin, .go => some (.setState .connecting, .connect k .clearStop)
  | .clearStop, .go => some (.setStopFlag false, .connect k .openSocket)
  -- `getaddrinfo` fails before the descriptor is touched, `socket` fails with -1 in it
  | .openSocket, .error => some (.skip, .connect k .fail)
  | .openSocket, .no => some (.closeSocket, .connect k .fail)
  | .openSocket, .fresh c => some (.openSocket c, .connect k .establish)
  | .establish, .error => some (.closeSocket, .connect k .fail)
  | .establish, .ok => some (.skip, .connect k .lock)
  | .lock, .go => some (.lock, .connect k (.sending false))
  | .sending b, .more => some (.piece .connect b, .connect k (.sending true))
  | .sending true, .ok => some (.unlock, .connect k .connack)
  | .sending _, .error => some (.setState .failed, .connect k .unlockFailed)
  | .unlockFailed, .go => some (.unlock, k.resume false)
  | .connack, .ok => some (.receive, .connect k .succeed)
  | .connack, .no => some (.receive, .connect k .fail)
  | .connack, .error => some (.skip, .connect k .fail)
  -- a CONNACK too short to parse: the exception ends the call, and on a worker the process
  | .connack, .throw =>
    match k with
    | .user => some (.receive, .idle)
    | .worker _ => none
  | .fail, .go => some (.setState .failed, k.resume false)
  | .succeed, .go =>
    some (.succeed, .connect k (if cfg.role = .subscriber then .resubscribe else .spawnRecv))
  | .resubscribe, .more => some (.lock, .connect k (.resubSending false))
  | .resubscribe, .ok => some (.skip, .connect k .spawnRecv)
  | .resubSending b, .more => some (.piece .subscribe b, .connect k (.resubSending true))
  | .resubSending true, .ok => some (.unlock, .connect k .resubscribe)
  | .resubSending _, .error => some (.unlock, .connect k .resubscribe)
  | .spawnRecv, .fresh r => some (.spawn (.recv r) (.recv .top), .connect k (.assignRecv r))
  | .assignRecv r, .replace old => some (.assign .recvThread r old, .connect k (.joinRecv old))
  | .joinRecv old, .go => some (.join (old.map .recv), .connect k .spawnKeepalive)
  | .spawnKeepalive, .fresh n =>
    some (.spawn (.keepalive n) (.keepalive .top), .connect k (.assignKeepalive n))
  | .assignKeepalive n, .replace old =>
    some (.assign .keepaliveThread n old, .connect k (.joinKeepalive old))
  | .joinKeepalive old, .go => some (.join (old.map .keepalive), k.resume true)
  | _, _ => none

/-- `disconnect()`, also as the first half of `reconnect()`. -/
def disconnectProgram (again : Bool) : DisconnectPc → Choice → Option (Action × Pc)
  | .check, .yes => some (.ifState .connected, .disconnect again .mark)
  | .check, .no => some (.unlessState .connected, .disconnect again .ret)
  | .mark, .go => some (.setState .disconnecting, .disconnect again .lock)
  | .lock, .go => some (.lock, .disconnect again (.sending false))
  | .sending b, .more => some (.piece .disconnect b, .disconnect again (.sending true))
  | .sending true, .ok => some (.unlock, .disconnect again .requestStop)
  | .sending _, .error => some (.unlock, .disconnect again .requestStop)
  | .requestStop, .go => some (.setStopFlag true, .disconnect again .stopRecv)
  | .stopRecv, .go => some (.requestStop .recvThread, .disconnect again .stopKeepalive)
  | .stopKeepalive, .go => some (.requestStop .keepaliveThread, .disconnect again .stopTransport)
  | .stopTransport, .go => some (.setStopFlag true, .disconnect again .close)
  | .close, .go => some (.closeSocket, .disconnect again .setDisconnected)
  | .setDisconnected, .go => some (.setState .disconnected, .disconnect again .ret)
  | .ret, .go => if again then some (.skip, .connect .user .check) else some (.beginQuiet, .idle)
  | _, _ => none

def SendOp.kind : SendOp → PacketKind
  | .publish => .publish
  | .publishAsync => .publish
  | .subscribe => .subscribe
  | .unsubscribe => .unsubscribe

def SendOp.role : SendOp → Role
  | .publish => .publisher
  | .publishAsync => .publisher
  | .subscribe => .subscriber
  | .unsubscribe => .subscriber

/-- The sending part of `publish`, `publishAsync`, `subscribe` and `unsubscribe`. -/
def sendProgram (cfg : ThreadConfig) (op : SendOp) : SendPc → Choice → Option (Action × Pc)
  | .check, .yes => some (.ifState .connected, .send op .lock)
  | .check, .no =>
    if op = .publishAsync ∧ cfg.offlineBufferingEnabled then
      some (.unlessState .connected, .send op .lock)
    else some (.unlessState .connected, .idle)
  | .lock, .go => some (.lock, .send op (.sending false))
  | .sending b, .more => some (.piece op.kind b, .send op (.sending true))
  | .sending true, .ok => some (.unlock, .idle)
  | .sending _, .error => some (.unlock, .idle)
  | _, _ => none

/-- The receive loop with `scheduleReconnect`. Only the subscriber answers what it reads. -/
def recvProgram (cfg : ThreadConfig) : RecvPc → Choice → Option (Action × Pc)
  | .top, .yes => some (.ifStopped, .finished)
  | .top, .no => some (.unlessStopped, .recv .reading)
  | .reading, .ok => some (.receive, .recv .top)
  | .reading, .more => if cfg.role = .subscriber then some (.receive, .recv .ackLock) else none
  | .ackLock, .go => some (.lock, .recv (.ackSending false))
  | .ackSending b, .more => some (.piece .puback b, .recv (.ackSending true))
  | .ackSending true, .ok => some (.unlock, .recv .top)
  | .ackSending _, .error => some (.unlock, .recv .top)
  | .reading, .error => some (.skip, .recv .failed)
  | .failed, .yes => some (.ifStopped, .finished)
  | .failed, .no => some (.unlessStopped, .recv .lost)
  | .lost, .go => some (.lose, if cfg.reconnectEnabled then .recv .notify else .finished)
  | .notify, .go => some (.notify, .recv .joinable)
  | .joinable, .yes => some (.ifJoinable, .finished)
  | .joinable, .no => some (.unlessJoinable, .recv .spawnWorker)
  | .spawnWorker, .fresh w => some (.spawn (.worker w) (.worker .top 0), .recv (.assignWorker w))
  | .assignWorker w, .replace old => some (.assign .reconnectThread w old, .recv (.joinWorker old))
  | .joinWorker old, .go => some (.join (old.map .worker), .finished)
  | _, _ => none

/-- The loop of the reconnect worker after `n` attempts. -/
def workerProgram (cfg : ThreadConfig) (n : UInt32) : WorkerPc → Choice → Option (Action × Pc)
  | .top, .yes => some (.ifStopped, .finished)
  | .top, .no => some (.unlessStopped, .worker .wait n)
  | .wait, .yes => some (.ifStopped, .finished)
  | .wait, .go => some (.takeRequest, .worker .checkState n)
  | .checkState, .yes => some (.ifState .connected, .finished)
  | .checkState, .no => some (.unlessState .connected, .worker .count n)
  | .count, .go =>
    if 0 < cfg.maxRetries ∧ cfg.maxRetries < n + 1 then some (.setState .failed, .finished)
    else some (.skip, .connect (.worker (n + 1)) .check)
  | .rearm, .go => some (.rearm, .worker .top n)
  | _, _ => none

/-- The keepalive loop; whether a ping is due depends on the clock. -/
def keepaliveProgram : KeepalivePc → Choice → Option (Action × Pc)
  | .top, .yes => some (.ifStopped, .finished)
  | .top, .no => some (.unlessStopped, .keepalive .awake)
  | .awake, .yes => some (.ifStopped, .finished)
  | .awake, .no => some (.unlessStopped, .keepalive .checkState)
  | .checkState, .yes => some (.ifState .connected, .keepalive .due)
  | .checkState, .no => some (.unlessState .connected, .keepalive .top)
  | .due, .yes => some (.skip, .keepalive .lock)
  | .due, .no => some (.skip, .keepalive .top)
  | .lock, .go => some (.lock, .keepalive (.sending false))
  | .sending b, .more => some (.piece .pingreq b, .keepalive (.sending true))
  | .sending true, .ok => some (.unlock, .keepalive .top)
  | .sending _, .error => some (.unlock, .keepalive .top)
  | _, _ => none

/-- A call made by an idle user thread. -/
def callProgram (cfg : ThreadConfig) : Call → Option (Action × Pc)
  | .connect => some (.endQuiet, .connect .user .check)
  | .reconnect => some (.endQuiet, .reconnect)
  | .disconnect => some (.skip, .disconnect false .check)
  | .send op => if op.role = cfg.role then some (.skip, .send op .check) else none

/--
Of the mutexes only `sendMtx` is in the programs, and `reconnectMtx` in the actions that take it.
The callbacks of `publishAsync` and of messages are left out.
-/
def program (cfg : ThreadConfig) : Pc → Choice → Option (Action × Pc)
  | .idle, .call c => callProgram cfg c
  | .connect k p, ch => connectProgram cfg k p ch
  | .disconnect again p, ch => disconnectProgram again p ch
  | .reconnect, .yes => some (.ifState .connected, .disconnect true .check)
  | .reconnect, .no => some (.unlessState .connected, .connect .user .check)
  | .send op p, ch => sendProgram cfg op p ch
  | .recv p, ch => recvProgram cfg p ch
  | .worker p n, ch => workerProgram cfg n p ch
  | .keepalive p, ch => keepaliveProgram p ch
  | _, _ => none

/-! ## State and steps -/

/-- `lossAt` records how many handshakes had succeeded when a receive loop set Reconnecting. -/
structure Thread where
  pc : Pc
  stop : Bool := false
  lossAt : Option ℕ := none
  deriving DecidableEq, Repr

/--
The shared state. The last four fields only record what happened: the handshakes that succeeded,
the CONNECT packets begun, the calls of `scheduleReconnect`, and, since a `disconnect` returned
with no later `connect` or `reconnect` called, the two counts at that return.
-/
structure ThreadState where
  state : ConnectionState
  stopFlag : Bool
  fd : Option Conn
  log : Conn → Option (List Piece)
  sendMtx : Bool
  reconnectRequested : Bool
  slots : Slot → Option ℕ
  threads : Tid → Thread
  successes : ℕ
  connectsSent : ℕ
  scheduled : ℕ
  quiet : Option (ℕ × ℕ)

def initialThread : Tid → Thread
  | .user _ => { pc := .idle }
  | _ => { pc := .unborn }

/-- A client that has just been constructed. -/
def ThreadState.initial : ThreadState where
  state := .disconnected
  stopFlag := false
  fd := none
  log := fun _ => none
  sendMtx := false
  reconnectRequested := false
  slots := fun _ => none
  threads := initialThread
  successes := 0
  connectsSent := 0
  scheduled := 0
  quiet := none

namespace ThreadState

def setThread (s : ThreadState) (t : Tid) (th : Thread) : ThreadState :=
  { s with threads := Function.update s.threads t th }

def setPc (s : ThreadState) (t : Tid) (pc : Pc) : ThreadState :=
  s.setThread t { s.threads t with pc := pc }

def stopThread (s : ThreadState) (o : Option Tid) : ThreadState :=
  { s with threads := match o with
      | none => s.threads
      | some t => Function.update s.threads t { s.threads t with stop := true } }

/-- The socket takes bytes of a packet. -/
def accept (s : ThreadState) (kind : PacketKind) (started : Bool) : ThreadState :=
  { s with
      log := match s.fd with
        | none => s.log
        | some c => Function.update s.log c (some ((s.log c).getD [] ++ [⟨kind, !started⟩]))
      connectsSent := if kind = .connect ∧ started = false then s.connectsSent + 1
        else s.connectsSent }

end ThreadState

/-- Whether thread `t` can perform an action now. -/
def enabled (s : ThreadState) (t : Tid) : Action → Bool
  | .ifState v => s.state = v
  | .unlessState v => s.state ≠ v
  | .openSocket c => (s.log c).isNone
  | .lock => !s.sendMtx
  | .piece _ _ => s.fd.isSome
  -- a packet is only read to its end when the last look at the stop flag found it clear
  | .receive => !s.stopFlag
  | .ifStopped => (s.threads t).stop
  | .unlessStopped => !(s.threads t).stop
  | .spawn child _ => (s.threads child).pc = .unborn
  | .assign slot _ old => s.slots slot = old
  | .join old => old.all fun o => (s.threads o).pc = .finished
  | .ifJoinable => (s.slots .reconnectThread).isSome
  | .unlessJoinable => (s.slots .reconnectThread).isNone
  | .takeRequest => s.reconnectRequested && !(s.threads t).stop
  | _ => true

/-- What an action of thread `t` does to the shared state. -/
def effect (s : ThreadState) (t : Tid) : Action → ThreadState
  | .setState v => { s with state := v }
  | .succeed => { s with state := .connected, successes := s.successes + 1 }
  | .lose =>
    { s with state := .reconnecting }.setThread t
      { s.threads t with lossAt := some s.successes }
  | .setStopFlag b => { s with stopFlag := b }
  | .openSocket c => { s with fd := some c, log := Function.update s.log c (some []) }
  | .closeSocket => { s with fd := none }
  | .lock => { s with sendMtx := true }
  | .unlock => { s with sendMtx := false }
  | .piece kind started => s.accept kind started
  | .spawn child pc => s.setThread child { pc := pc }
  | .assign slot child old =>
    { s with slots := Function.update s.slots slot (some child) }.stopThread (old.map slot.tid)
  | .requestStop slot => s.stopThread ((s.slots slot).map slot.tid)
  | .notify => { s with reconnectRequested := true, scheduled := s.scheduled + 1 }
  | .rearm => { s with reconnectRequested := true }
  | .takeRequest => { s with reconnectRequested := false }
  | .endQuiet => { s with quiet := none }
  | .beginQuiet => { s with quiet := some (s.connectsSent, s.scheduled) }
  | _ => s

/-- One step: the thread, and what the step leaves open. -/
abbrev ThreadLabel := Tid × Choice

/-- Thread `t` performs its next action. -/
def threadStep (cfg : ThreadConfig) (s : ThreadState) (l : ThreadLabel) : Option ThreadState := do
  let (a, pc) ← program cfg (s.threads l.1).pc l.2
  if enabled s l.1 a then return (effect s l.1 a).setPc l.1 pc else none

end MqttNativeSocket
