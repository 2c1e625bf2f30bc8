import MqttNativeSocket.Client.Custody
import MqttNativeSocket.Client.RetryBudget

/-! # The steps of an operation

Between two calls a user thread takes a bounded number of steps, and a reconnect
worker with a retry budget does in its whole life, but for the pieces in which
packets go out and the filters that are subscribed to again: each of these is
paid for by one step of its own. Receive and keepalive loops have no such bound.

A wait is one step, however long it lasts, and there need not be an end to it: a
mutex, a join, the dial with its TLS handshake, the CONNACK. What is bounded is
the work between the waits, and how many of them there are.
-/

namespace MqttNativeSocket

variable {cfg : ThreadConfig} {s s' : ThreadState} {t t' : Tid} {a : Action} {pc pc' : Pc}
  {ch : Choice} {N : ℕ}

def Choice.isCall : Choice → Bool
  | .call _ => true
  | _ => false

/-- One more piece of a packet, or one more filter. -/
def Choice.isMore : Choice → Bool
  | .more => true
  | _ => false

/-- What a choice adds to the steps that are left. -/
def Choice.gain : Choice → ℕ
  | .more => 1
  | .call _ => 31
  | _ => 0

def ConnectPc.left : ConnectPc → ℕ
  | .check => 19
  | .begin => 18
  | .clearStop => 17
  | .openSocket => 16
  | .establish => 15
  | .lock => 14
  | .sending _ => 13
  | .connack => 12
  | .succeed => 11
  | .resubSending _ => 11
  | .resubscribe => 10
  | .spawnRecv => 9
  | .assignRecv _ => 8
  | .joinRecv _ => 7
  | .spawnKeepalive => 6
  | .assignKeepalive _ => 5
  | .joinKeepalive _ => 4
  | .unlockFailed => 2
  | .fail => 2

def DisconnectPc.left : DisconnectPc → ℕ
  | .check => 11
  | .mark => 10
  | .lock => 9
  | .sending _ => 8
  | .requestStop => 7
  | .stopRecv => 6
  | .stopKeepalive => 5
  | .stopTransport => 4
  | .close => 3
  | .setDisconnected => 2
  | .ret => 1

def SendPc.left : SendPc → ℕ
  | .check => 3
  | .lock => 2
  | .sending _ => 1

def WorkerPc.left : WorkerPc → ℕ
  | .rearm => 5
  | .top => 4
  | .wait => 3
  | .checkState => 2
  | .count => 1

/-- What is left for the caller once `connect` has come back. -/
def Caller.left (N : ℕ) : Caller → ℕ
  | .user => 0
  | .worker n => 5 + 24 * (N - n.toNat)

/--
At most how many steps are left of an operation or a worker at this point; `N` is the retry budget.
-/
def Pc.left (N : ℕ) : Pc → ℕ
  | .unborn => 4 + 24 * N
  | .connect k p => p.left + k.left N
  | .disconnect again p => p.left + if again then 19 else 0
  | .reconnect => 31
  | .send _ p => p.left
  | .worker p n => p.left + 24 * (N - n.toNat)
  | _ => 0

/-- The attempts of a worker are within its budget. -/
def Pc.Within (N : ℕ) : Pc → Prop
  | .connect (.worker n) _ => n.toNat ≤ N
  | .worker _ n => n.toNat ≤ N
  | _ => True

namespace Pc

variable (k : Caller) (p : ConnectPc) (q : DisconnectPc) (w : WorkerPc) (n : UInt32) (op : SendOp)
  (r : SendPc) (again : Bool)

@[simp] theorem left_unborn : left N .unborn = 4 + 24 * N := rfl
@[simp] theorem left_connect : left N (.connect k p) = p.left + k.left N := rfl
@[simp] theorem left_disconnect :
    left N (.disconnect again q) = q.left + if again then 19 else 0 := rfl
@[simp] theorem left_reconnect : left N .reconnect = 31 := rfl
@[simp] theorem left_send : left N (.send op r) = r.left := rfl
@[simp] theorem left_worker : left N (.worker w n) = w.left + 24 * (N - n.toNat) := rfl
@[simp] theorem left_idle : left N .idle = 0 := rfl
@[simp] theorem left_finished : left N .finished = 0 := rfl

end Pc

theorem Caller.left_resume (N : ℕ) (k : Caller) (b : Bool) : (k.resume b).left N ≤ k.left N := by
  cases k <;> cases b <;> simp [Caller.resume, Caller.left, WorkerPc.left]

/-- A step of an operation lowers what is left, or it is one that pays. -/
def Pays (N : ℕ) (ch : Choice) (pc pc' : Pc) : Prop :=
  (if !(ch.isMore || ch.isCall) then 1 else 0) + pc'.left N ≤ pc.left N + ch.gain

theorem connectProgram_pays {k : Caller} {p : ConnectPc}
    (h : connectProgram cfg k p ch = some (a, pc')) : Pays N ch (.connect k p) pc' := by
  have hfalse := k.left_resume N false
  have htrue := k.left_resume N true
  unfold connectProgram at h
  repeat' split at h
  all_goals simp only [reduceCtorEq, Option.some.injEq, Prod.mk.injEq] at h
  all_goals obtain ⟨rfl, rfl⟩ := h
  all_goals simp [Pays, ConnectPc.left, Choice.isMore, Choice.isCall, Choice.gain]
  all_goals omega

theorem disconnectProgram_pays {again : Bool} {p : DisconnectPc}
    (h : disconnectProgram again p ch = some (a, pc')) :
    Pays N ch (.disconnect again p) pc' := by
  unfold disconnectProgram at h
  repeat' split at h
  all_goals simp only [reduceCtorEq, Option.some.injEq, Prod.mk.injEq] at h
  all_goals obtain ⟨rfl, rfl⟩ := h
  all_goals simp_all [Pays, DisconnectPc.left, Choice.isMore, Choice.isCall, Choice.gain,
    ConnectPc.left, Caller.left]
  all_goals omega

theorem sendProgram_pays {op : SendOp} {p : SendPc}
    (h : sendProgram cfg op p ch = some (a, pc')) : Pays N ch (.send op p) pc' := by
  unfold sendProgram at h
  repeat' split at h
  all_goals simp only [reduceCtorEq, Option.some.injEq, Prod.mk.injEq] at h
  all_goals obtain ⟨rfl, rfl⟩ := h
  all_goals simp [Pays, SendPc.left, Choice.isMore, Choice.isCall, Choice.gain]

theorem toNat_attempt {n : UInt32} (hpos : 0 < cfg.maxRetries)
    (hmax : cfg.maxRetries ≠ 4294967295) (hn : n.toNat ≤ cfg.maxRetries.toNat)
    (h : ¬ (0 < cfg.maxRetries ∧ cfg.maxRetries < n + 1)) :
    (n + 1).toNat = n.toNat + 1 ∧ n.toNat + 1 ≤ cfg.maxRetries.toNat := by
  have hlast : n ≠ 4294967295 := by
    rintro rfl
    have hlt := cfg.maxRetries.toNat_lt
    exact hmax (UInt32.toNat_inj.mp (by simp at hn ⊢; omega))
  have hnext := toNat_add_one hlast
  have hle : n + 1 ≤ cfg.maxRetries := UInt32.not_lt.mp fun hlt => h ⟨hpos, hlt⟩
  rw [UInt32.le_iff_toNat_le, hnext] at hle
  exact ⟨hnext, hle⟩

/-- A worker counts its attempt, and has one less left. -/
theorem workerProgram_pays {n : UInt32} {p : WorkerPc} (hpos : 0 < cfg.maxRetries)
    (hmax : cfg.maxRetries ≠ 4294967295) (hn : n.toNat ≤ cfg.maxRetries.toNat)
    (h : workerProgram cfg n p ch = some (a, pc')) :
    Pays cfg.maxRetries.toNat ch (.worker p n) pc' ∧ pc'.Within cfg.maxRetries.toNat := by
  unfold workerProgram at h
  split at h
  -- the count is the only point with a new number of attempts
  case h_7 =>
    split at h
    · obtain ⟨rfl, rfl⟩ := Prod.mk.inj (Option.some.inj h)
      exact ⟨Nat.le_add_right .., trivial⟩
    · next hbudget =>
      obtain ⟨rfl, rfl⟩ := Prod.mk.inj (Option.some.inj h)
      obtain ⟨hnext, hle⟩ := toNat_attempt hpos hmax hn hbudget
      refine ⟨?_, hnext.trans_le hle⟩
      simp only [Pays, WorkerPc.left, ConnectPc.left, Caller.left, Choice.isMore, Choice.isCall,
        Choice.gain, Pc.left_connect, Pc.left_worker, hnext, Bool.or_false, Bool.not_false,
        if_true]
      omega
  all_goals simp only [reduceCtorEq, Option.some.injEq, Prod.mk.injEq] at h
  all_goals obtain ⟨rfl, rfl⟩ := h
  all_goals constructor
  all_goals first
    | exact trivial
    | exact hn
    | simp [Pays, WorkerPc.left, Choice.isMore, Choice.isCall, Choice.gain]
  all_goals omega

theorem connectProgram_within {k : Caller} {p : ConnectPc} (hk : (Pc.connect k p).Within N)
    (h : connectProgram cfg k p ch = some (a, pc')) : pc'.Within N := by
  have hsame : ∀ q, (Pc.connect k q).Within N := by
    intro q
    cases k <;> exact hk
  have hresume : ∀ b, (k.resume b).Within N := by
    intro b
    cases k with
    | user => trivial
    | worker n => cases b <;> trivial
  unfold connectProgram at h
  repeat' split at h
  all_goals simp only [reduceCtorEq, Option.some.injEq, Prod.mk.injEq] at h
  all_goals obtain ⟨rfl, rfl⟩ := h
  all_goals first
    | exact hsame _
    | exact hresume _
    | trivial

/-- Only an idle thread is called upon. -/
theorem idle_of_call {c : Call} (h : program cfg pc (.call c) = some (a, pc')) : pc = .idle := by
  unfold program connectProgram disconnectProgram sendProgram recvProgram workerProgram
    keepaliveProgram at h
  repeat' split at h
  all_goals simp_all

theorem callProgram_pays {c : Call} (h : callProgram cfg c = some (a, pc')) :
    Pays N (.call c) .idle pc' := by
  unfold callProgram at h
  repeat' split at h
  all_goals simp only [reduceCtorEq, Option.some.injEq, Prod.mk.injEq] at h
  all_goals obtain ⟨rfl, rfl⟩ := h
  all_goals simp [Pays, Choice.isCall, Choice.gain, ConnectPc.left, DisconnectPc.left,
    SendPc.left, Caller.left]

theorem user_pays (hk : pc.kind = some .user) (h : program cfg pc ch = some (a, pc')) :
    Pays N ch pc pc' := by
  cases pc with
  | idle =>
    cases ch with
    | call c => exact callProgram_pays h
    | _ => contradiction
  | connect k p => exact connectProgram_pays h
  | disconnect again p => exact disconnectProgram_pays h
  | reconnect =>
    cases ch with
    | yes =>
      obtain ⟨rfl, rfl⟩ := Prod.mk.inj (Option.some.inj h)
      exact le_rfl
    | no =>
      obtain ⟨rfl, rfl⟩ := Prod.mk.inj (Option.some.inj h)
      exact Nat.le_add_right (1 + 19) 11
    | _ => contradiction
  | send op p => exact sendProgram_pays h
  | _ => simp [Pc.kind] at hk

theorem worker_pays (hpos : 0 < cfg.maxRetries) (hmax : cfg.maxRetries ≠ 4294967295)
    (hk : pc.kind = some .worker) (hw : pc.Within cfg.maxRetries.toNat)
    (h : program cfg pc ch = some (a, pc')) :
    Pays cfg.maxRetries.toNat ch pc pc' ∧ pc'.Within cfg.maxRetries.toNat := by
  cases pc with
  | connect k p => exact ⟨connectProgram_pays h, connectProgram_within hw h⟩
  | worker p n => exact workerProgram_pays hpos hmax hw h
  | _ => simp [Pc.kind] at hk

/-! ## Runs -/

/-- The steps of a thread that are neither a call nor one more piece or filter. -/
def ownSteps (t : Tid) (ls : List ThreadLabel) : ℕ :=
  ls.countP fun l => l.1 = t && !(l.2.isMore || l.2.isCall)

def callsOf (t : Tid) (ls : List ThreadLabel) : ℕ := ls.countP fun l => l.1 = t && l.2.isCall

def piecesOf (t : Tid) (ls : List ThreadLabel) : ℕ := ls.countP fun l => l.1 = t && l.2.isMore

/-- What a step adds to the steps that thread `t` has left. -/
def gainOf (t : Tid) (l : ThreadLabel) : ℕ := if l.1 = t then l.2.gain else 0

theorem sum_gainOf (t : Tid) (ls : List ThreadLabel) :
    (ls.map (gainOf t)).sum = 31 * callsOf t ls + piecesOf t ls := by
  induction ls with
  | nil => rfl
  | cons l ls ih =>
    obtain ⟨u, ch⟩ := l
    simp only [List.map_cons, List.sum_cons, ih, callsOf, piecesOf, List.countP_cons, gainOf]
    by_cases hu : u = t
    · cases ch <;> simp [hu, Choice.gain, Choice.isCall, Choice.isMore] <;> omega
    · simp [hu]

theorem left_of_start {p : Pc} (h : p.start = true) : p.left N ≤ 4 + 24 * N := by
  unfold Pc.start at h
  split at h
  · exact Nat.zero_le _
  · exact Nat.zero_le _
  · simp [WorkerPc.left]
  · contradiction

/-- Other threads leave a thread where it is, or start it. -/
theorem left_other (hp : program cfg (s.threads t).pc ch = some (a, pc))
    (hen : enabled s t a = true) (hne : t ≠ t') :
    (((effect s t a).setPc t pc).threads t').pc.left N ≤ (s.threads t').pc.left N := by
  rcases step_pc_other hp hen t' with ⟨rfl, -⟩ | ⟨-, h⟩ | ⟨-, hu, p, rfl, h⟩
  · exact (hne rfl).elim
  · rw [h]
  · rw [h, hu]
    exact left_of_start (program_spawn hp).1

/-- The steps of a thread that pay, and what it has left, are within what its calls bring. -/
theorem ownSteps_le {ls : List ThreadLabel} {C : ThreadState → ThreadLabel → Prop}
    (h : Runs.exec (threadStep cfg) s ls = some s') (hc : Runs.Along (threadStep cfg) C s ls)
    (hpays : ∀ s ch a pc, C s (t, ch) → program cfg (s.threads t).pc ch = some (a, pc) →
      Pays N ch (s.threads t).pc pc) :
    ownSteps t ls ≤ (s.threads t).pc.left N + 31 * callsOf t ls + piecesOf t ls := by
  have hstep : ∀ (s : ThreadState) (l : ThreadLabel) (s' : ThreadState), C s l →
      threadStep cfg s l = some s' →
      (if l.1 = t && !(l.2.isMore || l.2.isCall) then 1 else 0) + (s'.threads t).pc.left N ≤
        (s.threads t).pc.left N + gainOf t l := by
    rintro s ⟨u, ch⟩ s' hl hs
    obtain ⟨a, pc, hp, hen, rfl⟩ := threadStep_eq_some.mp hs
    by_cases hu : u = t
    · subst hu
      rw [step_pc, if_pos rfl]
      simpa only [Pays, gainOf, decide_true, Bool.true_and, if_true] using hpays s ch a pc hl hp
    · have hother := left_other (N := N) hp hen hu
      simpa [gainOf, hu] using hother
  have hrank := Runs.countP_add_rank_le h hc hstep
  rw [sum_gainOf] at hrank
  rw [ownSteps]
  omega

/-- Reconnect workers keep to their budget. -/
def WorkersWithin (N : ℕ) (s : ThreadState) : Prop :=
  ∀ n, (s.threads (.worker n)).pc.Within N

theorem within_of_spawn {child : Tid} {p : Pc}
    (h : program cfg pc ch = some (.spawn child p, pc')) : p.Within N := by
  unfold program callProgram connectProgram disconnectProgram sendProgram recvProgram
    workerProgram keepaliveProgram at h
  repeat' split at h
  all_goals simp only [reduceCtorEq, Option.some.injEq, Prod.mk.injEq, Action.spawn.injEq,
    false_and] at h
  all_goals obtain ⟨⟨-, rfl⟩, -⟩ := h
  · trivial
  · trivial
  · exact Nat.zero_le N

theorem Custody.worker_kind (hs : Custody s) {n : ℕ}
    (hp : program cfg (s.threads (.worker n)).pc ch = some (a, pc)) :
    (s.threads (.worker n)).pc.kind = some .worker := by
  rcases hs.kinds (.worker n) with hk | ⟨hdead | hdead, -⟩
  · exact hk
  · exact ((live_of_program hp).1.1 hdead).elim
  · exact ((live_of_program hp).1.2 hdead).elim

theorem Custody.user_kind (hs : Custody s) (n : ℕ) :
    (s.threads (.user n)).pc.kind = some .user := by
  rcases hs.kinds (.user n) with hk | ⟨-, hne⟩
  · exact hk
  · exact (hne rfl).elim

theorem WorkersWithin.step {l : ThreadLabel} (hpos : 0 < cfg.maxRetries)
    (hmax : cfg.maxRetries ≠ 4294967295) (hs : Custody s)
    (hw : WorkersWithin cfg.maxRetries.toNat s) (h : threadStep cfg s l = some s') :
    WorkersWithin cfg.maxRetries.toNat s' := by
  obtain ⟨a, pc, hp, hen, rfl⟩ := threadStep_eq_some.mp h
  intro n
  rcases step_pc_other hp hen (.worker n) with ⟨ht, hpc⟩ | ⟨-, hpc⟩ | ⟨-, -, p, rfl, hpc⟩
  · rw [hpc]
    rw [← ht] at hp
    exact (worker_pays hpos hmax (hs.worker_kind hp) (hw n) hp).2
  · rw [hpc]
    exact hw n
  · rw [hpc]
    exact within_of_spawn hp

/-- Nobody calls upon a worker. -/
theorem callsOf_worker {ls : List ThreadLabel}
    (h : Runs.exec (threadStep cfg) ThreadState.initial ls = some s) (n : ℕ) :
    callsOf (.worker n) ls = 0 := by
  have hc : Runs.Along (threadStep cfg) (fun s _ => Custody s) ThreadState.initial ls :=
    Runs.along_of_invariant Custody.initial fun _ _ _ hs hstep => hs.step hstep
  have hstep : ∀ (s : ThreadState) (l : ThreadLabel) (s' : ThreadState), Custody s →
      threadStep cfg s l = some s' →
      (if l.1 = .worker n && l.2.isCall then 1 else 0) + 0 ≤ 0 + (fun _ => 0) l := by
    rintro s ⟨u, ch⟩ s' hs hstep
    obtain ⟨a, pc, hp, hen, rfl⟩ := threadStep_eq_some.mp hstep
    rw [if_neg]
    intro hcall
    simp only [Bool.and_eq_true, decide_eq_true_eq] at hcall
    obtain ⟨rfl, hcall⟩ := hcall
    have hk := hs.worker_kind hp
    cases ch with
    | call c =>
      rw [idle_of_call hp] at hk
      contradiction
    | _ => contradiction
  have hrank := Runs.countP_add_rank_le (m := fun _ => 0) h hc hstep
  simpa [callsOf] using hrank

/--
A user thread takes at most 31 steps for each of its calls, and a worker with a budget at most 24
for each attempt, but for the pieces and filters it sends. A wait that is over counts as one step.
-/
theorem operation_steps_bounded (cfg : ThreadConfig) (ls : List ThreadLabel) (s : ThreadState)
    (h : Runs.exec (threadStep cfg) ThreadState.initial ls = some s) :
    (∀ n, ownSteps (.user n) ls ≤ 31 * callsOf (.user n) ls + piecesOf (.user n) ls) ∧
      (0 < cfg.maxRetries → cfg.maxRetries ≠ 4294967295 → ∀ n,
        ownSteps (.worker n) ls ≤ 4 + 24 * cfg.maxRetries.toNat + piecesOf (.worker n) ls) := by
  constructor
  · intro n
    have hc : Runs.Along (threadStep cfg) (fun s _ => Custody s) ThreadState.initial ls :=
      Runs.along_of_invariant Custody.initial fun _ _ _ hs hstep => hs.step hstep
    have hle := ownSteps_le (N := 0) (t := .user n) h hc
      fun s ch a pc hs hp => user_pays (hs.user_kind n) hp
    simpa [ThreadState.initial, initialThread] using hle
  · intro hpos hmax n
    have hc : Runs.Along (threadStep cfg)
        (fun s _ => Custody s ∧ WorkersWithin cfg.maxRetries.toNat s) ThreadState.initial ls := by
      apply Runs.along_of_invariant
      · exact ⟨Custody.initial, fun n => trivial⟩
      · exact fun s l s' hs hstep => ⟨hs.1.step hstep, hs.2.step hpos hmax hs.1 hstep⟩
    have hle := ownSteps_le (N := cfg.maxRetries.toNat) (t := .worker n) h hc
      fun s ch a pc hs hp => (worker_pays hpos hmax (hs.1.worker_kind hp) (hs.2 n) hp).1
    rw [callsOf_worker h n] at hle
    simpa [ThreadState.initial, initialThread] using hle

/-- One connection, its loss, and the one attempt that the worker is allowed, in vain. -/
def givenUp : List ThreadLabel := oneLoss ++ failingRound 0 ++ (failingRound 0).take 4

/-- The worker has taken 14 of its 28 steps when it gives up. -/
theorem operation_steps_bounded_givenUp :
    (Runs.exec (threadStep { maxRetries := 1 }) ThreadState.initial givenUp).map
        (fun s => (s.threads (.worker 0)).pc) = some .finished ∧
      ownSteps (.worker 0) givenUp = 14 ∧
      ownSteps (.worker 0) givenUp ≤ 28 + piecesOf (.worker 0) givenUp ∧
      ownSteps (.user 0) givenUp ≤ 31 * callsOf (.user 0) givenUp + piecesOf (.user 0) givenUp := by
  have hrun : (Runs.exec (threadStep { maxRetries := 1 }) ThreadState.initial givenUp).map
      (fun s => (s.threads (.worker 0)).pc) = some .finished := by decide +kernel
  obtain ⟨s, hs, -⟩ := Option.map_eq_some_iff.mp hrun
  obtain ⟨huser, hworker⟩ := operation_steps_bounded { maxRetries := 1 } givenUp s hs
  refine ⟨hrun, by decide, ?_, huser 0⟩
  exact hworker (by decide) (by decide) 0

end MqttNativeSocket
