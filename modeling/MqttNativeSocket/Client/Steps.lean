import MqttNativeSocket.Client.Threads
import MqttNativeSocket.Foundations.Runs

/-! # What one step changes

Each component of the shared state is changed by few of the actions. The lemmas
here say which, so that an invariant only looks at the actions that matter to it.
-/

namespace MqttNativeSocket

variable {cfg : ThreadConfig} {s m s' : ThreadState} {t t' : Tid} {a : Action} {pc pc' : Pc}
  {ch : Choice}

theorem threadStep_eq_some {l : ThreadLabel} :
    threadStep cfg s l = some s' ↔ ∃ a pc, program cfg (s.threads l.1).pc l.2 = some (a, pc) ∧
      enabled s l.1 a ∧ s' = (effect s l.1 a).setPc l.1 pc := by
  simp only [threadStep, Option.bind_eq_bind, Option.bind_eq_some_iff, Option.pure_def,
    Option.ite_none_right_eq_some, Option.some.injEq, Prod.exists, eq_comm (a := s')]

namespace ThreadState

@[simp] theorem setThread_same (s : ThreadState) (t : Tid) (th : Thread) :
    (s.setThread t th).threads t = th := Function.update_self ..

theorem setThread_of_ne (s : ThreadState) (th : Thread) (h : t' ≠ t) :
    (s.setThread t th).threads t' = s.threads t' := Function.update_of_ne h ..

@[simp] theorem setPc_self (s : ThreadState) (t : Tid) (pc : Pc) :
    ((s.setPc t pc).threads t).pc = pc := by
  rw [setPc, setThread_same]

theorem setPc_of_ne (s : ThreadState) (pc : Pc) (h : t' ≠ t) :
    (s.setPc t pc).threads t' = s.threads t' := setThread_of_ne s _ h

@[simp] theorem setPc_stop (s : ThreadState) (t t' : Tid) (pc : Pc) :
    ((s.setPc t pc).threads t').stop = (s.threads t').stop := by
  by_cases h : t' = t
  · subst h; rw [setPc, setThread_same]
  · rw [setPc_of_ne s pc h]

@[simp] theorem setPc_lossAt (s : ThreadState) (t t' : Tid) (pc : Pc) :
    ((s.setPc t pc).threads t').lossAt = (s.threads t').lossAt := by
  by_cases h : t' = t
  · subst h; rw [setPc, setThread_same]
  · rw [setPc_of_ne s pc h]

section setPc

variable (s : ThreadState) (t : Tid) (pc : Pc)

@[simp] theorem setPc_state : (s.setPc t pc).state = s.state := rfl
@[simp] theorem setPc_fd : (s.setPc t pc).fd = s.fd := rfl
@[simp] theorem setPc_log : (s.setPc t pc).log = s.log := rfl
@[simp] theorem setPc_requested : (s.setPc t pc).reconnectRequested = s.reconnectRequested := rfl
@[simp] theorem setPc_slots : (s.setPc t pc).slots = s.slots := rfl
@[simp] theorem setPc_successes : (s.setPc t pc).successes = s.successes := rfl
@[simp] theorem setPc_connectsSent : (s.setPc t pc).connectsSent = s.connectsSent := rfl
@[simp] theorem setPc_scheduled : (s.setPc t pc).scheduled = s.scheduled := rfl
@[simp] theorem setPc_quiet : (s.setPc t pc).quiet = s.quiet := rfl

end setPc

theorem stopThread_threads (s : ThreadState) (o : Option Tid) (t' : Tid) :
    (s.stopThread o).threads t' =
      { s.threads t' with stop := (s.threads t').stop || decide (o = some t') } := by
  rcases o with _ | o
  · simp [stopThread]
  · by_cases h : t' = o
    · subst h; simp [stopThread]
    · rw [stopThread]
      simp [Function.update_of_ne h, Ne.symm h]

end ThreadState

section Effect

attribute [local simp] effect

/-- An action moves no other thread, except that a spawned thread is born. -/
theorem effect_pc (s : ThreadState) (t t' : Tid) (a : Action) :
    ((effect s t a).threads t').pc =
      match a with
      | .spawn child pc => if t' = child then pc else (s.threads t').pc
      | _ => (s.threads t').pc := by
  cases a with
  | spawn child pc =>
    by_cases h : t' = child
    · subst h; simp
    · simp [ThreadState.setThread_of_ne _ _ h, h]
  | lose =>
    by_cases h : t' = t
    · subst h; simp
    · rw [effect, ThreadState.setThread_of_ne _ _ h]
  | assign slot child old => rw [effect, ThreadState.stopThread_threads]
  | requestStop slot => rw [effect, ThreadState.stopThread_threads]
  | _ => rfl

theorem effect_lossAt (s : ThreadState) (t t' : Tid) (a : Action) :
    ((effect s t a).threads t').lossAt =
      match a with
      | .lose => if t' = t then some s.successes else (s.threads t').lossAt
      | .spawn child _ => if t' = child then none else (s.threads t').lossAt
      | _ => (s.threads t').lossAt := by
  cases a with
  | lose =>
    by_cases h : t' = t
    · subst h; simp
    · simp [ThreadState.setThread_of_ne _ _ h, h]
  | spawn child pc =>
    by_cases h : t' = child
    · subst h; simp
    · simp [ThreadState.setThread_of_ne _ _ h, h]
  | assign slot child old => rw [effect, ThreadState.stopThread_threads]
  | requestStop slot => rw [effect, ThreadState.stopThread_threads]
  | _ => rfl

/-- Threads are only asked to stop through the slot that holds them. -/
theorem effect_stop (s : ThreadState) (t t' : Tid) (a : Action) :
    ((effect s t a).threads t').stop =
      match a with
      | .spawn child _ => if t' = child then false else (s.threads t').stop
      | .assign slot _ old => (s.threads t').stop || decide (old.map slot.tid = some t')
      | .requestStop slot => (s.threads t').stop || decide ((s.slots slot).map slot.tid = some t')
      | _ => (s.threads t').stop := by
  cases a with
  | lose =>
    by_cases h : t' = t
    · subst h; simp
    · rw [effect, ThreadState.setThread_of_ne _ _ h]
  | spawn child pc =>
    by_cases h : t' = child
    · subst h; simp
    · simp [ThreadState.setThread_of_ne _ _ h, h]
  | assign slot child old => rw [effect, ThreadState.stopThread_threads]
  | requestStop slot => rw [effect, ThreadState.stopThread_threads]
  | _ => rfl

theorem effect_state (s : ThreadState) (t : Tid) (a : Action) :
    (effect s t a).state =
      match a with
      | .setState v => v
      | .succeed => .connected
      | .lose => .reconnecting
      | _ => s.state := by
  cases a <;> rfl

theorem effect_successes (s : ThreadState) (t : Tid) (a : Action) :
    (effect s t a).successes = if a = .succeed then s.successes + 1 else s.successes := by
  cases a <;> rfl

theorem effect_requested (s : ThreadState) (t : Tid) (a : Action) :
    (effect s t a).reconnectRequested =
      match a with
      | .notify => true
      | .rearm => true
      | .takeRequest => false
      | _ => s.reconnectRequested := by
  cases a <;> rfl

theorem effect_slots (s : ThreadState) (t : Tid) (a : Action) :
    (effect s t a).slots =
      match a with
      | .assign slot child _ => Function.update s.slots slot (some child)
      | _ => s.slots := by
  cases a <;> rfl

theorem effect_fd (s : ThreadState) (t : Tid) (a : Action) :
    (effect s t a).fd =
      match a with
      | .openSocket c => some c
      | .closeSocket => none
      | _ => s.fd := by
  cases a <;> rfl

theorem effect_log (s : ThreadState) (t : Tid) (a : Action) :
    (effect s t a).log =
      match a with
      | .openSocket c => Function.update s.log c (some [])
      | .piece kind started => (s.accept kind started).log
      | _ => s.log := by
  cases a <;> rfl

theorem effect_connectsSent (s : ThreadState) (t : Tid) (a : Action) :
    (effect s t a).connectsSent =
      if a = .piece .connect false then s.connectsSent + 1 else s.connectsSent := by
  cases a <;> simp [ThreadState.accept, ThreadState.stopThread, ThreadState.setThread]

theorem effect_scheduled (s : ThreadState) (t : Tid) (a : Action) :
    (effect s t a).scheduled = if a = .notify then s.scheduled + 1 else s.scheduled := by
  cases a <;> rfl

theorem effect_quiet (s : ThreadState) (t : Tid) (a : Action) :
    (effect s t a).quiet =
      match a with
      | .endQuiet => none
      | .beginQuiet => some (s.connectsSent, s.scheduled)
      | _ => s.quiet := by
  cases a <;> rfl

end Effect

/-! ## The other threads of a step -/

/-- A thread that is already born keeps its point while another thread steps. -/
theorem step_pc_of_ne (hen : enabled s t a = true) (ht : t' ≠ t)
    (hb : (s.threads t').pc ≠ .unborn) :
    (((effect s t a).setPc t pc).threads t').pc = (s.threads t').pc := by
  rw [ThreadState.setPc_of_ne _ _ ht, effect_pc]
  cases a with
  | spawn child pc =>
    have hu : (s.threads child).pc = .unborn := by simpa [enabled] using hen
    exact if_neg (by rintro rfl; exact hb hu)
  | _ => rfl

theorem step_pc (s : ThreadState) (t t' : Tid) (a : Action) (pc : Pc) :
    (((effect s t a).setPc t pc).threads t').pc =
      if t' = t then pc else
        match a with
        | .spawn child p => if t' = child then p else (s.threads t').pc
        | _ => (s.threads t').pc := by
  by_cases h : t' = t
  · subst h; rw [ThreadState.setPc_self, if_pos rfl]
  · rw [ThreadState.setPc_of_ne _ _ h, effect_pc, if_neg h]

/-- A stop request is never taken back. -/
theorem step_stop (hen : enabled s t a = true) (hb : (s.threads t').pc ≠ .unborn)
    (hs : (s.threads t').stop = true) :
    (((effect s t a).setPc t pc).threads t').stop = true := by
  rw [ThreadState.setPc_stop, effect_stop]
  cases a with
  | spawn child p =>
    have hu : (s.threads child).pc = .unborn := by simpa [enabled] using hen
    exact (if_neg (by rintro rfl; exact hb hu)).trans hs
  | assign slot n old => simp [hs]
  | requestStop slot => simp [hs]
  | _ => exact hs

/-! ## Which points perform an action -/

@[simp] theorem SendOp.kind_ne_connect (op : SendOp) : op.kind ≠ .connect := by
  cases op <;> simp [SendOp.kind]

/-- Only the end of a handshake writes Connected. -/
theorem program_setState {v : ConnectionState} (h : program cfg pc ch = some (.setState v, pc')) :
    v ≠ .connected := by
  unfold program callProgram connectProgram disconnectProgram sendProgram recvProgram
    workerProgram keepaliveProgram at h
  repeat' split at h
  all_goals simp only [reduceCtorEq, Option.some.injEq, Prod.mk.injEq, Action.setState.injEq,
    false_and] at h
  all_goals (obtain ⟨rfl, -⟩ := h; decide)

/-- `disconnect` asks the receive and keepalive threads to stop, and no worker. -/
theorem program_requestStop {slot : Slot} (h : program cfg pc ch = some (.requestStop slot, pc')) :
    slot ≠ .reconnectThread := by
  unfold program callProgram connectProgram disconnectProgram sendProgram recvProgram
    workerProgram keepaliveProgram at h
  repeat' split at h
  all_goals simp only [reduceCtorEq, Option.some.injEq, Prod.mk.injEq, Action.requestStop.injEq,
    false_and] at h
  all_goals (obtain ⟨rfl, -⟩ := h; decide)

/-- The worker's slot is only assigned by a receive loop. -/
theorem program_assign {slot : Slot} {n : ℕ} {old : Option ℕ}
    (h : program cfg pc ch = some (.assign slot n old, pc')) :
    slot = .reconnectThread → pc = .recv (.assignWorker n) := by
  unfold program callProgram connectProgram disconnectProgram sendProgram recvProgram
    workerProgram keepaliveProgram at h
  repeat' split at h
  all_goals simp only [reduceCtorEq, Option.some.injEq, Prod.mk.injEq, Action.assign.injEq,
    false_and] at h
  all_goals (obtain ⟨⟨rfl, rfl, rfl⟩, -⟩ := h; simp)

/-- The point at which a thread starts. -/
def Pc.start : Pc → Bool
  | .recv .top => true
  | .keepalive .top => true
  | .worker .top _ => true
  | _ => false

/-- A spawned thread has the number the step names. -/
theorem program_spawn {child : Tid} {p : Pc}
    (h : program cfg pc ch = some (.spawn child p, pc')) :
    p.start = true ∧ ∃ n, ch = .fresh n ∧
      (child = .recv n ∨ child = .keepalive n ∨ child = .worker n) := by
  unfold program callProgram connectProgram disconnectProgram sendProgram recvProgram
    workerProgram keepaliveProgram at h
  repeat' split at h
  all_goals simp only [reduceCtorEq, Option.some.injEq, Prod.mk.injEq, Action.spawn.injEq,
    false_and] at h
  all_goals (obtain ⟨⟨rfl, rfl⟩, -⟩ := h; simp [Pc.start])

/-- Past its start, a thread is where it is by its own step or was there before. -/
theorem step_pc_past_start {q : Pc} (hp : program cfg (s.threads t).pc ch = some (a, pc))
    (h : (((effect s t a).setPc t pc).threads t').pc = q) (hq : q.start = false) :
    (t' = t ∧ pc = q) ∨ (t' ≠ t ∧ (s.threads t').pc = q) := by
  rw [step_pc] at h
  split at h
  · next ht => exact .inl ⟨ht, h⟩
  · next ht =>
    refine .inr ⟨ht, ?_⟩
    cases a with
    | spawn child p =>
      dsimp only at h
      split at h
      · rw [← h, (program_spawn hp).1] at hq
        simp at hq
      · exact h
    | _ => exact h

theorem Pc.start_false {f : Pc → Bool} (hr : f (.recv .top) = false)
    (hk : f (.keepalive .top) = false) (hw : ∀ n, f (.worker .top n) = false) (q : Pc)
    (h : q.start = true) : f q = false := by
  unfold Pc.start at h
  split at h
  · exact hr
  · exact hk
  · exact hw _
  · simp at h

/-- A property of points past the start comes to a thread by its own step or was there before. -/
theorem step_pc_cases {f : Pc → Bool} (hf : ∀ q, q.start = true → f q = false)
    (hp : program cfg (s.threads t).pc ch = some (a, pc))
    (h : f (((effect s t a).setPc t pc).threads t').pc = true) :
    (t' = t ∧ f pc = true) ∨ (t' ≠ t ∧ f (s.threads t').pc = true) := by
  have hq : (((effect s t a).setPc t pc).threads t').pc.start = false := by
    by_contra hc
    rw [hf _ (by simpa using hc)] at h
    simp at h
  rcases step_pc_past_start hp rfl hq with ⟨ht, hpc⟩ | ⟨ht, hpc⟩
  · exact .inl ⟨ht, hpc ▸ h⟩
  · exact .inr ⟨ht, hpc ▸ h⟩

/-- Only the end of a handshake makes the client Connected. -/
theorem step_state_ne_connected (hp : program cfg (s.threads t).pc ch = some (a, pc))
    (hsucc : a ≠ .succeed) (h : s.state ≠ .connected) :
    ((effect s t a).setPc t pc).state ≠ .connected := by
  rw [ThreadState.setPc_state, effect_state]
  cases a with
  | setState v => exact program_setState hp
  | succeed => exact (hsucc rfl).elim
  | lose => simp
  | _ => exact h

theorem ThreadState.initial_pc (t : Tid) :
    (ThreadState.initial.threads t).pc = .idle ∨ (ThreadState.initial.threads t).pc = .unborn := by
  cases t with
  | user n => exact .inl rfl
  | _ => exact .inr rfl

/-- The threads outside `ts` are as they were at the start. -/
def Untouched (ts : List Tid) (s : ThreadState) : Prop :=
  ∀ t, t ∉ ts → (s.threads t).pc = (initialThread t).pc

/-- A step of a thread in `ts` that starts only threads in `ts`. -/
def staysIn (ts : List Tid) (l : ThreadLabel) : Bool :=
  decide (l.1 ∈ ts) && match l.2 with
    | .fresh n => decide (.recv n ∈ ts ∧ .keepalive n ∈ ts ∧ .worker n ∈ ts)
    | _ => true

theorem untouched_initial (ts : List Tid) : Untouched ts ThreadState.initial := fun _ _ => rfl

theorem Untouched.step {ts : List Tid} {l : ThreadLabel} (hu : Untouched ts s)
    (hl : staysIn ts l = true) (h : threadStep cfg s l = some s') : Untouched ts s' := by
  obtain ⟨a, pc, hp, hen, rfl⟩ := threadStep_eq_some.mp h
  rw [staysIn, Bool.and_eq_true] at hl
  intro t ht
  have hne : t ≠ l.1 := by
    rintro rfl
    exact ht (by simpa using hl.1)
  rw [step_pc, if_neg hne]
  cases a with
  | spawn child p =>
    obtain ⟨-, n, hch, hchild⟩ := program_spawn hp
    have hmem := hl.2
    simp only [hch, decide_eq_true_eq] at hmem
    have hc : t ≠ child := by
      rintro rfl
      rcases hchild with rfl | rfl | rfl
      · exact ht hmem.1
      · exact ht hmem.2.1
      · exact ht hmem.2.2
    exact (if_neg hc).trans (hu t ht)
  | _ => exact hu t ht

theorem Untouched.exec {ts : List Tid} {ls : List ThreadLabel} (hl : ∀ l ∈ ls, staysIn ts l = true)
    (h : Runs.exec (threadStep cfg) ThreadState.initial ls = some s) : Untouched ts s :=
  Runs.invariant (I := Untouched ts) h (Runs.along_of_forall fun l hm _ => hl l hm)
    (untouched_initial ts) fun _ _ _ hu hl hs => hu.step hl hs

/-- What holds of idle and unborn threads holds of all once it holds on `ts`. -/
theorem Untouched.all {ts : List Tid} {P : Pc → Bool → Prop} (hu : Untouched ts s)
    (hidle : ∀ b, P .idle b) (hunborn : ∀ b, P .unborn b)
    (hts : ∀ t ∈ ts, P (s.threads t).pc (s.threads t).stop) (t : Tid) :
    P (s.threads t).pc (s.threads t).stop := by
  by_cases ht : t ∈ ts
  · exact hts t ht
  · rw [hu t ht]
    cases t with
    | user n => exact hidle _
    | _ => exact hunborn _

end MqttNativeSocket
