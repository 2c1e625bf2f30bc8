import MqttNativeSocket.Client.Custody

/-! # Who attends to a connection

While a client is Connected it has a keepalive thread that nobody has asked to
stop, or a thread that is about to start one, or a `disconnect` that has not yet
said so. For the receive loop this rests on one condition: what a `connect`
stores in `recvThread` has not ended before.
-/

namespace MqttNativeSocket

variable {cfg : ThreadConfig} {s s' : ThreadState} {t t' u : Tid} {a : Action} {pc pc' : Pc}
  {ch : Choice} {l : ThreadLabel} {slot : Slot} {n : ℕ}

/-- The points of a receive loop before it has written Reconnecting. -/
def RecvPc.attends : RecvPc → Bool
  | .top => true
  | .reading => true
  | .ackLock => true
  | .ackSending _ => true
  | .failed => true
  | .lost => true
  | _ => false

/-- The points at which the thread of a member does its work. -/
def Slot.attends : Slot → Pc → Bool
  | .recvThread, .recv p => p.attends
  | .keepaliveThread, .keepalive _ => true
  | _, _ => false

/-- The points of `connect` from Connected up to the start of the thread. -/
def Slot.starting : Slot → ConnectPc → Bool
  | .recvThread, .resubscribe => true
  | .recvThread, .resubSending _ => true
  | .recvThread, .spawnRecv => true
  | .keepaliveThread, .resubscribe => true
  | .keepaliveThread, .resubSending _ => true
  | .keepaliveThread, .spawnRecv => true
  | .keepaliveThread, .assignRecv _ => true
  | .keepaliveThread, .joinRecv _ => true
  | .keepaliveThread, .spawnKeepalive => true
  | _, _ => false

/-- The points of `disconnect` from its stop request for the thread up to Disconnected. -/
def Slot.ending : Slot → DisconnectPc → Bool
  | .recvThread, .stopKeepalive => true
  | .reconnectThread, _ => false
  | _, .stopTransport => true
  | _, .close => true
  | _, .setDisconnected => true
  | _, _ => false

/-- A thread does the work of the member, is about to be started, or is no longer needed. -/
def Slot.Attended (slot : Slot) (s : ThreadState) : Prop :=
  (∃ n, (s.threads (slot.tid n)).stop = false ∧
      slot.attends (s.threads (slot.tid n)).pc = true) ∨
    (∃ t k p, (s.threads t).pc = .connect k p ∧ slot.starting p = true) ∨
    ∃ t again p, (s.threads t).pc = .disconnect again p ∧ slot.ending p = true

/-- The thread that is about to be stored. -/
def Pc.stores : Pc → Option (Slot × ℕ)
  | .connect _ (.assignRecv n) => some (.recvThread, n)
  | .connect _ (.assignKeepalive n) => some (.keepaliveThread, n)
  | .recv (.assignWorker n) => some (.reconnectThread, n)
  | _ => none

/-- A receive loop is stored before it has ended, or when the client is no longer Connected. -/
def StoresReading (s : ThreadState) (l : ThreadLabel) : Prop :=
  ∀ n, (s.threads l.1).pc.stores = some (.recvThread, n) → s.state = .connected →
    Slot.recvThread.attends (s.threads (.recv n)).pc = true

/-! ## The programs -/

theorem hands_of_stores (h : pc.stores = some (slot, n)) : pc.hands = some (slot, n) := by
  unfold Pc.stores at h
  split at h
  · exact h
  · exact h
  · exact h
  · contradiction

theorem not_attends_of_stores (h : pc.stores = some (slot, n)) : slot.attends pc = false := by
  unfold Pc.stores at h
  split at h
  · obtain ⟨rfl, rfl⟩ := Prod.mk.inj (Option.some.inj h)
    rfl
  · obtain ⟨rfl, rfl⟩ := Prod.mk.inj (Option.some.inj h)
    rfl
  · obtain ⟨rfl, rfl⟩ := Prod.mk.inj (Option.some.inj h)
    rfl
  · contradiction

theorem stores_of_start (h : pc.start = true) : pc.stores = none := by
  unfold Pc.start at h
  split at h
  · rfl
  · rfl
  · rfl
  · contradiction

@[simp] theorem Caller.resume_stores (k : Caller) (b : Bool) : (k.resume b).stores = none := by
  cases k <;> cases b <;> rfl

/-- A thread is stored by the one that has started it just before. -/
theorem stores_program (h : program cfg pc ch = some (a, pc'))
    (hs : pc'.stores = some (slot, n)) : ∃ p, a = .spawn (slot.tid n) p := by
  unfold program callProgram connectProgram disconnectProgram sendProgram recvProgram
    workerProgram keepaliveProgram at h
  repeat' split at h
  all_goals simp only [reduceCtorEq, Option.some.injEq, Prod.mk.injEq] at h
  all_goals obtain ⟨rfl, rfl⟩ := h
  all_goals try simp only [Caller.resume_stores] at hs
  all_goals simp only [Pc.stores, reduceCtorEq, Option.some.injEq, Prod.mk.injEq] at hs
  all_goals obtain ⟨rfl, rfl⟩ := hs
  all_goals exact ⟨_, rfl⟩

theorem assign_program {old : Option ℕ}
    (h : program cfg pc ch = some (.assign slot n old, pc')) : pc.stores = some (slot, n) := by
  unfold program callProgram connectProgram disconnectProgram sendProgram recvProgram
    workerProgram keepaliveProgram at h
  repeat' split at h
  all_goals simp only [reduceCtorEq, Option.some.injEq, Prod.mk.injEq, Action.assign.injEq,
    false_and] at h
  all_goals obtain ⟨⟨rfl, rfl, rfl⟩, -⟩ := h
  all_goals rfl

theorem requestStop_program (h : program cfg pc ch = some (.requestStop slot, pc')) :
    ∃ again p, pc' = .disconnect again p ∧ slot.ending p = true := by
  unfold program callProgram connectProgram disconnectProgram sendProgram recvProgram
    workerProgram keepaliveProgram at h
  repeat' split at h
  all_goals simp only [reduceCtorEq, Option.some.injEq, Prod.mk.injEq, Action.requestStop.injEq,
    false_and] at h
  all_goals obtain ⟨rfl, rfl⟩ := h
  all_goals exact ⟨_, _, rfl, rfl⟩

/-- A handshake that succeeds goes on to start both threads. -/
theorem starting_of_succeed (hslot : slot ≠ .reconnectThread)
    (h : program cfg pc ch = some (.succeed, pc')) :
    ∃ k p, pc' = .connect k p ∧ slot.starting p = true := by
  unfold program callProgram connectProgram disconnectProgram sendProgram recvProgram
    workerProgram keepaliveProgram at h
  repeat' split at h
  all_goals simp only [reduceCtorEq, Option.some.injEq, Prod.mk.injEq, false_and, true_and] at h
  all_goals subst h
  all_goals refine ⟨_, _, rfl, ?_⟩
  all_goals cases slot <;> first | rfl | contradiction

/-- At work, a thread goes on working, ends because it was asked to, or reports the loss. -/
theorem attends_program (h : program cfg pc ch = some (a, pc')) (hat : slot.attends pc = true) :
    slot.attends pc' = true ∨ a = .ifStopped ∨ a = .lose := by
  unfold Slot.attends at hat
  split at hat
  · simp only [program, recvProgram] at h
    repeat' split at h
    all_goals simp only [reduceCtorEq, Option.some.injEq, Prod.mk.injEq] at h
    all_goals obtain ⟨rfl, rfl⟩ := h
    all_goals simp_all [RecvPc.attends, Slot.attends]
  · simp only [program, keepaliveProgram] at h
    repeat' split at h
    all_goals simp only [reduceCtorEq, Option.some.injEq, Prod.mk.injEq] at h
    all_goals obtain ⟨rfl, rfl⟩ := h
    all_goals simp [Slot.attends]
  · contradiction

/-- On its way to start a thread, `connect` goes on, or starts it. -/
theorem starting_program {k : Caller} {p : ConnectPc}
    (h : program cfg (.connect k p) ch = some (a, pc')) (hst : slot.starting p = true) :
    (∃ p', pc' = .connect k p' ∧ slot.starting p' = true) ∨
      ∃ n q, a = .spawn (slot.tid n) q ∧ slot.attends q = true := by
  simp only [program, connectProgram] at h
  repeat' split at h
  all_goals simp only [reduceCtorEq, Option.some.injEq, Prod.mk.injEq] at h
  all_goals obtain ⟨rfl, rfl⟩ := h
  all_goals cases slot <;> first
    | exact .inl ⟨_, rfl, rfl⟩
    | exact .inr ⟨_, _, rfl, rfl⟩
    | contradiction

/-- Past its stop request, `disconnect` goes on until the client is Disconnected. -/
theorem ending_program {again : Bool} {p : DisconnectPc}
    (h : program cfg (.disconnect again p) ch = some (a, pc')) (hen : slot.ending p = true) :
    (∃ p', pc' = .disconnect again p' ∧ slot.ending p' = true) ∨
      a = .setState .disconnected := by
  simp only [program, disconnectProgram] at h
  repeat' split at h
  all_goals simp only [reduceCtorEq, Option.some.injEq, Prod.mk.injEq] at h
  all_goals obtain ⟨rfl, rfl⟩ := h
  all_goals cases slot <;> first
    | exact .inl ⟨_, rfl, rfl⟩
    | exact .inr rfl
    | contradiction

/-- A keepalive thread ends when it is asked to. -/
theorem keepalive_finished (h : program cfg pc ch = some (a, .finished))
    (hk : pc.kind = some .keepalive) : a = .ifStopped := by
  cases pc with
  | keepalive p =>
    simp only [program, keepaliveProgram] at h
    repeat' split at h
    all_goals simp only [reduceCtorEq, Option.some.injEq, Prod.mk.injEq, and_false, and_true] at h
    all_goals exact h.symm
  | connect k p => cases k <;> simp [Pc.kind, Caller.kind] at hk
  | _ => simp [Pc.kind] at hk

/-! ## One step -/

/-- A thread is newly asked to stop by who replaces it or by `disconnect`. -/
theorem stop_cases (hs : (s.threads (slot.tid n)).stop = false)
    (h : (((effect s t a).setPc t pc).threads (slot.tid n)).stop = true) :
    (∃ m, a = .assign slot m (some n)) ∨ a = .requestStop slot ∧ s.slots slot = some n := by
  rw [ThreadState.setPc_stop, effect_stop] at h
  cases a with
  | spawn child p =>
    dsimp only at h
    split at h
    · contradiction
    · rw [hs] at h
      contradiction
  | assign slot' m old =>
    simp only [hs, Bool.false_or, decide_eq_true_eq] at h
    obtain ⟨o, rfl, ho⟩ := Option.map_eq_some_iff.mp h
    obtain ⟨rfl, rfl⟩ := Slot.tid_inj ho
    exact .inl ⟨m, rfl⟩
  | requestStop slot' =>
    simp only [hs, Bool.false_or, decide_eq_true_eq] at h
    obtain ⟨o, hslot, ho⟩ := Option.map_eq_some_iff.mp h
    obtain ⟨rfl, rfl⟩ := Slot.tid_inj ho
    exact .inr ⟨rfl, hslot⟩
  | _ =>
    rw [hs] at h
    contradiction

/-- A thread that is asked to stop is stored, so it is in nobody's hands. -/
theorem slots_of_stop (hen : enabled s t a = true)
    (hs : (s.threads (slot.tid n)).stop = false)
    (h : (((effect s t a).setPc t pc).threads (slot.tid n)).stop = true) :
    s.slots slot = some n := by
  rcases stop_cases hs h with ⟨m, rfl⟩ | ⟨-, hslot⟩
  · simpa [enabled] using hen
  · exact hslot

/-- What is about to be stored has not been asked to stop, and a keepalive thread only ends then. -/
structure Unstopped (s : ThreadState) : Prop where
  stored : ∀ u slot n, (s.threads u).pc.stores = some (slot, n) →
    (s.threads (slot.tid n)).stop = false
  finished : ∀ n, (s.threads (.keepalive n)).pc = .finished → (s.threads (.keepalive n)).stop = true

namespace Unstopped

theorem initial : Unstopped ThreadState.initial where
  stored u slot n h := by
    rcases ThreadState.initial_pc u with hu | hu <;> simp [hu, Pc.stores] at h
  finished n h := by
    simp [ThreadState.initial, initialThread] at h

theorem stored_step (hc : Custody s) (hs : Unstopped s)
    (hp : program cfg (s.threads t).pc ch = some (a, pc)) (hen : enabled s t a = true)
    (h : (((effect s t a).setPc t pc).threads u).pc.stores = some (slot, n)) :
    (((effect s t a).setPc t pc).threads (slot.tid n)).stop = false := by
  rcases step_pc_other hp hen u with ⟨rfl, hu⟩ | ⟨-, hu⟩ | ⟨-, -, p, rfl, hu⟩
  · rw [hu] at h
    obtain ⟨p, rfl⟩ := stores_program hp h
    rw [ThreadState.setPc_stop, effect_stop]
    exact if_pos rfl
  · rw [hu] at h
    by_contra hstop
    have hslot := slots_of_stop hen (hs.stored u slot n h) (eq_true_of_ne_false hstop)
    exact hc.apart u slot n (hands_of_stores h) hslot
  · rw [hu, stores_of_start (program_spawn hp).1] at h
    contradiction

theorem finished_step (hc : Custody s) (hs : Unstopped s)
    (hp : program cfg (s.threads t).pc ch = some (a, pc)) (hen : enabled s t a = true)
    (h : (((effect s t a).setPc t pc).threads (.keepalive n)).pc = .finished) :
    (((effect s t a).setPc t pc).threads (.keepalive n)).stop = true := by
  rcases step_pc_other hp hen (.keepalive n) with ⟨rfl, hn⟩ | ⟨-, hn⟩ | ⟨-, -, p, rfl, hn⟩
  · obtain rfl : pc = .finished := hn.symm.trans h
    have hlive := (live_of_program hp).1
    rcases hc.kinds (.keepalive n) with hk | ⟨hdead | hdead, -⟩
    · obtain rfl := keepalive_finished hp hk
      exact step_stop hen hlive.1 hen
    · exact (hlive.1 hdead).elim
    · exact (hlive.2 hdead).elim
  · rw [hn] at h
    exact step_stop hen (by simp [h]) (hs.finished n h)
  · obtain rfl : p = .finished := hn.symm.trans h
    have hstart := (program_spawn hp).1
    simp [Pc.start] at hstart

theorem step (hc : Custody s) (hs : Unstopped s) (h : threadStep cfg s l = some s') :
    Unstopped s' := by
  obtain ⟨a, pc, hp, hen, rfl⟩ := threadStep_eq_some.mp h
  constructor
  · exact fun u slot n => hs.stored_step hc hp hen
  · exact fun n => hs.finished_step hc hp hen

/-- A keepalive thread is stored before it has ended. -/
theorem keepalive_attends (hc : Custody s) (hs : Unstopped s)
    (h : (s.threads t).pc.stores = some (.keepaliveThread, n)) :
    Slot.keepaliveThread.attends (s.threads (.keepalive n)).pc = true := by
  have hborn := hc.handed t .keepaliveThread n (hands_of_stores h)
  have hstop := hs.stored t .keepaliveThread n h
  rcases hc.kinds (.keepalive n) with hk | ⟨hdead | hdead, -⟩
  · cases hpc : (s.threads (.keepalive n)).pc with
    | keepalive p => rfl
    | connect k p => cases k <;> simp [hpc, Pc.kind, Caller.kind, Tid.kind] at hk
    | _ => simp [hpc, Pc.kind, Tid.kind] at hk
  · exact (hborn hdead).elim
  · have := hs.finished n hdead
    simp_all [Slot.tid]

end Unstopped

namespace Slot.Attended

/-- The thread at work may lose its member to the next one, or to `disconnect`. -/
theorem working_step (hc : Custody s) (hs : Unstopped s)
    (hp : program cfg (s.threads t).pc ch = some (a, pc)) (hen : enabled s t a = true)
    (hstored : ∀ m, (s.threads t).pc.stores = some (slot, m) →
      slot.attends (s.threads (slot.tid m)).pc = true)
    (hstop : (s.threads (slot.tid n)).stop = false)
    (hat : slot.attends (s.threads (slot.tid n)).pc = true) (hlose : a ≠ .lose) :
    slot.Attended ((effect s t a).setPc t pc) := by
  by_cases h : (((effect s t a).setPc t pc).threads (slot.tid n)).stop = true
  · rcases stop_cases hstop h with ⟨m, rfl⟩ | ⟨rfl, -⟩
    · have hm := assign_program hp
      have hunstopped := hs.stored t slot m hm
      have hne : s.slots slot ≠ some m := hc.apart t slot m (hands_of_stores hm)
      have hself : slot.tid m ≠ t := by
        rintro rfl
        exact Bool.false_ne_true ((not_attends_of_stores hm).symm.trans (hstored m hm))
      refine .inl ⟨m, ?_, ?_⟩
      · by_contra hstop'
        exact hne (slots_of_stop hen hunstopped (eq_true_of_ne_false hstop'))
      · rw [step_pc, if_neg hself]
        exact hstored m hm
    · obtain ⟨again, p, rfl, hend⟩ := requestStop_program hp
      exact .inr (.inr ⟨t, again, p, ThreadState.setPc_self .., hend⟩)
  · refine .inl ⟨n, by simpa using h, ?_⟩
    rcases step_pc_other hp hen (slot.tid n) with ⟨rfl, hn⟩ | ⟨-, hn⟩ | ⟨-, hu, -⟩
    · rw [hn]
      rcases attends_program hp hat with hat | rfl | rfl
      · exact hat
      · exact (Bool.false_ne_true (hstop.symm.trans hen)).elim
      · exact (hlose rfl).elim
    · rw [hn]
      exact hat
    · rw [hu] at hat
      cases slot <;> contradiction

theorem step (hc : Custody s) (hs : Unstopped s) (hslot : slot ≠ .reconnectThread)
    (hp : program cfg (s.threads t).pc ch = some (a, pc)) (hen : enabled s t a = true)
    (hstored : ∀ m, (s.threads t).pc.stores = some (slot, m) → s.state = .connected →
      slot.attends (s.threads (slot.tid m)).pc = true)
    (hat : s.state = .connected → slot.Attended s)
    (hconn : ((effect s t a).setPc t pc).state = .connected) :
    slot.Attended ((effect s t a).setPc t pc) := by
  by_cases hsucc : a = .succeed
  · subst hsucc
    obtain ⟨k, p, rfl, hst⟩ := starting_of_succeed hslot hp
    exact .inr (.inl ⟨t, k, p, ThreadState.setPc_self .., hst⟩)
  have hbefore : s.state = .connected := by
    by_contra hno
    exact step_state_ne_connected hp hsucc hno hconn
  rw [ThreadState.setPc_state, effect_state] at hconn
  rcases hat hbefore with ⟨n, hstop, hat⟩ | ⟨u, k, p, hu, hst⟩ | ⟨u, again, p, hu, hend⟩
  · refine working_step hc hs hp hen (fun m hm => hstored m hm hbefore) hstop hat ?_
    rintro rfl
    contradiction
  · rcases step_pc_other hp hen u with ⟨rfl, hpc⟩ | ⟨-, hpc⟩ | ⟨-, hnone, -⟩
    · rw [hu] at hp
      rcases starting_program hp hst with ⟨p', rfl, hst⟩ | ⟨n, q, rfl, hat⟩
      · exact .inr (.inl ⟨u, k, p', hpc, hst⟩)
      · have hborn : (s.threads (slot.tid n)).pc = .unborn := by simpa [enabled] using hen
        have hne : slot.tid n ≠ u := by
          rintro rfl
          rw [hu] at hborn
          contradiction
        refine .inl ⟨n, ?_, ?_⟩
        · rw [ThreadState.setPc_stop, effect_stop]
          exact if_pos rfl
        · rw [step_pc, if_neg hne]
          exact (congrArg slot.attends (if_pos rfl)).trans hat
    · exact .inr (.inl ⟨u, k, p, hpc.trans hu, hst⟩)
    · rw [hu] at hnone
      contradiction
  · rcases step_pc_other hp hen u with ⟨rfl, hpc⟩ | ⟨-, hpc⟩ | ⟨-, hnone, -⟩
    · rw [hu] at hp
      rcases ending_program hp hend with ⟨p', rfl, hend⟩ | rfl
      · exact .inr (.inr ⟨u, again, p', hpc, hend⟩)
      · contradiction
    · exact .inr (.inr ⟨u, again, p, hpc.trans hu, hend⟩)
    · rw [hu] at hnone
      contradiction

end Slot.Attended

/-! ## Runs -/

/-- What holds in every state of every run. -/
structure Tended (s : ThreadState) : Prop where
  custody : Custody s
  unstopped : Unstopped s
  keepalive : s.state = .connected → Slot.keepaliveThread.Attended s

theorem Tended.initial : Tended ThreadState.initial where
  custody := Custody.initial
  unstopped := Unstopped.initial
  keepalive := nofun

theorem Tended.step (hs : Tended s) (h : threadStep cfg s l = some s') : Tended s' := by
  refine ⟨hs.custody.step h, hs.unstopped.step hs.custody h, ?_⟩
  obtain ⟨a, pc, hp, hen, rfl⟩ := threadStep_eq_some.mp h
  apply Slot.Attended.step hs.custody hs.unstopped (by decide) hp hen
  · exact fun m hm _ => hs.unstopped.keepalive_attends hs.custody hm
  · exact hs.keepalive

/--
Whenever the client is Connected, a keepalive thread is at work, or is about to be started, or a
`disconnect` is about to write Disconnected. The same goes for the receive loop, in runs in which
no `connect` stores a loop that has already ended.
-/
theorem connected_attended (cfg : ThreadConfig) (ls : List ThreadLabel) (s : ThreadState)
    (h : Runs.exec (threadStep cfg) ThreadState.initial ls = some s)
    (hconn : s.state = .connected) :
    Slot.keepaliveThread.Attended s ∧
      (Runs.Along (threadStep cfg) StoresReading ThreadState.initial ls →
        Slot.recvThread.Attended s) := by
  constructor
  · have hs : Tended s := Runs.always h Tended.initial fun _ _ _ hs hstep => hs.step hstep
    exact hs.keepalive hconn
  · intro hc
    have hstep : ∀ s l s', (Tended s ∧ (s.state = .connected → Slot.recvThread.Attended s)) →
        StoresReading s l → threadStep cfg s l = some s' →
        Tended s' ∧ (s'.state = .connected → Slot.recvThread.Attended s') := by
      rintro s l s' ⟨hs, hrecv⟩ hl hstep
      constructor
      · exact hs.step hstep
      · obtain ⟨a, pc, hp, hen, rfl⟩ := threadStep_eq_some.mp hstep
        exact Slot.Attended.step hs.custody hs.unstopped (by decide) hp hen hl hrecv
    exact (Runs.invariant h hc ⟨Tended.initial, fun hno => by contradiction⟩ hstep).2 hconn

/-- A computable form of the condition. -/
def storesReading (s : ThreadState) (l : ThreadLabel) : Bool :=
  match (s.threads l.1).pc with
  | .connect _ (.assignRecv n) => Slot.recvThread.attends (s.threads (.recv n)).pc
  | _ => true

theorem storesReading_of_check (s : ThreadState) (l : ThreadLabel) (h : storesReading s l = true) :
    StoresReading s l := by
  intro n hn _
  unfold Pc.stores at hn
  split at hn
  · next hpc =>
    obtain rfl := (Prod.mk.inj (Option.some.inj hn)).2
    rwa [storesReading, hpc] at h
  all_goals simp at hn

/-- The worker reconnects after a loss, and its receive loop takes the place of the first. -/
def reconnected : List ThreadLabel :=
  [oneLoss, workerRun.drop 4, connectRun (.worker 0) 1 (some 0) [(.keepalive 0, .yes)]].flatten

theorem connected_attended_reconnected :
    ∃ s, Runs.exec (threadStep {}) ThreadState.initial reconnected = some s ∧
      s.state = .connected ∧ Slot.keepaliveThread.Attended s ∧ Slot.recvThread.Attended s := by
  have hrun : (Runs.exec (threadStep {}) ThreadState.initial reconnected).map ThreadState.state =
      some .connected := by decide +kernel
  obtain ⟨s, hs, hconn⟩ := Option.map_eq_some_iff.mp hrun
  have hc : Runs.Along (threadStep {}) StoresReading ThreadState.initial reconnected :=
    Runs.along_of_check (I := fun _ => True) (c := storesReading) (by decide +kernel) trivial
      (fun s l _ h => storesReading_of_check s l h) fun _ _ _ _ _ _ => trivial
  obtain ⟨hkeepalive, hrecv⟩ := connected_attended {} reconnected s hs hconn
  exact ⟨s, hs, hconn, hkeepalive, hrecv hc⟩

/--
User 0 has started receive loop 0 and not stored it when the loop loses the connection. Worker 0
reconnects and stores loop 1. Then user 0 stores loop 0, which has ended, and stops loop 1.
-/
def storedTooLate : List ThreadLabel :=
  [[(.user 0, .call .connect)], (connectRun (.user 0) 0 none []).take 11, lossRun 0, workerRun,
    connectRun (.worker 0) 1 none [],
    [(.user 0, .replace (some 1)), (.recv 1, .yes), (.user 0, .go), (.user 0, .fresh 0),
      (.user 0, .replace (some 1)), (.keepalive 1, .yes), (.user 0, .go)]].flatten

/-- No receive loop, and nobody inside `connect` or `disconnect`. -/
def Pc.unattending : Pc → Bool
  | .connect _ _ => false
  | .disconnect _ _ => false
  | .recv _ => false
  | _ => true

theorem not_attended_of_unattending (h : ∀ t, (s.threads t).pc.unattending = true) :
    ¬ Slot.recvThread.Attended s := by
  rintro (⟨n, -, hat⟩ | ⟨t, k, p, ht, -⟩ | ⟨t, again, p, ht, -⟩)
  · have hn := h (.recv n)
    cases hpc : (s.threads (.recv n)).pc <;>
      simp_all [Slot.attends, Slot.tid, Pc.unattending]
  · have hn := h t
    simp [ht, Pc.unattending] at hn
  · have hn := h t
    simp [ht, Pc.unattending] at hn

/-- Then the client stays Connected with nobody to see the end of the connection. -/
theorem connected_unattended :
    ∃ ls s, Runs.exec (threadStep {}) ThreadState.initial ls = some s ∧
      s.state = .connected ∧ s.fd.isSome ∧ ¬ Slot.recvThread.Attended s := by
  have hrun : (Runs.exec (threadStep {}) ThreadState.initial storedTooLate).map (fun s =>
      (s.state, s.fd.isSome, sampleThreads.all fun t => (s.threads t).pc.unattending)) =
      some (.connected, true, true) := by decide +kernel
  obtain ⟨s, hs, hv⟩ := Option.map_eq_some_iff.mp hrun
  simp only [Prod.mk.injEq, List.all_eq_true] at hv
  obtain ⟨hconn, hfd, hall⟩ := hv
  have hu : Untouched sampleThreads s := Untouched.exec (by decide +kernel) hs
  refine ⟨storedTooLate, s, hs, hconn, hfd, not_attended_of_unattending ?_⟩
  exact hu.all (P := fun pc _ => pc.unattending = true) (fun _ => rfl) (fun _ => rfl) hall

end MqttNativeSocket
