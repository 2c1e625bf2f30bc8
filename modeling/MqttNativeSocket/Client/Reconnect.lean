import MqttNativeSocket.Client.Steps

/-! # Losses and the reconnect worker

When a receive loop has handed a loss to `scheduleReconnect`, some worker should
still be in its loop and find the request. `scheduleReconnect` only looks at
`joinable()`, which stays true for a worker that has left its loop, so a later
loss can be left without one. The results say when that does not happen.
-/

namespace MqttNativeSocket

/-- The points of `connect` up to the write of Connected. -/
def ConnectPc.beforeSuccess : ConnectPc → Bool
  | .resubscribe => false
  | .resubSending _ => false
  | .spawnRecv => false
  | .assignRecv _ => false
  | .joinRecv _ => false
  | .spawnKeepalive => false
  | .assignKeepalive _ => false
  | .joinKeepalive _ => false
  | _ => true

/-- A worker that tests its loop condition again unless the handshake it is in succeeds. -/
def Pc.inLoop : Pc → Bool
  | .worker _ _ => true
  | .connect (.worker _) p => p.beforeSuccess
  | _ => false

/-- A worker that has taken a request and sets a new one unless its handshake succeeds. -/
def Pc.serving : Pc → Bool
  | .worker .top _ => false
  | .worker .wait _ => false
  | .worker _ _ => true
  | .connect (.worker _) p => p.beforeSuccess
  | _ => false

/-- A receive loop that has set Reconnecting, up to its end. -/
def Pc.afterLoss : Pc → Bool
  | .recv .notify => true
  | .recv .joinable => true
  | .recv .spawnWorker => true
  | .recv (.assignWorker _) => true
  | .recv (.joinWorker _) => true
  | .finished => true
  | _ => false

/-- A receive loop that has a worker for its loss, or believes so. -/
def Pc.handedOver : Pc → Bool
  | .recv (.assignWorker _) => true
  | .recv (.joinWorker _) => true
  | .finished => true
  | _ => false

/-- Worker `w` is in its loop and has not been asked to leave it. -/
def ThreadState.Running (s : ThreadState) (w : ℕ) : Prop :=
  (s.threads (.worker w)).pc.inLoop = true ∧ (s.threads (.worker w)).stop = false

/-- A request is set, or a worker is serving one. -/
def ThreadState.Requested (s : ThreadState) : Prop :=
  s.reconnectRequested = true ∨ ∃ t, (s.threads t).pc.serving = true

/-- Every receive loop that ended with a loss since the last successful handshake has a worker. -/
def LossesServed (s : ThreadState) : Prop :=
  ∀ t, (s.threads t).pc = .finished → (s.threads t).lossAt = some s.successes →
    (∃ w, s.Running w) ∧ s.Requested

/--
The step is not one of two: a receive loop with a current loss that finds `joinable()` true while
no worker is in its loop, and an assignment that stops the only worker in its loop.
-/
def KeepsWorker (s : ThreadState) (l : ThreadLabel) : Prop :=
  ((s.threads l.1).pc = .recv .joinable → (s.threads l.1).lossAt = some s.successes →
    (s.slots .reconnectThread).isSome = true → ∃ w, s.Running w) ∧
  ∀ w o, (s.threads l.1).pc = .recv (.assignWorker w) → s.slots .reconnectThread = some o →
    s.Running o → ∃ w', w' ≠ o ∧ s.Running w'

structure LossInv (s : ThreadState) : Prop where
  counted : ∀ t n, (s.threads t).lossAt = some n → n ≤ s.successes
  afterLoss : ∀ t n, (s.threads t).lossAt = some n → (s.threads t).pc.afterLoss = true
  down : ∀ t, (s.threads t).lossAt = some s.successes → s.state ≠ .connected
  requested : ∀ t, (s.threads t).lossAt = some s.successes →
    (s.threads t).pc ≠ .recv .notify → s.Requested
  running : ∀ t, (s.threads t).lossAt = some s.successes →
    (s.threads t).pc.handedOver = true → ∃ w, s.Running w

variable {cfg : ThreadConfig} {s : ThreadState} {t : Tid} {a : Action} {pc pc' : Pc} {ch : Choice}

theorem Pc.inLoop_iff : pc.inLoop = true ↔ (∃ p n, pc = .worker p n) ∨
    ∃ n p, pc = .connect (.worker n) p ∧ p.beforeSuccess = true := by
  cases pc with
  | connect k p => cases k <;> simp [Pc.inLoop]
  | _ => simp [Pc.inLoop]

/-- Before the write of Connected, a call of `connect` goes on, comes back with an error, or
has found the client connected. -/
theorem connectProgram_worker {n : UInt32} {p : ConnectPc} (hp : p.beforeSuccess = true)
    (h : connectProgram cfg (.worker n) p ch = some (a, pc')) :
    a = .succeed ∨ pc' = .worker .rearm n ∨
      ∃ p', p'.beforeSuccess = true ∧ pc' = .connect (.worker n) p' := by
  unfold connectProgram at h
  split at h
  all_goals simp only [reduceCtorEq, Option.some.injEq, Prod.mk.injEq, ConnectPc.beforeSuccess,
    Bool.false_eq_true] at h hp
  all_goals (obtain ⟨rfl, rfl⟩ := h; simp [Caller.resume, ConnectPc.beforeSuccess])

theorem inLoop_program (h : program cfg pc ch = some (a, pc')) (hl : pc.inLoop = true)
    (hmax : cfg.maxRetries = 0) :
    pc'.inLoop = true ∨ a = .succeed ∨ a = .ifStopped ∨ a = .ifState .connected := by
  rcases Pc.inLoop_iff.mp hl with ⟨p, n, rfl⟩ | ⟨n, p, rfl, hp⟩
  · simp only [program] at h
    unfold workerProgram at h
    repeat' split at h
    all_goals simp only [reduceCtorEq, Option.some.injEq, Prod.mk.injEq] at h
    all_goals (obtain ⟨rfl, rfl⟩ := h)
    all_goals simp_all [Pc.inLoop, ConnectPc.beforeSuccess]
  · rcases connectProgram_worker hp h with rfl | rfl | ⟨p', hp', rfl⟩
    · exact .inr (.inl rfl)
    · exact .inl rfl
    · exact .inl hp'

theorem Pc.serving_iff : pc.serving = true ↔
    (∃ p n, pc = .worker p n ∧ p ≠ .top ∧ p ≠ .wait) ∨
      ∃ n p, pc = .connect (.worker n) p ∧ p.beforeSuccess = true := by
  cases pc with
  | connect k p => cases k <;> simp [Pc.serving]
  | worker p n => cases p <;> simp [Pc.serving]
  | _ => simp [Pc.serving]

theorem serving_program (h : program cfg pc ch = some (a, pc')) (hl : pc.serving = true)
    (hmax : cfg.maxRetries = 0) :
    pc'.serving = true ∨ a = .succeed ∨ a = .rearm ∨ a = .ifState .connected := by
  rcases Pc.serving_iff.mp hl with ⟨p, n, rfl, htop, hwait⟩ | ⟨n, p, rfl, hp⟩
  · simp only [program] at h
    unfold workerProgram at h
    repeat' split at h
    all_goals simp only [reduceCtorEq, Option.some.injEq, Prod.mk.injEq] at h
    all_goals (obtain ⟨rfl, rfl⟩ := h)
    all_goals simp_all [Pc.serving, ConnectPc.beforeSuccess]
  · rcases connectProgram_worker hp h with rfl | rfl | ⟨p', hp', rfl⟩
    · exact .inr (.inl rfl)
    · exact .inl rfl
    · exact .inl hp'

theorem takeRequest_serving (h : program cfg pc ch = some (.takeRequest, pc')) :
    pc'.serving = true := by
  unfold program callProgram connectProgram disconnectProgram sendProgram recvProgram
    workerProgram keepaliveProgram at h
  repeat' split at h
  all_goals simp only [reduceCtorEq, Option.some.injEq, Prod.mk.injEq, false_and] at h
  all_goals (obtain ⟨-, rfl⟩ := h; rfl)

/-- The way of a receive loop through `scheduleReconnect`. -/
inductive Scheduling : Pc → Action → Pc → Prop where
  | notify : Scheduling (.recv .notify) .notify (.recv .joinable)
  | joinable : Scheduling (.recv .joinable) .ifJoinable .finished
  | notJoinable : Scheduling (.recv .joinable) .unlessJoinable (.recv .spawnWorker)
  | spawn (w : ℕ) : Scheduling (.recv .spawnWorker) (.spawn (.worker w) (.worker .top 0))
      (.recv (.assignWorker w))
  | assign (w : ℕ) (old : Option ℕ) : Scheduling (.recv (.assignWorker w))
      (.assign .reconnectThread w old) (.recv (.joinWorker old))
  | join (old : Option ℕ) : Scheduling (.recv (.joinWorker old)) (.join (old.map .worker)) .finished

theorem afterLoss_program (h : program cfg pc ch = some (a, pc')) (hl : pc.afterLoss = true) :
    Scheduling pc a pc' := by
  cases pc with
  | recv p =>
    simp only [program] at h
    unfold recvProgram at h
    split at h
    all_goals simp only [Pc.afterLoss, reduceCtorEq, Option.some.injEq, Prod.mk.injEq,
      Bool.false_eq_true] at h hl
    all_goals (obtain ⟨rfl, rfl⟩ := h; constructor)
  | finished => simp [program] at h
  | _ => simp [Pc.afterLoss] at hl

theorem Scheduling.afterLoss (h : Scheduling pc a pc') : pc'.afterLoss = true := by
  cases h <;> rfl

theorem Scheduling.eq_notify (h : Scheduling pc a pc') (hpc : pc = .recv .notify) :
    a = .notify := by
  subst hpc
  cases h
  rfl

/-- A receive loop comes to have a worker by finding one or by starting one. -/
theorem Scheduling.handedOver (h : Scheduling pc a pc') (hh : pc'.handedOver = true) :
    pc.handedOver = true ∨ (pc = .recv .joinable ∧ a = .ifJoinable) ∨
      ∃ w, pc = .recv .spawnWorker ∧ a = .spawn (.worker w) (.worker .top 0) := by
  cases h with
  | notify => simp [Pc.handedOver] at hh
  | notJoinable => simp [Pc.handedOver] at hh
  | joinable => exact .inr (.inl ⟨rfl, rfl⟩)
  | spawn w => exact .inr (.inr ⟨w, rfl, rfl⟩)
  | assign w old => exact .inl rfl
  | join old => exact .inl rfl

theorem lose_program (hrec : cfg.reconnectEnabled = true)
    (h : program cfg pc ch = some (.lose, pc')) : pc' = .recv .notify := by
  unfold program callProgram connectProgram disconnectProgram sendProgram recvProgram
    workerProgram keepaliveProgram at h
  repeat' split at h
  all_goals simp only [reduceCtorEq, Option.some.injEq, Prod.mk.injEq, false_and, true_and] at h
  · exact h.symm
  · rename_i hne
    exact (hne hrec).elim

section step

variable (hmax : cfg.maxRetries = 0) (hp : program cfg (s.threads t).pc ch = some (a, pc))
  (hen : enabled s t a = true) (hdown : s.state ≠ .connected) (hsucc : a ≠ .succeed)
include hmax hp hen hdown hsucc

/-- While the client is down, a step leaves a running worker if there was one. -/
theorem running_step (hk : KeepsWorker s (t, ch)) {w : ℕ} (hw : s.Running w) :
    ∃ w', ((effect s t a).setPc t pc).Running w' := by
  -- an assignment may stop `w`; then the condition gives another worker
  obtain ⟨w, hw, hnot⟩ : ∃ w, s.Running w ∧
      ∀ slot n old, a = .assign slot n old → old.map slot.tid ≠ some (.worker w) := by
    by_cases ha : ∃ n, a = .assign .reconnectThread n (some w)
    · obtain ⟨n, rfl⟩ := ha
      have hslot : s.slots .reconnectThread = some w := by simpa [enabled] using hen
      obtain ⟨w', hne, hw'⟩ := hk.2 n w (program_assign hp rfl) hslot hw
      refine ⟨w', hw', ?_⟩
      rintro slot n' old ⟨⟩
      simpa [Slot.tid] using hne.symm
    · refine ⟨w, hw, ?_⟩
      rintro slot n (_ | o) rfl h
      · simp at h
      · cases slot <;> simp [Slot.tid] at h
        exact ha ⟨n, by rw [h]⟩
  obtain ⟨hloop, hstop⟩ := hw
  have hborn : (s.threads (.worker w)).pc ≠ .unborn := by
    intro h
    rw [h] at hloop
    simp [Pc.inLoop] at hloop
  refine ⟨w, ?_, ?_⟩
  · by_cases htw : .worker w = t
    · subst htw
      rw [ThreadState.setPc_self]
      rcases inLoop_program hp hloop hmax with h | h | rfl | rfl
      · exact h
      · exact (hsucc h).elim
      · simp [enabled, hstop] at hen
      · simp [enabled, hdown] at hen
    · rwa [step_pc_of_ne hen htw hborn]
  · rw [ThreadState.setPc_stop, effect_stop]
    cases a with
    | spawn child pc => simp [hstop]
    | assign slot n old => simp [hstop, hnot slot n old rfl]
    | requestStop slot =>
      have hne := program_requestStop hp
      cases hs : s.slots slot <;> cases slot <;> simp_all [Slot.tid]
    | _ => exact hstop

/-- While the client is down, a request is taken up and set again, but not lost. -/
theorem requested_step (hr : s.Requested) : ((effect s t a).setPc t pc).Requested := by
  rcases hr with hr | ⟨t', ht'⟩
  · rw [ThreadState.Requested, ThreadState.setPc_requested, effect_requested]
    cases a with
    | takeRequest => exact .inr ⟨t, by rw [ThreadState.setPc_self]; exact takeRequest_serving hp⟩
    | notify => exact .inl rfl
    | rearm => exact .inl rfl
    | _ => exact .inl hr
  · have hborn : (s.threads t').pc ≠ .unborn := by
      intro h
      rw [h] at ht'
      simp [Pc.serving] at ht'
    by_cases htt : t' = t
    · subst htt
      rcases serving_program hp ht' hmax with h | h | rfl | rfl
      · exact .inr ⟨t', by rwa [ThreadState.setPc_self]⟩
      · exact (hsucc h).elim
      · exact .inl rfl
      · simp [enabled, hdown] at hen
    · exact .inr ⟨t', by rwa [step_pc_of_ne hen htt hborn]⟩

end step

/-- A successful handshake makes every earlier loss an old one. -/
theorem LossInv.no_current_after_success (hi : LossInv s) (t' : Tid) :
    (((effect s t .succeed).setPc t pc).threads t').lossAt ≠ some (s.successes + 1) := by
  rw [ThreadState.setPc_lossAt, effect_lossAt]
  intro h
  have := hi.counted t' _ h
  omega

/-- The loss record of a thread after a step is the old one or that of a loss just now. -/
theorem lossAt_step (t' : Tid) {n : ℕ}
    (h : (((effect s t a).setPc t pc).threads t').lossAt = some n) :
    (s.threads t').lossAt = some n ∨ (a = .lose ∧ t' = t ∧ n = s.successes) := by
  rw [ThreadState.setPc_lossAt, effect_lossAt] at h
  cases a with
  | lose =>
    by_cases ht : t' = t
    · simp only [ht, if_true, Option.some.injEq] at h
      exact .inr ⟨rfl, ht, h.symm⟩
    · exact .inl (by simpa [ht] using h)
  | spawn child p =>
    by_cases ht : t' = child
    · simp [ht] at h
    · exact .inl (by simpa [ht] using h)
  | _ => exact .inl h

theorem LossInv.born (hi : LossInv s) {t' : Tid} {n : ℕ} (h : (s.threads t').lossAt = some n) :
    (s.threads t').pc ≠ .unborn := by
  intro hb
  have := hi.afterLoss t' n h
  rw [hb] at this
  simp [Pc.afterLoss] at this

theorem LossInv.step (hrec : cfg.reconnectEnabled = true) (hmax : cfg.maxRetries = 0)
    (hi : LossInv s) (hk : KeepsWorker s (t, ch))
    (hp : program cfg (s.threads t).pc ch = some (a, pc)) (hen : enabled s t a = true) :
    LossInv ((effect s t a).setPc t pc) := by
  have hafter : ∀ t' n, (((effect s t a).setPc t pc).threads t').lossAt = some n →
      (((effect s t a).setPc t pc).threads t').pc.afterLoss = true := by
    intro t' n h
    rcases lossAt_step t' h with hold | ⟨rfl, rfl, -⟩
    · by_cases ht : t' = t
      · subst ht
        rw [ThreadState.setPc_self]
        exact (afterLoss_program hp (hi.afterLoss t' n hold)).afterLoss
      · rw [step_pc_of_ne hen ht (hi.born hold)]
        exact hi.afterLoss t' n hold
    · rw [ThreadState.setPc_self, lose_program hrec hp]
      rfl
  by_cases hsucc : a = .succeed
  · subst hsucc
    have hnone : ∀ t', (((effect s t .succeed).setPc t pc).threads t').lossAt ≠
        some (s.successes + 1) := hi.no_current_after_success
    refine ⟨fun t' n h => ?_, hafter, fun t' h => (hnone t' h).elim, fun t' h => (hnone t' h).elim,
      fun t' h => (hnone t' h).elim⟩
    rcases lossAt_step t' h with hold | ⟨⟨⟩, -⟩
    exact Nat.le_succ_of_le (hi.counted t' n hold)
  have hsame : ((effect s t a).setPc t pc).successes = s.successes := by
    rw [ThreadState.setPc_successes, effect_successes, if_neg hsucc]
  refine ⟨fun t' n h => ?_, hafter, fun t' h => ?_, fun t' h hnot => ?_, fun t' h hhand => ?_⟩
  · rw [hsame]
    rcases lossAt_step t' h with hold | ⟨-, -, rfl⟩
    · exact hi.counted t' n hold
    · exact le_rfl
  · rw [hsame] at h
    rcases lossAt_step t' h with hold | ⟨rfl, -, -⟩
    · exact step_state_ne_connected hp hsucc (hi.down t' hold)
    · simp [effect_state]
  · rw [hsame] at h
    rcases lossAt_step t' h with hold | ⟨rfl, rfl, -⟩
    · have hdown := hi.down t' hold
      by_cases hnotify : (s.threads t').pc = .recv .notify
      · by_cases ht : t' = t
        · subst ht
          obtain rfl := (afterLoss_program hp (hi.afterLoss t' _ hold)).eq_notify hnotify
          exact .inl rfl
        · rw [step_pc_of_ne hen ht (hi.born hold)] at hnot
          exact (hnot hnotify).elim
      · exact requested_step hmax hp hen hdown hsucc (hi.requested t' hold hnotify)
    · rw [ThreadState.setPc_self, lose_program hrec hp] at hnot
      exact (hnot rfl).elim
  · rw [hsame] at h
    rcases lossAt_step t' h with hold | ⟨rfl, rfl, -⟩
    · have hdown := hi.down t' hold
      by_cases hprev : (s.threads t').pc.handedOver = true
      · obtain ⟨w, hw⟩ := hi.running t' hold hprev
        exact running_step hmax hp hen hdown hsucc hk hw
      · by_cases ht : t' = t
        · subst ht
          rw [ThreadState.setPc_self] at hhand
          have hloss := hi.afterLoss t' _ hold
          rcases (afterLoss_program hp hloss).handedOver hhand with h | ⟨hpc, rfl⟩ | ⟨w, hpc, rfl⟩
          · exact (hprev h).elim
          · -- a worker is found joinable; by the condition on the step one is in its loop
            obtain ⟨w, hw⟩ := hk.1 hpc hold hen
            exact running_step hmax hp hen hdown hsucc hk hw
          · -- the worker just started
            have hne : Tid.worker w ≠ t' := by
              rintro rfl
              simp [enabled, hpc] at hen
            refine ⟨w, ?_, ?_⟩
            · rw [ThreadState.setPc_of_ne _ _ hne, effect_pc]
              simp [Pc.inLoop]
            · rw [ThreadState.setPc_stop, effect_stop]
              simp
        · rw [step_pc_of_ne hen ht (hi.born hold)] at hhand
          exact (hprev hhand).elim
    · rw [ThreadState.setPc_self, lose_program hrec hp] at hhand
      simp [Pc.handedOver] at hhand

theorem LossInv.initial : LossInv ThreadState.initial := by
  have h : ∀ t, (ThreadState.initial.threads t).lossAt = none := fun t => by cases t <;> rfl
  refine ⟨?_, ?_, ?_, ?_, ?_⟩ <;> intro t <;> simp [h]

/--
In a run whose every step keeps a worker, each loss that a receive loop has finished with, and
that no successful handshake has followed, has a worker in its loop and a request for it.
-/
theorem losses_served (cfg : ThreadConfig) (hrec : cfg.reconnectEnabled = true)
    (hmax : cfg.maxRetries = 0) (ls : List ThreadLabel) (s : ThreadState)
    (hk : Runs.Along (threadStep cfg) KeepsWorker ThreadState.initial ls)
    (h : Runs.exec (threadStep cfg) ThreadState.initial ls = some s) : LossesServed s := by
  have hi : LossInv s := by
    refine Runs.invariant h hk LossInv.initial fun s l s' hi hk hs => ?_
    obtain ⟨a, pc, hp, hen, rfl⟩ := threadStep_eq_some.mp hs
    exact hi.step hrec hmax hk hp hen
  intro t hpc hloss
  exact ⟨hi.running t hloss (by rw [hpc]; rfl), hi.requested t hloss (by simp [hpc])⟩

/-! ## A second loss -/

/-- Thread `t` runs the publisher's `connect` to its end on socket `n`, starting loops `n`. -/
def connectRun (t : Tid) (n : ℕ) (old : Option ℕ) (stopOld : List ThreadLabel) :
    List ThreadLabel :=
  [(t, .no), (t, .go), (t, .go), (t, .fresh n), (t, .ok), (t, .go), (t, .more), (t, .ok),
    (t, .ok), (t, .go), (t, .fresh n), (t, .replace old), (t, .go), (t, .fresh n),
    (t, .replace old)] ++ stopOld ++ [(t, .go)]

/-- Threads enough for two connections. -/
def sampleThreads : List Tid :=
  [.user 0, .user 1, .recv 0, .recv 1, .keepalive 0, .keepalive 1, .worker 0, .worker 1]

/-- Receive loop `r` loses its connection and calls `scheduleReconnect`. -/
def lossRun (r : ℕ) : List ThreadLabel :=
  [(.recv r, .no), (.recv r, .error), (.recv r, .no), (.recv r, .go), (.recv r, .go)]

/-- Receive loop 0 finds no worker, and the worker it starts goes into its first attempt. -/
def workerRun : List ThreadLabel :=
  [(.recv 0, .no), (.recv 0, .fresh 0), (.recv 0, .replace none), (.recv 0, .go),
    (.worker 0, .no), (.worker 0, .go), (.worker 0, .no), (.worker 0, .go)]

/-- Worker 0 reconnects after the first loss; the second loss finds it joinable and starts none. -/
def twoLosses : List ThreadLabel :=
  [[(.user 0, .call .connect)], connectRun (.user 0) 0 none [], lossRun 0, workerRun,
    connectRun (.worker 0) 1 (some 0) [(.keepalive 0, .yes)], lossRun 1,
    [(.recv 1, .yes)]].flatten

/-- The run up to the point where the first loss has its worker. -/
def oneLoss : List ThreadLabel :=
  [[(.user 0, .call .connect)], connectRun (.user 0) 0 none [], lossRun 0,
    workerRun.take 4].flatten

/-- No worker is joinable where a receive loop looks for one or stores one. -/
def noJoinable (s : ThreadState) (l : ThreadLabel) : Bool :=
  match (s.threads l.1).pc with
  | .recv .joinable => (s.slots .reconnectThread).isNone
  | .recv (.assignWorker _) => (s.slots .reconnectThread).isNone
  | _ => true

theorem keepsWorker_of_noJoinable (s : ThreadState) (l : ThreadLabel) (h : noJoinable s l = true) :
    KeepsWorker s l := by
  constructor
  · intro hpc _ hsome
    rw [noJoinable, hpc] at h
    simp_all
  · intro w o hpc hsome
    rw [noJoinable, hpc] at h
    simp_all

/-- The first loss of a client is served. -/
theorem losses_served_oneLoss :
    ∃ s, Runs.exec (threadStep {}) ThreadState.initial oneLoss = some s ∧
      (s.threads (.recv 0)).pc = .finished ∧ (s.threads (.recv 0)).lossAt = some s.successes ∧
      LossesServed s := by
  have hrun : (Runs.exec (threadStep {}) ThreadState.initial oneLoss).map (fun s =>
      ((s.threads (.recv 0)).pc, (s.threads (.recv 0)).lossAt, s.successes)) =
      some (.finished, some 1, 1) := by
    decide +kernel
  obtain ⟨s, hs, hv⟩ := Option.map_eq_some_iff.mp hrun
  simp only [Prod.mk.injEq] at hv
  obtain ⟨hpc, hloss, hsucc⟩ := hv
  exact ⟨s, hs, hpc, by rw [hloss, hsucc], losses_served {} rfl rfl oneLoss s
    (Runs.along_of_check (I := fun _ => True) (c := noJoinable) (by decide +kernel) trivial
      (fun s l _ h => keepsWorker_of_noJoinable s l h) fun _ _ _ _ _ _ => trivial) hs⟩

theorem exec_twoLosses :
    (Runs.exec (threadStep {}) ThreadState.initial twoLosses).map (fun s =>
      ((s.threads (.recv 1)).pc, (s.threads (.recv 1)).lossAt, s.successes,
        (s.threads (.worker 0)).pc, (s.threads (.worker 1)).pc)) =
      some (.finished, some 2, 2, .finished, .unborn) := by
  decide +kernel

/-- Without any `disconnect`, the second loss is left without a worker. -/
theorem second_loss_unserved :
    ∃ ls s, (∀ l ∈ ls, l.2 ≠ .call .disconnect ∧ l.2 ≠ .call .reconnect) ∧
      Runs.exec (threadStep {}) ThreadState.initial ls = some s ∧ ¬ LossesServed s := by
  obtain ⟨s, hs, hv⟩ := Option.map_eq_some_iff.mp exec_twoLosses
  simp only [Prod.mk.injEq] at hv
  obtain ⟨hpc, hloss, hsucc, hw0, hw1⟩ := hv
  refine ⟨twoLosses, s, by decide +kernel, hs, fun h => ?_⟩
  obtain ⟨⟨w, hw, -⟩, -⟩ := h (.recv 1) hpc (by rw [hloss, hsucc])
  have hu : Untouched sampleThreads s := Untouched.exec (by decide +kernel) hs
  by_cases hmem : Tid.worker w ∈ sampleThreads
  · obtain rfl | rfl : w = 0 ∨ w = 1 := by simpa [sampleThreads] using hmem
    · simp [hw0, Pc.inLoop] at hw
    · simp [hw1, Pc.inLoop] at hw
  · rw [hu _ hmem] at hw
    simp [initialThread, Pc.inLoop] at hw

end MqttNativeSocket
