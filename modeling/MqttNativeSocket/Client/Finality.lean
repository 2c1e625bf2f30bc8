import MqttNativeSocket.Client.Reconnect

/-! # Disconnecting for good

After `disconnect` has returned, a client that no user asks to connect again
should stay down. `disconnect` leaves the reconnect worker alone, returns at once
when the client is not Connected, and stops the transport before it asks the
receive loop to stop. The results say when the client does stay down.
-/

namespace MqttNativeSocket

/-- The points of `connect` up to the one that stores the receive loop it has started. -/
def ConnectPc.active : ConnectPc → Bool
  | .joinRecv _ => false
  | .spawnKeepalive => false
  | .assignKeepalive _ => false
  | .joinKeepalive _ => false
  | _ => true

/--
A thread on its way to a connection: in `connect` or `reconnect`, in the worker's loop, or in a
receive loop between its loss and the worker it starts.
-/
def Pc.restarts : Pc → Bool
  | .connect _ p => p.active
  | .reconnect => true
  | .disconnect again _ => again
  | .worker _ _ => true
  | .recv .lost => true
  | .recv .notify => true
  | .recv .joinable => true
  | .recv .spawnWorker => true
  | _ => false

/-- A receive loop that may still see a loss. -/
def Pc.listening : Pc → Bool
  | .recv .top => true
  | .recv .reading => true
  | .recv .failed => true
  | .recv .ackLock => true
  | .recv (.ackSending _) => true
  | _ => false

/-- The points of `disconnect` after its test and up to `recvThread.request_stop()`. -/
def DisconnectPc.stopping : DisconnectPc → Bool
  | .mark => true
  | .lock => true
  | .sending _ => true
  | .requestStop => true
  | .stopRecv => true
  | _ => false

/-- The points of `disconnect` after `recvThread.request_stop()`. -/
def DisconnectPc.stopped : DisconnectPc → Bool
  | .stopKeepalive => true
  | .stopTransport => true
  | .close => true
  | .setDisconnected => true
  | .ret => true
  | _ => false

namespace ThreadState

/-- No thread is on its way to a connection. -/
def Calm (s : ThreadState) : Prop := ∀ t, (s.threads t).pc.restarts = false

/-- No thread is on its way to a connection, and every receive loop has been asked to stop. -/
def Dormant (s : ThreadState) : Prop :=
  s.Calm ∧ ∀ t, (s.threads t).pc.listening = true → (s.threads t).stop = true

/-- Some `disconnect` is past its test. -/
def Disconnecting (s : ThreadState) : Prop :=
  ∃ t p, (s.threads t).pc = .disconnect false p ∧ p ≠ .check

end ThreadState

/--
Since `disconnect` returned, and while nobody calls `connect` or `reconnect`, the client is not
Connected, no CONNECT has been sent and no reconnect has been scheduled.
-/
def StaysDown (s : ThreadState) : Prop :=
  ∀ n m, s.quiet = some (n, m) → s.state ≠ .connected ∧ s.connectsSent = n ∧ s.scheduled = m

/--
A `disconnect` passes its test in a calm state, a dormant one if the client is not Connected; and
while one is past its test, nobody calls `connect` or `reconnect`, and no receive loop takes a
failed read for a loss.
-/
def DisconnectsCalmly (s : ThreadState) (l : ThreadLabel) : Prop :=
  ((s.threads l.1).pc = .disconnect false .check →
    s.Calm ∧ (s.state ≠ .connected → s.Dormant)) ∧
  (s.Disconnecting → l.2 ≠ .call .connect ∧ l.2 ≠ .call .reconnect ∧
    ((s.threads l.1).pc = .recv .failed → (s.threads l.1).stop = true))

structure FinalInv (s : ThreadState) : Prop where
  /-- A receive loop that nobody has stopped is stored in its slot, or about to be. -/
  owned : ∀ t, (s.threads t).pc.listening = true → (s.threads t).stop = true ∨
    ∃ r, t = .recv r ∧ (s.slots .recvThread = some r ∨
      ∃ t' k, (s.threads t').pc = .connect k (.assignRecv r))
  stopping : ∀ t p, (s.threads t).pc = .disconnect false p → p.stopping = true → s.Calm
  stopped : ∀ t p, (s.threads t).pc = .disconnect false p → p.stopped = true → s.Dormant
  down : ∀ t, (s.threads t).pc = .disconnect false .ret → s.state ≠ .connected
  quiet : s.quiet.isSome = true → s.Dormant
  staysDown : StaysDown s

variable {cfg : ThreadConfig} {s : ThreadState} {t : Tid} {a : Action} {pc pc' : Pc} {ch : Choice}

theorem Caller.resume_true_restarts (k : Caller) : (k.resume true).restarts = false := by
  cases k <;> rfl

/-- From a calm point only a call or a loss leads towards a connection. -/
theorem restarts_program (h : program cfg pc ch = some (a, pc')) (hr : pc.restarts = false) :
    pc'.restarts = false ∨ (a = .endQuiet ∧ (ch = .call .connect ∨ ch = .call .reconnect)) ∨
      (pc = .recv .failed ∧ a = .unlessStopped) := by
  unfold program callProgram connectProgram disconnectProgram sendProgram recvProgram
    workerProgram keepaliveProgram at h
  repeat' split at h
  all_goals simp only [reduceCtorEq, Option.some.injEq, Prod.mk.injEq, Pc.restarts,
    ConnectPc.active, Bool.true_eq_false] at h hr
  all_goals (obtain ⟨rfl, rfl⟩ := h)
  all_goals first
    | exact .inl (Caller.resume_true_restarts _)
    | simp_all [Pc.restarts, ConnectPc.active]

/-- A calm thread neither connects nor schedules, and starts keepalive threads only. -/
theorem calm_program (h : program cfg pc ch = some (a, pc')) (hr : pc.restarts = false) :
    a ≠ .succeed ∧ a ≠ .notify ∧ a ≠ .piece .connect false ∧
      ∀ child p, a = .spawn child p → p = .keepalive .top := by
  unfold program callProgram connectProgram disconnectProgram sendProgram recvProgram
    workerProgram keepaliveProgram at h
  repeat' split at h
  all_goals simp only [reduceCtorEq, Option.some.injEq, Prod.mk.injEq, Pc.restarts,
    ConnectPc.active, Bool.true_eq_false] at h hr
  all_goals (obtain ⟨rfl, -⟩ := h)
  all_goals simp

theorem Caller.resume_listening (k : Caller) (b : Bool) : (k.resume b).listening = false := by
  cases k <;> cases b <;> rfl

/-- Only a listening receive loop goes on listening. -/
theorem listening_program (h : program cfg pc ch = some (a, pc')) (hl : pc'.listening = true) :
    pc.listening = true := by
  unfold program callProgram connectProgram disconnectProgram sendProgram recvProgram
    workerProgram keepaliveProgram at h
  repeat' split at h
  all_goals simp only [reduceCtorEq, Option.some.injEq, Prod.mk.injEq] at h
  all_goals (obtain ⟨-, rfl⟩ := h)
  all_goals first
    | rfl
    | (rw [Caller.resume_listening] at hl; simp at hl)
    | (simp only [Pc.listening, Bool.false_eq_true] at hl)

/-- A thread that starts a receive loop is about to store it. -/
theorem spawn_listening {child : Tid} {p : Pc}
    (h : program cfg pc ch = some (.spawn child p, pc')) (hl : p.listening = true) :
    ∃ r k, child = .recv r ∧ pc' = .connect k (.assignRecv r) := by
  unfold program callProgram connectProgram disconnectProgram sendProgram recvProgram
    workerProgram keepaliveProgram at h
  repeat' split at h
  all_goals simp only [reduceCtorEq, Option.some.injEq, Prod.mk.injEq, Action.spawn.injEq,
    false_and] at h
  all_goals (obtain ⟨⟨rfl, rfl⟩, rfl⟩ := h)
  all_goals first
    | exact ⟨_, _, rfl, rfl⟩
    | simp [Pc.listening] at hl

/-- The way of a thread through `disconnect`. -/
inductive Leaving : DisconnectPc → Action → DisconnectPc → Prop where
  | begin : Leaving .check (.ifState .connected) .mark
  | early : Leaving .check (.unlessState .connected) .ret
  | stopping {q p : DisconnectPc} {a : Action} : q.stopping = true → p.stopping = true →
      Leaving q a p
  | stopRecv : Leaving .stopRecv (.requestStop .recvThread) .stopKeepalive
  | stopped {q p : DisconnectPc} {a : Action} : q.stopped = true → p.stopped = true → p ≠ .ret →
      Leaving q a p
  | down : Leaving .setDisconnected (.setState .disconnected) .ret

theorem Caller.resume_ne_disconnect (k : Caller) (b again : Bool) (p : DisconnectPc) :
    k.resume b ≠ .disconnect again p := by
  cases k <;> cases b <;> simp [Caller.resume]

theorem disconnect_program {p : DisconnectPc}
    (h : program cfg pc ch = some (a, .disconnect false p)) (hne : p ≠ .check) :
    ∃ q, pc = .disconnect false q ∧ Leaving q a p := by
  unfold program callProgram connectProgram disconnectProgram sendProgram recvProgram
    workerProgram keepaliveProgram at h
  repeat' split at h
  all_goals simp only [reduceCtorEq, Option.some.injEq, Prod.mk.injEq, Pc.disconnect.injEq,
    Caller.resume_ne_disconnect, true_and, false_and, and_false] at h
  all_goals first
    | (obtain ⟨rfl, rfl, rfl⟩ := h
       first
       | exact ⟨_, rfl, .begin⟩
       | exact ⟨_, rfl, .early⟩
       | exact ⟨_, rfl, .stopRecv⟩
       | exact ⟨_, rfl, .down⟩
       | exact ⟨_, rfl, .stopping rfl rfl⟩
       | exact ⟨_, rfl, .stopped rfl rfl (by simp)⟩)
    | exact (hne h.2.symm).elim

theorem assignRecv_program {k : Caller} {r : ℕ}
    (h : program cfg (.connect k (.assignRecv r)) ch = some (a, pc')) :
    ∃ old, a = .assign .recvThread r old := by
  cases ch <;> simp [program, connectProgram] at h
  exact ⟨_, h.1.symm⟩

theorem beginQuiet_program (h : program cfg pc ch = some (.beginQuiet, pc')) :
    pc = .disconnect false .ret := by
  unfold program callProgram connectProgram disconnectProgram sendProgram recvProgram
    workerProgram keepaliveProgram at h
  repeat' split at h
  all_goals simp_all

theorem endQuiet_program (h : program cfg pc ch = some (.endQuiet, pc')) :
    ch = .call .connect ∨ ch = .call .reconnect := by
  unfold program callProgram connectProgram disconnectProgram sendProgram recvProgram
    workerProgram keepaliveProgram at h
  repeat' split at h
  all_goals simp_all

theorem born_of_listening {t' : Tid} (h : (s.threads t').pc.listening = true) :
    (s.threads t').pc ≠ .unborn := by
  intro hb
  rw [hb] at h
  simp [Pc.listening] at h

section step

variable (hp : program cfg (s.threads t).pc ch = some (a, pc)) (hen : enabled s t a = true)
include hp hen

/-- A calm state stays calm unless somebody calls or a receive loop takes a loss. -/
theorem calm_step (hc : s.Calm) (hcall : a ≠ .endQuiet)
    (hfail : (s.threads t).pc = .recv .failed → (s.threads t).stop = true) :
    ((effect s t a).setPc t pc).Calm := by
  intro t'
  rw [step_pc]
  split
  · rcases restarts_program hp (hc t) with h | ⟨h, -⟩ | ⟨h, rfl⟩
    · exact h
    · exact (hcall h).elim
    · simp [enabled, hfail h] at hen
  · cases a with
    | spawn child p =>
      obtain rfl := (calm_program hp (hc t)).2.2.2 child p rfl
      dsimp only
      split
      · rfl
      · exact hc t'
    | _ => exact hc t'

/-- In a calm state a step only goes on with the receive loops that are there. -/
theorem listening_step (hc : s.Calm) {t' : Tid}
    (h : (((effect s t a).setPc t pc).threads t').pc.listening = true) :
    (s.threads t').pc.listening = true := by
  rw [step_pc] at h
  split at h
  · next ht =>
    subst ht
    exact listening_program hp h
  · cases a with
    | spawn child p =>
      obtain rfl := (calm_program hp (hc t)).2.2.2 child p rfl
      dsimp only at h
      split at h
      · simp [Pc.listening] at h
      · exact h
    | _ => exact h

/-- A dormant state stays dormant unless somebody calls. -/
theorem dormant_step (hd : s.Dormant) (hcall : a ≠ .endQuiet) :
    ((effect s t a).setPc t pc).Dormant := by
  refine ⟨calm_step hp hen hd.1 hcall fun h => hd.2 t (by rw [h]; rfl), fun t' h => ?_⟩
  have hl := listening_step hp hen hd.1 h
  exact step_stop hen (born_of_listening hl) (hd.2 t' hl)

/-- A receive loop stays owned until it is stopped. -/
theorem owned_step (hi : FinalInv s) {t' : Tid}
    (h : (((effect s t a).setPc t pc).threads t').pc.listening = true) :
    (((effect s t a).setPc t pc).threads t').stop = true ∨
      ∃ r, t' = .recv r ∧ (((effect s t a).setPc t pc).slots .recvThread = some r ∨
        ∃ t'' k, (((effect s t a).setPc t pc).threads t'').pc = .connect k (.assignRecv r)) := by
  by_cases hold : (s.threads t').pc.listening = true
  · rcases hi.owned t' hold with hs | ⟨r, rfl, hslot | ⟨t'', k, hpc⟩⟩
    · exact .inl (step_stop hen (born_of_listening hold) hs)
    · rw [ThreadState.setPc_slots, effect_slots]
      cases a with
      | assign slot n old =>
        by_cases hrecv : slot = .recvThread
        · -- the loop that leaves the slot is asked to stop
          subst hrecv
          obtain rfl : s.slots .recvThread = old := by simpa [enabled] using hen
          refine .inl ?_
          rw [ThreadState.setPc_stop, effect_stop]
          simp [hslot, Slot.tid]
        · exact .inr ⟨r, rfl, .inl (by simpa [Function.update_of_ne (Ne.symm hrecv)] using hslot)⟩
      | _ => exact .inr ⟨r, rfl, .inl hslot⟩
    · by_cases ht : t'' = t
      · subst ht
        obtain ⟨old, rfl⟩ := assignRecv_program (hpc ▸ hp)
        exact .inr ⟨r, rfl, .inl (by simp [effect_slots])⟩
      · refine .inr ⟨r, rfl, .inr ⟨t'', k, ?_⟩⟩
        rw [step_pc_of_ne hen ht (by simp [hpc])]
        exact hpc
  · -- a receive loop that has just been started
    rw [step_pc] at h
    split at h
    · next ht =>
      subst ht
      exact (hold (listening_program hp h)).elim
    · cases a with
      | spawn child p =>
        dsimp only at h
        split at h
        · next ht hchild =>
          obtain ⟨r, k, rfl, rfl⟩ := spawn_listening hp h
          exact .inr ⟨r, hchild, .inr ⟨t, k, ThreadState.setPc_self _ _ _⟩⟩
        · exact (hold h).elim
      | _ => exact (hold h).elim

/-- With the loop in the slot asked to stop, a calm state becomes dormant. -/
theorem dormant_of_stopRecv (hi : FinalInv s) (hc : s.Calm) (ha : a = .requestStop .recvThread)
    (hfail : (s.threads t).pc = .recv .failed → (s.threads t).stop = true) :
    ((effect s t a).setPc t pc).Dormant := by
  subst ha
  refine ⟨calm_step hp hen hc (by simp) hfail, fun t' h => ?_⟩
  have hl := listening_step hp hen hc h
  rcases hi.owned t' hl with hs | ⟨r, rfl, hslot | ⟨t'', k, hpc⟩⟩
  · exact step_stop hen (born_of_listening hl) hs
  · rw [ThreadState.setPc_stop, effect_stop]
    simp [hslot, Slot.tid]
  · have := hc t''
    rw [hpc] at this
    simp [Pc.restarts, ConnectPc.active] at this

end step

theorem DisconnectPc.ne_check_of_stopping {p : DisconnectPc} (h : p.stopping = true) :
    p ≠ .check := by
  rintro rfl
  simp [DisconnectPc.stopping] at h

theorem DisconnectPc.ne_check_of_stopped {p : DisconnectPc} (h : p.stopped = true) :
    p ≠ .check := by
  rintro rfl
  simp [DisconnectPc.stopped] at h

/-- What a step keeps while another thread is past the test of its `disconnect`. -/
theorem DisconnectsCalmly.others (hk : DisconnectsCalmly s (t, ch)) {t' : Tid} {p : DisconnectPc}
    (h : (s.threads t').pc = .disconnect false p) (hne : p ≠ .check)
    (hp : program cfg (s.threads t).pc ch = some (a, pc)) :
    a ≠ .endQuiet ∧ ((s.threads t).pc = .recv .failed → (s.threads t).stop = true) := by
  obtain ⟨hconnect, hreconnect, hfail⟩ := hk.2 ⟨t', p, h, hne⟩
  refine ⟨?_, hfail⟩
  rintro rfl
  rcases endQuiet_program hp with rfl | rfl
  · exact hconnect rfl
  · exact hreconnect rfl

theorem FinalInv.step (hi : FinalInv s) (hk : DisconnectsCalmly s (t, ch))
    (hp : program cfg (s.threads t).pc ch = some (a, pc)) (hen : enabled s t a = true) :
    FinalInv ((effect s t a).setPc t pc) := by
  have hstopped : ∀ t' p, (((effect s t a).setPc t pc).threads t').pc = .disconnect false p →
      p.stopped = true → ((effect s t a).setPc t pc).Dormant := by
    intro t' p h hst
    have hne := DisconnectPc.ne_check_of_stopped hst
    rcases step_pc_past_start hp h rfl with ⟨rfl, rfl⟩ | ⟨-, hold⟩
    · obtain ⟨q, hq, hl⟩ := disconnect_program hp hne
      have hfail : (s.threads t').pc = .recv .failed → (s.threads t').stop = true := by simp [hq]
      cases hl with
      | begin => simp [DisconnectPc.stopped] at hst
      | early =>
        have hdown : s.state ≠ .connected := by simpa [enabled] using hen
        exact dormant_step hp hen ((hk.1 hq).2 hdown) (by simp)
      | stopping hq' hp' =>
        cases p <;> simp [DisconnectPc.stopped, DisconnectPc.stopping] at hst hp'
      | stopRecv => exact dormant_of_stopRecv hp hen hi (hi.stopping t' _ hq rfl) rfl hfail
      | stopped hq' hp' hret =>
        exact dormant_step hp hen (hi.stopped t' _ hq hq') (hk.others hq
          (DisconnectPc.ne_check_of_stopped hq') hp).1
      | down => exact dormant_step hp hen (hi.stopped t' _ hq rfl) (by simp)
    · exact dormant_step hp hen (hi.stopped t' p hold hst) (hk.others hold hne hp).1
  refine ⟨fun t' h => owned_step hp hen hi h, fun t' p h hst => ?_, hstopped, fun t' h => ?_,
    fun h => ?_, ?_⟩
  · have hne := DisconnectPc.ne_check_of_stopping hst
    rcases step_pc_past_start hp h rfl with ⟨rfl, rfl⟩ | ⟨-, hold⟩
    · obtain ⟨q, hq, hl⟩ := disconnect_program hp hne
      have hfail : (s.threads t').pc = .recv .failed → (s.threads t').stop = true := by simp [hq]
      cases hl with
      | begin => exact calm_step hp hen (hk.1 hq).1 (by simp) hfail
      | stopping hq' hp' =>
        exact calm_step hp hen (hi.stopping t' _ hq hq') (hk.others hq
          (DisconnectPc.ne_check_of_stopping hq') hp).1 hfail
      | early => simp [DisconnectPc.stopping] at hst
      | stopRecv => simp [DisconnectPc.stopping] at hst
      | stopped hq' hp' hret =>
        cases p <;> simp [DisconnectPc.stopped, DisconnectPc.stopping] at hst hp'
      | down => simp [DisconnectPc.stopping] at hst
    · obtain ⟨hcall, hfail⟩ := hk.others hold hne hp
      exact calm_step hp hen (hi.stopping t' p hold hst) hcall hfail
  · rcases step_pc_past_start hp h rfl with ⟨rfl, rfl⟩ | ⟨-, hold⟩
    · obtain ⟨q, hq, hl⟩ := disconnect_program hp (by simp)
      cases hl with
      | early => simpa [enabled, effect] using hen
      | stopping hq' hp' => simp [DisconnectPc.stopping] at hp'
      | stopped hq' hp' hret => exact (hret rfl).elim
      | down => simp [effect]
    · exact step_state_ne_connected hp (calm_program hp ((hi.stopped t' _ hold rfl).1 t)).1
        (hi.down t' hold)
  · rw [ThreadState.setPc_quiet, effect_quiet] at h
    cases a with
    | endQuiet => simp at h
    | beginQuiet => exact dormant_step hp hen (hi.stopped t _ (beginQuiet_program hp) rfl) (by simp)
    | _ => exact dormant_step hp hen (hi.quiet h) (by simp)
  · intro n m h
    rw [ThreadState.setPc_quiet, effect_quiet] at h
    by_cases hbegin : a = .beginQuiet
    · subst hbegin
      simp only [Option.some.injEq, Prod.mk.injEq] at h
      exact ⟨hi.down t (beginQuiet_program hp), h.1, h.2⟩
    · have hquiet : s.quiet = some (n, m) := by
        cases a with
        | endQuiet => simp at h
        | beginQuiet => exact (hbegin rfl).elim
        | _ => exact h
      have hd := hi.quiet (by rw [hquiet]; rfl)
      obtain ⟨hdown, hn, hm⟩ := hi.staysDown n m hquiet
      obtain ⟨hsucc, hnotify, hconnect, -⟩ := calm_program hp (hd.1 t)
      refine ⟨step_state_ne_connected hp hsucc hdown, ?_, ?_⟩
      · rw [ThreadState.setPc_connectsSent, effect_connectsSent, if_neg hconnect, hn]
      · rw [ThreadState.setPc_scheduled, effect_scheduled, if_neg hnotify, hm]

theorem FinalInv.initial : FinalInv ThreadState.initial := by
  have h := ThreadState.initial_pc
  refine ⟨fun t hl => ?_, fun t p hp => ?_, fun t p hp => ?_, fun t hp => ?_, fun hq => ?_,
    fun n m hq => ?_⟩
  · rcases h t with h | h <;> simp [h, Pc.listening] at hl
  · rcases h t with h | h <;> simp [h] at hp
  · rcases h t with h | h <;> simp [h] at hp
  · rcases h t with h | h <;> simp [h] at hp
  · simp [ThreadState.initial] at hq
  · simp [ThreadState.initial] at hq

/--
In a run whose every `disconnect` is calm, a client whose user has disconnected and not asked to
connect again stays down.
-/
theorem disconnect_final (cfg : ThreadConfig) (ls : List ThreadLabel) (s : ThreadState)
    (hk : Runs.Along (threadStep cfg) DisconnectsCalmly ThreadState.initial ls)
    (h : Runs.exec (threadStep cfg) ThreadState.initial ls = some s) : StaysDown s := by
  have hi : FinalInv s := by
    refine Runs.invariant h hk FinalInv.initial fun s l s' hi hk hs => ?_
    obtain ⟨a, pc, hp, hen, rfl⟩ := threadStep_eq_some.mp hs
    exact hi.step hk hp hen
  exact hi.staysDown

/-! ## A disconnect during a reconnect -/

/-- The user disconnects while worker 0 is in its attempt; the worker then connects. -/
def disconnectWhileReconnecting : List ThreadLabel :=
  [[(.user 0, .call .connect)], connectRun (.user 0) 0 none [], lossRun 0, workerRun,
    [(.user 1, .call .disconnect), (.user 1, .no), (.user 1, .go)],
    (connectRun (.worker 0) 1 (some 0) []).take 10].flatten

theorem disconnect_not_final :
    ∃ ls s, Runs.exec (threadStep {}) ThreadState.initial ls = some s ∧ ¬ StaysDown s := by
  have hrun : (Runs.exec (threadStep {}) ThreadState.initial disconnectWhileReconnecting).map
      (fun s => (s.state, s.quiet)) = some (.connected, some (1, 1)) := by
    decide +kernel
  obtain ⟨s, hs, hv⟩ := Option.map_eq_some_iff.mp hrun
  simp only [Prod.mk.injEq] at hv
  exact ⟨disconnectWhileReconnecting, s, hs, fun h => (h 1 1 hv.2).1 hv.1⟩

/-- User 0 connects and disconnects; the receive loop then ends on its stop token. -/
def connectAndDisconnect : List ThreadLabel :=
  [[(.user 0, .call .connect)], connectRun (.user 0) 0 none [],
    [(.user 0, .call .disconnect), (.user 0, .yes), (.user 0, .go), (.user 0, .go),
      (.user 0, .more), (.user 0, .ok), (.user 0, .go), (.user 0, .go), (.user 0, .go),
      (.user 0, .go), (.user 0, .go), (.user 0, .go), (.user 0, .go), (.recv 0, .yes)]].flatten

/-- A computable form of the condition for steps within `ts`. -/
def calmDisconnects (ts : List Tid) (s : ThreadState) (l : ThreadLabel) : Bool :=
  staysIn ts l &&
  (if (s.threads l.1).pc = .disconnect false .check then
    decide (s.state = .connected) && ts.all fun t => !(s.threads t).pc.restarts
  else true) &&
  ((ts.all fun t => match (s.threads t).pc with
    | .disconnect false .check => true
    | .disconnect false _ => false
    | _ => true) ||
  (decide (l.2 ≠ .call .connect) && decide (l.2 ≠ .call .reconnect) &&
    ((s.threads l.1).stop || decide ((s.threads l.1).pc ≠ .recv .failed))))

theorem disconnectsCalmly_of_check {ts : List Tid} (hu : Untouched ts s) {l : ThreadLabel}
    (h : calmDisconnects ts s l = true) : DisconnectsCalmly s l := by
  simp only [calmDisconnects, Bool.and_eq_true, Bool.or_eq_true] at h
  obtain ⟨⟨-, hcheck⟩, hothers⟩ := h
  constructor
  · intro hpc
    rw [if_pos hpc] at hcheck
    simp only [Bool.and_eq_true, decide_eq_true_eq, List.all_eq_true, Bool.not_eq_true'] at hcheck
    exact ⟨hu.all (P := fun pc _ => pc.restarts = false) (fun _ => rfl) (fun _ => rfl) hcheck.2,
      fun hne => (hne hcheck.1).elim⟩
  · rintro ⟨t, p, hpc, hne⟩
    rcases hothers with hnone | hcond
    · have hall := hu.all (P := fun pc _ => ∀ p, pc = .disconnect false p → p = .check)
        (by simp) (by simp) (fun t ht p hp => ?_) t p hpc
      · exact (hne hall).elim
      · have := List.all_eq_true.mp hnone t ht
        rw [hp] at this
        cases p <;> simp_all
    · simp only [decide_eq_true_eq] at hcond
      exact ⟨hcond.1.1, hcond.1.2, fun hf => by simpa [hf] using hcond.2⟩

/-- The client of that run is down for good. -/
theorem disconnect_final_connectAndDisconnect :
    ∃ s, Runs.exec (threadStep {}) ThreadState.initial connectAndDisconnect = some s ∧
      s.quiet = some (1, 0) ∧ (s.threads (.recv 0)).pc = .finished ∧ StaysDown s := by
  have hrun : (Runs.exec (threadStep {}) ThreadState.initial connectAndDisconnect).map
      (fun s => (s.quiet, (s.threads (.recv 0)).pc)) = some (some (1, 0), .finished) := by
    decide +kernel
  obtain ⟨s, hs, hv⟩ := Option.map_eq_some_iff.mp hrun
  simp only [Prod.mk.injEq] at hv
  refine ⟨s, hs, hv.1, hv.2, disconnect_final {} connectAndDisconnect s ?_ hs⟩
  refine Runs.along_of_check (I := Untouched sampleThreads) (c := calmDisconnects sampleThreads)
    (by decide +kernel) (untouched_initial _) (fun s l hu h => disconnectsCalmly_of_check hu h) ?_
  intro s l s' hu h hstep
  simp only [calmDisconnects, Bool.and_eq_true] at h
  exact hu.step h.1.1 hstep

end MqttNativeSocket
