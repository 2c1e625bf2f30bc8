import MqttNativeSocket.Client.Custody
import MqttNativeSocket.Client.Exclusion
import Mathlib.Logic.Relation

/-! # No thread waits in vain

A thread waits for another one where it takes `sendMtx` and where it joins. A
chain of such waits ends in a thread that waits for none, as long as no receive
loop starts a worker next to another one. The network is not a thread: a call of
the system is taken to return.

The end result is one about the publisher. Its other mutex, `pubackMtx`, is not in
the programs: who holds it waits for nobody, so that it adds no chain that does not
end. The subscriber waits for `sendMtx` with `subsMtx` in hand. A callback that
`publishAsync` runs under `sendMtx` is taken not to call the publisher.
-/

namespace MqttNativeSocket

/-- The points before `sendMtx` is taken; `resubscribeAll` takes it for each topic left. -/
def Pc.wantsSend : Pc → Bool
  | .connect _ .lock => true
  | .connect _ .resubscribe => true
  | .disconnect _ .lock => true
  | .send _ .lock => true
  | .recv .ackLock => true
  | .keepalive .lock => true
  | _ => false

/-- The thread that a thread at this point joins. -/
def Pc.joins : Pc → Option (Slot × ℕ)
  | .connect _ (.joinRecv old) => old.map fun r => (.recvThread, r)
  | .connect _ (.joinKeepalive old) => old.map fun k => (.keepaliveThread, k)
  | .recv (.joinWorker old) => old.map fun w => (.reconnectThread, w)
  | _ => none

/-- In the wait of `reconnectCv`. -/
def Pc.sleeps : Pc → Bool
  | .worker .wait _ => true
  | _ => false

/-- Between calls, before the start or after the end. -/
def Pc.resting : Pc → Bool
  | .idle => true
  | .unborn => true
  | .finished => true
  | _ => false

namespace ThreadState

/-- Thread `u` has what thread `t` waits for: the mutex, or its own end. -/
def WaitsFor (s : ThreadState) (t u : Tid) : Prop :=
  (s.threads t).pc.wantsSend = true ∧ (s.threads u).pc.holdsSend = true ∨
    ∃ slot n, (s.threads t).pc.joins = some (slot, n) ∧ u = slot.tid n ∧
      (s.threads u).pc ≠ .finished

/--
Thread `t` has a step. A worker in its wait only goes on with a request: one that is asked to stop
there is not notified with it.
-/
def CanStep (cfg : ThreadConfig) (s : ThreadState) (t : Tid) : Prop :=
  (∃ ch s', threadStep cfg s (t, ch) = some s') ∧
    ((s.threads t).pc.sleeps = true → s.reconnectRequested = true)

end ThreadState

/-- A receive loop starts a worker only when there has been none before. -/
def OneWorker (s : ThreadState) (l : ThreadLabel) : Prop :=
  (s.threads l.1).pc = .recv .spawnWorker → ∀ w, (s.threads (.worker w)).pc = .unborn

variable {cfg : ThreadConfig} {s s' : ThreadState} {t t' : Tid} {a : Action} {pc pc' : Pc}
  {ch : Choice} {l : ThreadLabel}

/-! ## Points without a wait -/

theorem exists_lock (h : (s.threads t).pc.wantsSend = true) (hfree : s.sendMtx = false) :
    ∃ ch a pc', program cfg (s.threads t).pc ch = some (a, pc') ∧ enabled s t a = true := by
  have hen : enabled s t .lock = true := by simp [enabled, hfree]
  unfold Pc.wantsSend at h
  split at h
  all_goals rename_i hpc
  · exact ⟨.go, _, _, by rw [hpc]; rfl, hen⟩
  · exact ⟨.more, _, _, by rw [hpc]; rfl, hen⟩
  · exact ⟨.go, _, _, by rw [hpc]; rfl, hen⟩
  · exact ⟨.go, _, _, by rw [hpc]; rfl, hen⟩
  · exact ⟨.go, _, _, by rw [hpc]; rfl, hen⟩
  · exact ⟨.go, _, _, by rw [hpc]; rfl, hen⟩
  · contradiction

theorem map_slot_eq_some {slot slot' : Slot} {old : Option ℕ} {n : ℕ} :
    (old.map fun o => (slot, o)) = some (slot', n) ↔ old = some n ∧ slot = slot' := by
  cases old <;> simp [and_comm]

theorem exists_join {slot : Slot} {n : ℕ} (h : (s.threads t).pc.joins = some (slot, n))
    (hend : (s.threads (slot.tid n)).pc = .finished) :
    ∃ ch a pc', program cfg (s.threads t).pc ch = some (a, pc') ∧ enabled s t a = true := by
  have hen : enabled s t (.join ((some n).map slot.tid)) = true := by simp [enabled, hend]
  unfold Pc.joins at h
  split at h
  all_goals rename_i hpc
  · obtain ⟨rfl, rfl⟩ := map_slot_eq_some.mp h
    exact ⟨.go, _, _, by rw [hpc]; rfl, hen⟩
  · obtain ⟨rfl, rfl⟩ := map_slot_eq_some.mp h
    exact ⟨.go, _, _, by rw [hpc]; rfl, hen⟩
  · obtain ⟨rfl, rfl⟩ := map_slot_eq_some.mp h
    exact ⟨.go, _, _, by rw [hpc]; rfl, hen⟩
  · contradiction

theorem exists_wake (h : (s.threads t).pc.sleeps = true) (hreq : s.reconnectRequested = true) :
    ∃ ch a pc', program cfg (s.threads t).pc ch = some (a, pc') ∧ enabled s t a = true := by
  unfold Pc.sleeps at h
  split at h
  · next n hpc =>
    rw [hpc]
    by_cases hstop : (s.threads t).stop = true
    · exact ⟨.yes, _, _, rfl, hstop⟩
    · exact ⟨.go, _, _, rfl, by simpa [enabled, hreq] using hstop⟩
  · contradiction

/-- A thread at a point without a wait has a choice that is enabled. -/
theorem exists_enabled (hrest : (s.threads t).pc.resting = false)
    (hsend : (s.threads t).pc.wantsSend = false) (hjoin : (s.threads t).pc.joins = none)
    (hsleep : (s.threads t).pc.sleeps = false)
    (hfresh : ∃ n, ∀ slot : Slot, (s.threads (slot.tid n)).pc = .unborn) :
    ∃ ch a pc', program cfg (s.threads t).pc ch = some (a, pc') ∧ enabled s t a = true := by
  obtain ⟨n, hn⟩ := hfresh
  have hspawn : ∀ (slot : Slot) p, enabled s t (.spawn (slot.tid n) p) = true :=
    fun slot p => by simp [enabled, hn slot]
  have hassign : ∀ slot m, enabled s t (.assign slot m (s.slots slot)) = true :=
    fun slot m => by simp [enabled]
  generalize (s.threads t).pc = pc at *
  cases pc with
  | unborn => simp [Pc.resting] at hrest
  | idle => simp [Pc.resting] at hrest
  | finished => simp [Pc.resting] at hrest
  | connect k p =>
    cases p with
    | check =>
      by_cases h : s.state = .connected
      · exact ⟨.yes, _, _, rfl, by simp [enabled, h]⟩
      · exact ⟨.no, _, _, rfl, by simp [enabled, h]⟩
    | openSocket => exact ⟨.error, _, _, rfl, rfl⟩
    | establish => exact ⟨.error, _, _, rfl, rfl⟩
    | lock => simp [Pc.wantsSend] at hsend
    | sending b => exact ⟨.error, _, _, rfl, rfl⟩
    | connack => exact ⟨.error, _, _, rfl, rfl⟩
    | resubscribe => simp [Pc.wantsSend] at hsend
    | resubSending b => exact ⟨.error, _, _, rfl, rfl⟩
    | spawnRecv => exact ⟨.fresh n, _, _, rfl, hspawn .recvThread _⟩
    | assignRecv r => exact ⟨.replace (s.slots .recvThread), _, _, rfl, hassign _ _⟩
    | joinRecv old =>
      obtain rfl : old = none := by simpa [Pc.joins] using hjoin
      exact ⟨.go, _, _, rfl, rfl⟩
    | spawnKeepalive => exact ⟨.fresh n, _, _, rfl, hspawn .keepaliveThread _⟩
    | assignKeepalive r => exact ⟨.replace (s.slots .keepaliveThread), _, _, rfl, hassign _ _⟩
    | joinKeepalive old =>
      obtain rfl : old = none := by simpa [Pc.joins] using hjoin
      exact ⟨.go, _, _, rfl, rfl⟩
    | _ => exact ⟨.go, _, _, rfl, rfl⟩
  | disconnect again p =>
    cases p with
    | check =>
      by_cases h : s.state = .connected
      · exact ⟨.yes, _, _, rfl, by simp [enabled, h]⟩
      · exact ⟨.no, _, _, rfl, by simp [enabled, h]⟩
    | lock => simp [Pc.wantsSend] at hsend
    | sending b => exact ⟨.error, _, _, rfl, rfl⟩
    | ret => cases again <;> exact ⟨.go, _, _, rfl, rfl⟩
    | _ => exact ⟨.go, _, _, rfl, rfl⟩
  | reconnect =>
    by_cases h : s.state = .connected
    · exact ⟨.yes, _, _, rfl, by simp [enabled, h]⟩
    · exact ⟨.no, _, _, rfl, by simp [enabled, h]⟩
  | send op p =>
    cases p with
    | check =>
      by_cases h : s.state = .connected
      · exact ⟨.yes, _, _, rfl, by simp [enabled, h]⟩
      · by_cases hop : op = .publishAsync ∧ cfg.offlineBufferingEnabled
        · exact ⟨.no, _, _, if_pos hop, by simp [enabled, h]⟩
        · exact ⟨.no, _, _, if_neg hop, by simp [enabled, h]⟩
    | lock => simp [Pc.wantsSend] at hsend
    | sending b => exact ⟨.error, _, _, rfl, rfl⟩
  | recv p =>
    cases p with
    | top =>
      by_cases h : (s.threads t).stop = true
      · exact ⟨.yes, _, _, rfl, h⟩
      · exact ⟨.no, _, _, rfl, by simpa [enabled] using h⟩
    | failed =>
      by_cases h : (s.threads t).stop = true
      · exact ⟨.yes, _, _, rfl, h⟩
      · exact ⟨.no, _, _, rfl, by simpa [enabled] using h⟩
    | reading => exact ⟨.error, _, _, rfl, rfl⟩
    | joinable =>
      by_cases h : (s.slots .reconnectThread).isSome = true
      · exact ⟨.yes, _, _, rfl, h⟩
      · exact ⟨.no, _, _, rfl, by simpa [enabled] using h⟩
    | spawnWorker => exact ⟨.fresh n, _, _, rfl, hspawn .reconnectThread _⟩
    | assignWorker w => exact ⟨.replace (s.slots .reconnectThread), _, _, rfl, hassign _ _⟩
    | joinWorker old =>
      obtain rfl : old = none := by simpa [Pc.joins] using hjoin
      exact ⟨.go, _, _, rfl, rfl⟩
    | ackLock => simp [Pc.wantsSend] at hsend
    | ackSending b => exact ⟨.error, _, _, rfl, rfl⟩
    | _ => exact ⟨.go, _, _, rfl, rfl⟩
  | worker p m =>
    cases p with
    | top =>
      by_cases h : (s.threads t).stop = true
      · exact ⟨.yes, _, _, rfl, h⟩
      · exact ⟨.no, _, _, rfl, by simpa [enabled] using h⟩
    | wait => simp [Pc.sleeps] at hsleep
    | checkState =>
      by_cases h : s.state = .connected
      · exact ⟨.yes, _, _, rfl, by simp [enabled, h]⟩
      · exact ⟨.no, _, _, rfl, by simp [enabled, h]⟩
    | count =>
      by_cases h : 0 < cfg.maxRetries ∧ cfg.maxRetries < m + 1
      · exact ⟨.go, _, _, if_pos h, rfl⟩
      · exact ⟨.go, _, _, if_neg h, rfl⟩
    | rearm => exact ⟨.go, _, _, rfl, rfl⟩
  | keepalive p =>
    cases p with
    | top =>
      by_cases h : (s.threads t).stop = true
      · exact ⟨.yes, _, _, rfl, h⟩
      · exact ⟨.no, _, _, rfl, by simpa [enabled] using h⟩
    | awake =>
      by_cases h : (s.threads t).stop = true
      · exact ⟨.yes, _, _, rfl, h⟩
      · exact ⟨.no, _, _, rfl, by simpa [enabled] using h⟩
    | checkState =>
      by_cases h : s.state = .connected
      · exact ⟨.yes, _, _, rfl, by simp [enabled, h]⟩
      · exact ⟨.no, _, _, rfl, by simp [enabled, h]⟩
    | due => exact ⟨.yes, _, _, rfl, rfl⟩
    | lock => simp [Pc.wantsSend] at hsend
    | sending b => exact ⟨.error, _, _, rfl, rfl⟩

/-- A mutex that is free and a thread that has ended hold nobody up. -/
theorem canStep_of_unblocked (hrest : (s.threads t).pc.resting = false)
    (hsend : (s.threads t).pc.wantsSend = true → s.sendMtx = false)
    (hjoin : ∀ slot n, (s.threads t).pc.joins = some (slot, n) →
      (s.threads (slot.tid n)).pc = .finished)
    (hsleep : (s.threads t).pc.sleeps = true → s.reconnectRequested = true)
    (hfresh : ∃ n, ∀ slot : Slot, (s.threads (slot.tid n)).pc = .unborn) : s.CanStep cfg t := by
  refine ⟨?_, hsleep⟩
  obtain ⟨ch, a, pc', hp, hen⟩ :
      ∃ ch a pc', program cfg (s.threads t).pc ch = some (a, pc') ∧ enabled s t a = true := by
    by_cases hs : (s.threads t).pc.wantsSend = true
    · exact exists_lock hs (hsend hs)
    by_cases hj : (s.threads t).pc.joins = none
    · by_cases hz : (s.threads t).pc.sleeps = true
      · exact exists_wake hz (hsleep hz)
      · exact exists_enabled hrest (by simpa using hs) hj (by simpa using hz) hfresh
    · obtain ⟨⟨slot, n⟩, hn⟩ := Option.ne_none_iff_exists'.mp hj
      exact exists_join hn (hjoin slot n hn)
  exact ⟨ch, _, threadStep_eq_some.mpr ⟨a, pc', hp, hen, rfl⟩⟩

/-! ## The invariant -/

/-- A worker that has not come to its next request yet. -/
def Pc.awaits : Pc → Bool
  | .worker .top _ => true
  | .worker .wait _ => true
  | _ => false

/-- A receive loop that has set a request and may start a worker for it. -/
def Pc.hiring : Pc → Bool
  | .recv .joinable => true
  | .recv .spawnWorker => true
  | _ => false

def Tid.number : Tid → ℕ
  | .user n => n
  | .recv n => n
  | .keepalive n => n
  | .worker n => n

structure ProgressInv (s : ThreadState) : Prop where
  custody : Custody s
  exclusive : Exclusive s
  owned : s.sendMtx = true → ∃ u, (s.threads u).pc.holdsSend = true
  finite : ∃ ts, Untouched ts s
  oneWorker : ∀ w w', (s.threads (.worker w)).pc ≠ .unborn →
    (s.threads (.worker w')).pc ≠ .unborn → w = w'
  firstWorker : ∀ t old, (s.threads t).pc = .recv (.joinWorker old) → old = none
  awaited : ∀ t, (s.threads t).pc.awaits = true → s.reconnectRequested = true
  hired : ∀ t, (s.threads t).pc.hiring = true →
    (∀ w, (s.threads (.worker w)).pc = .unborn) → s.reconnectRequested = true

theorem program_takeRequest (h : program cfg pc ch = some (.takeRequest, pc')) :
    ∃ n, pc = .worker .wait n ∧ pc' = .worker .checkState n := by
  unfold program callProgram connectProgram disconnectProgram sendProgram recvProgram
    workerProgram keepaliveProgram at h
  repeat' split at h
  all_goals simp only [reduceCtorEq, Option.some.injEq, Prod.mk.injEq, false_and] at h
  all_goals (obtain ⟨-, rfl⟩ := h; exact ⟨_, rfl, rfl⟩)

@[simp] theorem Caller.resume_awaits (k : Caller) (b : Bool) : (k.resume b).awaits = false := by
  cases k <;> cases b <;> rfl

@[simp] theorem Caller.resume_hiring (k : Caller) (b : Bool) : (k.resume b).hiring = false := by
  cases k <;> cases b <;> rfl

/-- A worker waits again with its request set anew, or has just looked at its stop flag. -/
theorem program_awaits (h : program cfg pc ch = some (a, pc')) (hw : pc'.awaits = true) :
    a = .rearm ∨ pc.awaits = true ∧ a = .unlessStopped := by
  unfold program callProgram connectProgram disconnectProgram sendProgram recvProgram
    workerProgram keepaliveProgram at h
  repeat' split at h
  all_goals simp only [reduceCtorEq, Option.some.injEq, Prod.mk.injEq] at h
  all_goals
    obtain ⟨rfl, rfl⟩ := h
    first
      | exact .inl rfl
      | exact .inr ⟨rfl, rfl⟩
      | simp only [Caller.resume_awaits, Bool.false_eq_true] at hw
      | simp [Pc.awaits] at hw

theorem program_hiring (h : program cfg pc ch = some (a, pc')) (hw : pc'.hiring = true) :
    a = .notify ∨ pc.hiring = true ∧ a = .unlessJoinable := by
  unfold program callProgram connectProgram disconnectProgram sendProgram recvProgram
    workerProgram keepaliveProgram at h
  repeat' split at h
  all_goals simp only [reduceCtorEq, Option.some.injEq, Prod.mk.injEq] at h
  all_goals
    obtain ⟨rfl, rfl⟩ := h
    first
      | exact .inl rfl
      | exact .inr ⟨rfl, rfl⟩
      | simp only [Caller.resume_hiring, Bool.false_eq_true] at hw
      | simp [Pc.hiring] at hw

theorem program_spawnWorker {w : ℕ} {p : Pc}
    (h : program cfg pc ch = some (.spawn (.worker w) p, pc')) :
    pc = .recv .spawnWorker ∧ p = .worker .top 0 := by
  unfold program callProgram connectProgram disconnectProgram sendProgram recvProgram
    workerProgram keepaliveProgram at h
  repeat' split at h
  all_goals simp only [reduceCtorEq, Option.some.injEq, Prod.mk.injEq, Action.spawn.injEq,
    false_and] at h
  all_goals (obtain ⟨⟨-, rfl⟩, -⟩ := h; exact ⟨rfl, rfl⟩)

theorem program_joinWorker {old : Option ℕ}
    (h : program cfg pc ch = some (a, .recv (.joinWorker old))) :
    ∃ w, pc = .recv (.assignWorker w) ∧ a = .assign .reconnectThread w old := by
  obtain ⟨kind, hk, hk' | ⟨hf, -⟩⟩ := kind_program h
  · obtain rfl : ThreadKind.recv = kind := Option.some.inj hk'
    cases pc with
    | recv p =>
      simp only [program] at h
      unfold recvProgram at h
      repeat' split at h
      all_goals simp only [reduceCtorEq, Option.some.injEq, Prod.mk.injEq, Pc.recv.injEq,
        RecvPc.joinWorker.injEq, and_false] at h
      obtain ⟨rfl, rfl⟩ := h
      exact ⟨_, rfl, rfl⟩
    | connect k p => cases k <;> simp [Pc.kind, Caller.kind] at hk
    | _ => simp [Pc.kind] at hk
  · contradiction

/-- A run touches finitely many threads. -/
theorem touched_step (h : threadStep cfg s l = some s') (hs : ∃ ts, Untouched ts s) :
    ∃ ts, Untouched ts s' := by
  obtain ⟨ts, hts⟩ := hs
  cases hch : l.2 with
  | fresh n =>
    refine ⟨l.1 :: .recv n :: .keepalive n :: .worker n :: ts, ?_⟩
    refine Untouched.step (fun u hu => hts u ?_) ?_ h
    · exact fun hm => hu (by simp [hm])
    · simp [staysIn, hch]
  | _ =>
    refine ⟨l.1 :: ts, ?_⟩
    refine Untouched.step (fun u hu => hts u ?_) ?_ h
    · exact fun hm => hu (by simp [hm])
    · simp [staysIn, hch]

namespace ProgressInv

/-- There is always a number that no thread has yet. -/
theorem exists_fresh (hs : ProgressInv s) :
    ∃ n, ∀ slot : Slot, (s.threads (slot.tid n)).pc = .unborn := by
  obtain ⟨ts, hts⟩ := hs.finite
  obtain ⟨n, hn⟩ := Infinite.exists_notMem_finset (ts.map Tid.number).toFinset
  refine ⟨n, fun slot => ?_⟩
  have hfresh : slot.tid n ∉ ts := by
    intro hm
    refine hn (List.mem_toFinset.mpr (List.mem_map.mpr ⟨_, hm, ?_⟩))
    cases slot <;> rfl
  rw [hts _ hfresh]
  cases slot <;> rfl

/-- Only a worker takes the request. -/
theorem worker_of_takeRequest (hs : ProgressInv s)
    (hp : program cfg (s.threads t).pc ch = some (.takeRequest, pc)) : ∃ w, t = .worker w := by
  obtain ⟨n, hpc, -⟩ := program_takeRequest hp
  have hk := hs.custody.kinds t
  rw [hpc] at hk
  cases t with
  | worker w => exact ⟨w, rfl⟩
  | _ => simp [Tid.At, Pc.kind, Tid.kind] at hk

theorem oneWorker_step (hs : ProgressInv s) (hc : OneWorker s (t, ch))
    (hp : program cfg (s.threads t).pc ch = some (a, pc)) (hen : enabled s t a = true) (w w' : ℕ)
    (hw : (((effect s t a).setPc t pc).threads (.worker w)).pc ≠ .unborn)
    (hw' : (((effect s t a).setPc t pc).threads (.worker w')).pc ≠ .unborn) : w = w' := by
  -- who is born now was born before, or is the one worker that the step starts
  have hcases : ∀ v, (((effect s t a).setPc t pc).threads (.worker v)).pc ≠ .unborn →
      (s.threads (.worker v)).pc ≠ .unborn ∨
        ∃ p, a = .spawn (.worker v) p ∧ ∀ u, (s.threads (.worker u)).pc = .unborn := by
    intro v hv
    rcases step_pc_other hp hen (.worker v) with ⟨rfl, -⟩ | ⟨-, h⟩ | ⟨-, -, p, rfl, -⟩
    · exact .inl (live_of_program hp).1.1
    · exact .inl (h ▸ hv)
    · exact .inr ⟨p, rfl, hc (program_spawnWorker hp).1⟩
  rcases hcases w hw with hold | ⟨p, rfl, hnone⟩ <;>
    rcases hcases w' hw' with hold' | ⟨p', hp', hnone'⟩
  · exact hs.oneWorker w w' hold hold'
  · exact (hold (hnone' w)).elim
  · exact (hold' (hnone w')).elim
  · simpa using (Action.spawn.inj hp').1

theorem firstWorker_step (hs : ProgressInv s)
    (hp : program cfg (s.threads t).pc ch = some (a, pc)) (hen : enabled s t a = true) (t' : Tid)
    (old : Option ℕ)
    (h : (((effect s t a).setPc t pc).threads t').pc = .recv (.joinWorker old)) : old = none := by
  rcases step_pc_past_start hp h rfl with ⟨rfl, rfl⟩ | ⟨-, hold⟩
  · obtain ⟨w, hpc, rfl⟩ := program_joinWorker hp
    have hslot : s.slots .reconnectThread = old := by simpa [enabled] using hen
    have hhands : (s.threads t').pc.hands = some (.reconnectThread, w) := by
      rw [hpc]
      rfl
    -- a worker in the member would be a second one
    cases old with
    | none => rfl
    | some o =>
      obtain rfl : o = w := hs.oneWorker o w (hs.custody.stored _ o hslot)
        (hs.custody.handed t' _ w hhands)
      exact (hs.custody.apart t' _ o hhands hslot).elim
  · exact hs.firstWorker t' old hold

theorem awaited_step (hs : ProgressInv s) (hc : OneWorker s (t, ch))
    (hp : program cfg (s.threads t).pc ch = some (a, pc)) (hen : enabled s t a = true) (t' : Tid)
    (h : (((effect s t a).setPc t pc).threads t').pc.awaits = true) :
    ((effect s t a).setPc t pc).reconnectRequested = true := by
  rw [ThreadState.setPc_requested]
  have hkeep : s.reconnectRequested = true → a ≠ .takeRequest →
      (effect s t a).reconnectRequested = true := by
    intro hreq hne
    rw [effect_requested]
    cases a with
    | takeRequest => exact (hne rfl).elim
    | notify => rfl
    | rearm => rfl
    | _ => exact hreq
  rcases step_pc_other hp hen t' with ⟨rfl, hpc⟩ | ⟨hne, hpc⟩ | ⟨-, -, p, rfl, hpc⟩
  · rw [hpc] at h
    rcases program_awaits hp h with rfl | ⟨hbefore, rfl⟩
    · rfl
    · exact hkeep (hs.awaited t' hbefore) (by simp)
  · rw [hpc] at h
    refine hkeep (hs.awaited t' h) ?_
    -- a worker that takes the request is not the one that awaits it, and there is no other
    rintro rfl
    obtain ⟨w, rfl⟩ := hs.worker_of_takeRequest hp
    have hk := hs.custody.kinds t'
    obtain ⟨w', rfl⟩ : ∃ w', t' = .worker w' := by
      unfold Pc.awaits at h
      split at h
      · next hq => cases t' <;> simp_all [Tid.At, Pc.kind, Tid.kind]
      · next hq => cases t' <;> simp_all [Tid.At, Pc.kind, Tid.kind]
      · contradiction
    have hborn : (s.threads (.worker w')).pc ≠ .unborn := by
      intro hu
      simp [hu, Pc.awaits] at h
    exact hne (congrArg _ (hs.oneWorker w' w hborn (live_of_program hp).1.1))
  · obtain ⟨hstart, n, -, rfl | rfl | rfl⟩ := program_spawn hp
    · obtain ⟨-, m, htid, hk, -⟩ := (program_hands hp).of_spawn
      rw [hpc] at h
      unfold Pc.awaits at h
      split at h <;> simp_all [Pc.kind, Tid.kind]
    · obtain ⟨-, m, htid, hk, -⟩ := (program_hands hp).of_spawn
      rw [hpc] at h
      unfold Pc.awaits at h
      split at h <;> simp_all [Pc.kind, Tid.kind]
    · obtain ⟨hpc', -⟩ := program_spawnWorker hp
      exact hkeep (hs.hired t (by rw [hpc']; rfl) (hc hpc')) (by simp)

theorem hired_step (hs : ProgressInv s) (hp : program cfg (s.threads t).pc ch = some (a, pc))
    (hen : enabled s t a = true) (t' : Tid)
    (h : (((effect s t a).setPc t pc).threads t').pc.hiring = true)
    (hnone : ∀ w, (((effect s t a).setPc t pc).threads (.worker w)).pc = .unborn) :
    ((effect s t a).setPc t pc).reconnectRequested = true := by
  have hbefore : ∀ w, (s.threads (.worker w)).pc = .unborn := by
    intro w
    by_contra hb
    exact born_step hp hen hb (hnone w)
  rw [ThreadState.setPc_requested, effect_requested]
  have hstart : ∀ q : Pc, q.start = true → q.hiring = false :=
    Pc.start_false rfl rfl fun _ => rfl
  have hcases : a = .notify ∨ s.reconnectRequested = true := by
    rcases step_pc_cases hstart hp h with ⟨rfl, hpc⟩ | ⟨-, hpc⟩
    · rcases program_hiring hp hpc with rfl | ⟨hold, -⟩
      · exact .inl rfl
      · exact .inr (hs.hired t' hold hbefore)
    · exact .inr (hs.hired t' hpc hbefore)
  rcases hcases with rfl | hreq
  · rfl
  · cases a with
    | takeRequest =>
      obtain ⟨w, rfl⟩ := hs.worker_of_takeRequest hp
      exact ((live_of_program hp).1.1 (hbefore w)).elim
    | notify => rfl
    | rearm => rfl
    | _ => exact hreq

theorem owned_step (hs : ProgressInv s) (hp : program cfg (s.threads t).pc ch = some (a, pc))
    (hen : enabled s t a = true) (h : ((effect s t a).setPc t pc).sendMtx = true) :
    ∃ u, (((effect s t a).setPc t pc).threads u).pc.holdsSend = true := by
  have hmtx : ((effect s t a).setPc t pc).sendMtx = (effect s t a).sendMtx := rfl
  have hself : (((effect s t a).setPc t pc).threads t).pc = pc := ThreadState.setPc_self ..
  rw [hmtx, effect_sendMtx] at h
  rcases program_holdsSend hp with ⟨rfl, -, hin⟩ | ⟨rfl, -, -⟩ | ⟨hl, hu, hsame, -⟩
  · obtain ⟨kind, hk⟩ := Option.isSome_iff_exists.mp hin
    exact ⟨t, hself.symm ▸ Pc.holdsSend_of_sendKind hk⟩
  · contradiction
  · obtain ⟨u, hown⟩ : ∃ u, (s.threads u).pc.holdsSend = true := by
      refine hs.owned ?_
      cases a with
      | lock => exact (hl rfl).elim
      | unlock => exact (hu rfl).elim
      | _ => exact h
    by_cases hut : u = t
    · subst hut
      exact ⟨u, by rw [hself, hsame, hown]⟩
    · have hborn : (s.threads u).pc ≠ .unborn := by
        intro hb
        simp [hb, Pc.holdsSend, Pc.sendKind] at hown
      exact ⟨u, by rw [step_pc_of_ne hen hut hborn, hown]⟩

theorem step (hs : ProgressInv s) (hc : OneWorker s l) (h : threadStep cfg s l = some s') :
    ProgressInv s' := by
  have hcustody := hs.custody.step h
  have hexclusive := hs.exclusive.step h
  have hfinite := touched_step h hs.finite
  obtain ⟨t, ch⟩ := l
  obtain ⟨a, pc, hp, hen, rfl⟩ := threadStep_eq_some.mp h
  constructor
  · exact hcustody
  · exact hexclusive
  · exact hs.owned_step hp hen
  · exact hfinite
  · exact hs.oneWorker_step hc hp hen
  · exact hs.firstWorker_step hp hen
  · exact hs.awaited_step hc hp hen
  · exact hs.hired_step hp hen

theorem initial : ProgressInv ThreadState.initial := by
  have hpc : ∀ t, (ThreadState.initial.threads t).pc = .idle ∨
      (ThreadState.initial.threads t).pc = .unborn := ThreadState.initial_pc
  constructor
  · exact Custody.initial
  · exact exclusive_initial
  · intro h
    simp [ThreadState.initial] at h
  · exact ⟨[], untouched_initial []⟩
  · intro w w' hw
    exact (hw rfl).elim
  · intro t old h
    rcases hpc t with ht | ht <;> simp [ht] at h
  · intro t h
    rcases hpc t with ht | ht <;> simp [ht, Pc.awaits] at h
  · intro t h
    rcases hpc t with ht | ht <;> simp [ht, Pc.hiring] at h

end ProgressInv

/-! ## Chains of waits -/

theorem Pc.free_of_holdsSend (h : pc.holdsSend = true) :
    pc.resting = false ∧ pc.wantsSend = false ∧ pc.joins = none ∧ pc.sleeps = false := by
  unfold Pc.holdsSend Pc.sendKind at h
  repeat' split at h
  all_goals first
    | exact ⟨rfl, rfl, rfl, rfl⟩
    | contradiction

theorem Pc.awaits_of_sleeps (h : pc.sleeps = true) : pc.awaits = true := by
  unfold Pc.sleeps at h
  split at h
  · rfl
  · contradiction

theorem Pc.hands_of_joins {x : Slot × ℕ} (h : pc.joins = some x) : pc.hands = some x := by
  unfold Pc.joins at h
  split at h
  · exact h
  · exact h
  · exact h
  · contradiction

namespace ProgressInv

variable (hs : ProgressInv s)

include hs

theorem canStep_of_holdsSend (h : (s.threads t).pc.holdsSend = true) : s.CanStep cfg t := by
  obtain ⟨hrest, hsend, hjoin, hsleep⟩ := Pc.free_of_holdsSend h
  apply canStep_of_unblocked hrest
  · simp [hsend]
  · simp [hjoin]
  · simp [hsleep]
  · exact hs.exists_fresh

/-- A thread that joins nobody waits for the owner of the mutex at most. -/
theorem chain_of_joins_none (hrest : (s.threads t).pc.resting = false)
    (hjoin : ∀ slot n, (s.threads t).pc.joins = some (slot, n) →
      (s.threads (slot.tid n)).pc = .finished) :
    ∃ u, Relation.ReflTransGen s.WaitsFor t u ∧ s.CanStep cfg u := by
  by_cases hwait : (s.threads t).pc.wantsSend = true ∧ s.sendMtx = true
  · obtain ⟨u, hu⟩ := hs.owned hwait.2
    exact ⟨u, .single (.inl ⟨hwait.1, hu⟩), hs.canStep_of_holdsSend hu⟩
  · refine ⟨t, .refl, canStep_of_unblocked hrest ?_ hjoin ?_ hs.exists_fresh⟩
    · intro hw
      simpa using fun hm => hwait ⟨hw, hm⟩
    · exact fun hz => hs.awaited t (Pc.awaits_of_sleeps hz)

/-- Only `connect` finds a thread in a member it assigns to, and that thread joins nobody. -/
theorem joins_of_joined {slot : Slot} (hjoin : (s.threads t).pc.joins = some (slot, n)) :
    (s.threads (slot.tid n)).pc.joins = none := by
  have hk := hs.custody.kinds (slot.tid n)
  have hslot : slot ≠ .reconnectThread := by
    rintro rfl
    unfold Pc.joins at hjoin
    split at hjoin
    · simp at hjoin
    · simp at hjoin
    · next old hpc =>
      rw [hs.firstWorker t old hpc] at hjoin
      contradiction
    · contradiction
  cases hpc : (s.threads (slot.tid n)).pc with
  | connect k p =>
    rw [hpc] at hk
    cases slot <;> cases k <;> simp_all [Tid.At, Pc.kind, Slot.tid, Tid.kind, Caller.kind]
  | recv p =>
    cases p with
    | joinWorker old =>
      rw [hs.firstWorker _ old hpc]
      rfl
    | _ => rfl
  | _ => rfl

theorem chain (hrest : (s.threads t).pc.resting = false) :
    ∃ u, Relation.ReflTransGen s.WaitsFor t u ∧ s.CanStep cfg u := by
  by_cases hjoin : ∀ slot n, (s.threads t).pc.joins = some (slot, n) →
      (s.threads (slot.tid n)).pc = .finished
  · exact hs.chain_of_joins_none hrest hjoin
  · push Not at hjoin
    obtain ⟨slot, n, hj, hend⟩ := hjoin
    have hborn := hs.custody.handed t slot n (Pc.hands_of_joins hj)
    have hrest' : (s.threads (slot.tid n)).pc.resting = false := by
      have hk := hs.custody.kinds (slot.tid n)
      unfold Pc.resting
      split
      · next hpc =>
        rw [hpc] at hk
        cases slot <;> simp [Tid.At, Pc.kind, Slot.tid, Tid.kind] at hk
      · next hpc => exact (hborn hpc).elim
      · next hpc => exact (hend hpc).elim
      · rfl
    obtain ⟨u, hchain, hu⟩ : ∃ u, Relation.ReflTransGen s.WaitsFor (slot.tid n) u ∧
        s.CanStep cfg u := by
      refine hs.chain_of_joins_none hrest' fun slot' n' hj' => ?_
      simp [hs.joins_of_joined hj] at hj'
    exact ⟨u, .head (.inr ⟨slot, n, hj, rfl, hend⟩) hchain, hu⟩

end ProgressInv

/-! ## Runs -/

/--
If no receive loop of a publisher starts a worker next to another one, every thread in the middle
of something has a step, or waits for a thread, which may wait for another one, that has a step.
-/
theorem no_wait_in_vain (cfg : ThreadConfig) (ls : List ThreadLabel) (s : ThreadState)
    (h : Runs.exec (threadStep { cfg with role := .publisher }) ThreadState.initial ls = some s)
    (hone : Runs.Along (threadStep { cfg with role := .publisher }) OneWorker
      ThreadState.initial ls)
    (t : Tid) (hrest : (s.threads t).pc.resting = false) :
    ∃ u, Relation.ReflTransGen s.WaitsFor t u ∧
      s.CanStep { cfg with role := .publisher } u := by
  have hs : ProgressInv s :=
    Runs.invariant h hone ProgressInv.initial fun _ _ _ hs hc hstep => hs.step hc hstep
  exact hs.chain hrest

/-- There is no worker yet where a receive loop starts one. -/
def noWorkerYet (s : ThreadState) (l : ThreadLabel) : Bool :=
  staysIn sampleThreads l && match (s.threads l.1).pc with
    | .recv .spawnWorker =>
      decide ((s.threads (.worker 0)).pc = .unborn ∧ (s.threads (.worker 1)).pc = .unborn)
    | _ => true

theorem oneWorker_of_noWorkerYet (s : ThreadState) (l : ThreadLabel)
    (hu : Untouched sampleThreads s) (h : noWorkerYet s l = true) : OneWorker s l := by
  intro hpc w
  rw [noWorkerYet, hpc, Bool.and_eq_true, decide_eq_true_eq] at h
  by_cases hw : Tid.worker w ∈ sampleThreads
  · obtain rfl | rfl : w = 0 ∨ w = 1 := by simpa [sampleThreads] using hw
    · exact h.2.1
    · exact h.2.2
  · exact hu _ hw

/--
Worker 0 has reconnected and joins keepalive thread 0, which waits for the mutex that user 1 has
for its PUBLISH.
-/
def heldUp : List ThreadLabel :=
  [[(.user 0, .call .connect)], connectRun (.user 0) 0 none [], lossRun 0, workerRun,
    (connectRun (.worker 0) 1 (some 0) []).take 14,
    [(.user 1, .call (.send .publish)), (.user 1, .yes), (.user 1, .go), (.user 1, .more)],
    [(.keepalive 0, .no), (.keepalive 0, .no), (.keepalive 0, .yes), (.keepalive 0, .yes)],
    [(.worker 0, .replace (some 0))]].flatten

theorem no_wait_in_vain_heldUp :
    ∃ s, Runs.exec (threadStep {}) ThreadState.initial heldUp = some s ∧
      (s.threads (.worker 0)).pc = .connect (.worker 1) (.joinKeepalive (some 0)) ∧
      ∃ u, Relation.ReflTransGen s.WaitsFor (.worker 0) u ∧ s.CanStep {} u := by
  have hrun : (Runs.exec (threadStep {}) ThreadState.initial heldUp).map
      (fun s => (s.threads (.worker 0)).pc) =
      some (.connect (.worker 1) (.joinKeepalive (some 0))) := by decide +kernel
  obtain ⟨s, hs, hpc⟩ := Option.map_eq_some_iff.mp hrun
  refine ⟨s, hs, hpc, no_wait_in_vain {} heldUp s hs ?_ (.worker 0) (by rw [hpc]; rfl)⟩
  refine Runs.along_of_check (I := Untouched sampleThreads) (c := noWorkerYet) (by decide +kernel)
    (untouched_initial _) oneWorker_of_noWorkerYet fun s l s' hu hl hstep => ?_
  rw [noWorkerYet, Bool.and_eq_true] at hl
  exact hu.step hl.1 hstep

/-! ## Two workers -/

theorem program_joins {slot : Slot} (hj : pc.joins = some (slot, n))
    (h : program cfg pc ch = some (a, pc')) : a = .join (some (slot.tid n)) := by
  unfold Pc.joins at hj
  split at hj
  all_goals try contradiction
  all_goals
    obtain ⟨rfl, rfl⟩ := map_slot_eq_some.mp hj
    cases ch <;>
      simp only [program, connectProgram, recvProgram, reduceCtorEq, Option.some.injEq,
        Prod.mk.injEq] at h
    exact h.1.symm

/-- A thread that joins a thread which has not ended does not step. -/
theorem threadStep_joins {slot : Slot} (hj : (s.threads t).pc.joins = some (slot, n))
    (hend : (s.threads (slot.tid n)).pc ≠ .finished) (ch : Choice) :
    threadStep cfg s (t, ch) = none := by
  by_contra hne
  obtain ⟨s', h⟩ := Option.ne_none_iff_exists'.mp hne
  obtain ⟨a, pc, hp, hen, -⟩ := threadStep_eq_some.mp h
  obtain rfl := program_joins hj hp
  exact hend (by simpa [enabled] using hen)

/-- Two threads at points where each of them joins the other. -/
structure JoinEachOther (s : ThreadState) (slot slot' : Slot) (n n' : ℕ) : Prop where
  left : (s.threads (slot.tid n)).pc.joins = some (slot', n')
  right : (s.threads (slot'.tid n')).pc.joins = some (slot, n)

namespace JoinEachOther

variable {slot slot' : Slot} {n' : ℕ}

theorem ne_finished (h : pc.joins = some (slot, n)) : pc ≠ .finished := by
  rintro rfl
  simp [Pc.joins] at h

theorem step (hj : JoinEachOther s slot slot' n n') (h : threadStep cfg s l = some s') :
    JoinEachOther s' slot slot' n n' := by
  obtain ⟨t, ch⟩ := l
  have hne : t ≠ slot.tid n ∧ t ≠ slot'.tid n' := by
    constructor
    · rintro rfl
      rw [threadStep_joins hj.left (ne_finished hj.right)] at h
      contradiction
    · rintro rfl
      rw [threadStep_joins hj.right (ne_finished hj.left)] at h
      contradiction
  obtain ⟨a, pc, -, hen, rfl⟩ := threadStep_eq_some.mp h
  have hborn : ∀ {q : Pc} {x : Slot × ℕ}, q.joins = some x → q ≠ .unborn := by
    rintro q x hq rfl
    simp [Pc.joins] at hq
  constructor
  · rw [step_pc_of_ne hen hne.1.symm (hborn hj.left)]
    exact hj.left
  · rw [step_pc_of_ne hen hne.2.symm (hborn hj.right)]
    exact hj.right

/-- Whatever the others do, the two wait for ever. -/
theorem exec (hj : JoinEachOther s slot slot' n n') {ls : List ThreadLabel}
    (h : Runs.exec (threadStep cfg) s ls = some s') : JoinEachOther s' slot slot' n n' :=
  Runs.always (I := fun s => JoinEachOther s slot slot' n n') h hj fun _ _ _ hs hstep =>
    hs.step hstep

end JoinEachOther

/--
Receive loops 0 and 1 have both found no worker. Loop 0 starts worker 0, which reconnects and joins
loop 1; loop 1 starts worker 1 and joins worker 0.
-/
def twoWorkers : List ThreadLabel :=
  [[(.user 0, .call .connect)], connectRun (.user 0) 0 none [], lossRun 0, [(.recv 0, .no)],
    [(.user 0, .call .connect)], (connectRun (.user 0) 1 (some 0) []).take 12, lossRun 1,
    [(.recv 1, .no)], workerRun.drop 1, (connectRun (.worker 0) 2 (some 1) []).take 12,
    [(.recv 1, .fresh 1), (.recv 1, .replace (some 0))]].flatten

/-- Where a second receive loop starts a worker too, it and the first worker can be stuck. -/
theorem two_workers_deadlock :
    ∃ s, Runs.exec (threadStep {}) ThreadState.initial twoWorkers = some s ∧
      ∀ ls s', Runs.exec (threadStep {}) s ls = some s' →
        JoinEachOther s' .recvThread .reconnectThread 1 0 := by
  have hrun : (Runs.exec (threadStep {}) ThreadState.initial twoWorkers).map
      (fun s => ((s.threads (.recv 1)).pc, (s.threads (.worker 0)).pc)) =
      some (.recv (.joinWorker (some 0)), .connect (.worker 1) (.joinRecv (some 1))) := by
    decide +kernel
  obtain ⟨s, hs, hpc⟩ := Option.map_eq_some_iff.mp hrun
  simp only [Prod.mk.injEq] at hpc
  refine ⟨s, hs, fun ls s' h => JoinEachOther.exec ?_ h⟩
  constructor
  · rw [Slot.tid, hpc.1]
    rfl
  · rw [Slot.tid, hpc.2]
    rfl

end MqttNativeSocket
