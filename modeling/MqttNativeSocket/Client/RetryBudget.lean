import MqttNativeSocket.Client.Reconnect

/-! # The retry budget

The history of a worker lists its calls of `connect`, their outcomes and its writes
of the state. The counter of a worker is tested after it is incremented, which keeps
the calls within `maxRetries` as long as the increment does not wrap round to zero.
-/

namespace MqttNativeSocket

/-- What a worker does that others can see. -/
inductive WorkerEvent where
  | called
  /-- `connect` returned an error. -/
  | failed
  /-- `connect` wrote Connected. -/
  | connected
  /-- `connect` wrote another state. -/
  | wrote (v : ConnectionState)
  /-- The loop itself wrote a state, as it does when the retries are exhausted. -/
  | gaveUp (v : ConnectionState)
  deriving DecidableEq, Repr

/-- The state that an action writes. -/
def Action.written : Action → Option ConnectionState
  | .setState v => some v
  | .succeed => some .connected
  | .lose => some .reconnecting
  | _ => none

/-- Inside a call of `connect`. -/
def Pc.calling : Pc → Bool
  | .connect _ _ => true
  | _ => false

/-- In the loop of a worker, outside of `connect`. -/
def Pc.looping : Pc → Bool
  | .worker _ _ => true
  | _ => false

def WorkerEvent.ofWrite (calling : Bool) (v : ConnectionState) : WorkerEvent :=
  if calling then if v = .connected then .connected else .wrote v else .gaveUp v

/-- What one action of the worker adds to its history. -/
def workerEvents (pc : Pc) (a : Action) (pc' : Pc) : List WorkerEvent :=
  (if !pc.calling && pc'.calling then [.called] else []) ++
    (a.written.map (WorkerEvent.ofWrite pc.calling)).toList ++
    (if pc.calling && pc'.looping then [.failed] else [])

/-- The client, and what a worker has done so far. -/
structure Watched where
  client : ThreadState
  history : List WorkerEvent := []

/-- A step of the client, with the history of worker `w`. -/
def watchStep (cfg : ThreadConfig) (w : ℕ) (x : Watched) (l : ThreadLabel) : Option Watched := do
  let (a, pc) ← program cfg (x.client.threads l.1).pc l.2
  if enabled x.client l.1 a then
    return {
      client := (effect x.client l.1 a).setPc l.1 pc
      history := if l.1 = .worker w then
        x.history ++ workerEvents (x.client.threads l.1).pc a pc else x.history }
  else none

def Watched.initial : Watched := { client := .initial }

/--
At most `n` calls of `connect`; nothing comes after the first success, no call and no write of
the state; and a worker gives up with Failed, once exactly `n` calls were made and have failed.
-/
structure Budget (n : ℕ) (history : List WorkerEvent) : Prop where
  calls : history.count .called ≤ n
  stops : ∀ before after, history = before ++ .connected :: after → after = []
  exhausted : ∀ before after v, history = before ++ .gaveUp v :: after →
    v = .failed ∧ before.count .called = n ∧ before.count .failed = n

variable {cfg : ThreadConfig} {w : ℕ} {x x' : Watched} {l : ThreadLabel} {a : Action}
  {pc pc' : Pc} {ch : Choice} {h : List WorkerEvent} {N : ℕ}

theorem watchStep_eq_some : watchStep cfg w x l = some x' ↔
    ∃ a pc, program cfg (x.client.threads l.1).pc l.2 = some (a, pc) ∧
      enabled x.client l.1 a ∧ x'.client = (effect x.client l.1 a).setPc l.1 pc ∧
      x'.history = if l.1 = .worker w then
        x.history ++ workerEvents (x.client.threads l.1).pc a pc else x.history := by
  simp only [watchStep, Option.bind_eq_bind, Option.bind_eq_some_iff, Option.pure_def,
    Option.ite_none_right_eq_some, Option.some.injEq, Prod.exists]
  refine exists_congr fun a => exists_congr fun pc => and_congr_right fun _ =>
    and_congr_right fun _ => ?_
  cases x'
  rw [Watched.mk.injEq, eq_comm, @eq_comm _ (ite _ _ _)]

/-- Watching changes nothing: the runs are those of the client. -/
theorem exec_watchStep_client {ls : List ThreadLabel} :
    (Runs.exec (watchStep cfg w) x ls).map Watched.client =
      Runs.exec (threadStep cfg) x.client ls := by
  refine Runs.exec_map fun x l => ?_
  unfold watchStep threadStep
  cases program cfg (x.client.threads l.1).pc l.2 with
  | none => rfl
  | some r =>
    simp only [Option.bind_eq_bind, Option.bind_some]
    split <;> rfl

/-! ## Histories -/

/-- Neither a success nor an exhaustion so far. -/
structure Undecided (h : List WorkerEvent) : Prop where
  connected : WorkerEvent.connected ∉ h
  gaveUp : ∀ v, WorkerEvent.gaveUp v ∉ h

theorem Undecided.append {more : List WorkerEvent} (hu : Undecided h) (hm : Undecided more) :
    Undecided (h ++ more) := by
  constructor
  · exact List.not_mem_append hu.connected hm.connected
  · exact fun v => List.not_mem_append (hu.gaveUp v) (hm.gaveUp v)

theorem Undecided.budget (hu : Undecided h) (hc : h.count .called ≤ N) : Budget N h := by
  constructor
  · exact hc
  · rintro before after rfl
    exact absurd (List.mem_append_right _ List.mem_cons_self) hu.connected
  · rintro before after v rfl
    exact absurd (List.mem_append_right _ List.mem_cons_self) (hu.gaveUp v)

theorem Undecided.budget_connected (hu : Undecided h) (hc : h.count .called ≤ N) :
    Budget N (h ++ [.connected]) := by
  constructor
  · simpa [List.count_append] using hc
  · intro before after heq
    exact ((List.append_cons_inj_of_notMem hu.connected List.not_mem_nil).mp heq).2.2.symm
  · intro before after v heq
    cases ((List.append_cons_inj_of_notMem (hu.gaveUp v) List.not_mem_nil).mp heq).2.1

theorem Undecided.budget_gaveUp (hu : Undecided h) (hc : h.count .called = N)
    (hf : h.count .failed = N) : Budget N (h ++ [.gaveUp .failed]) := by
  constructor
  · simpa [List.count_append] using hc.le
  · intro before after heq
    cases ((List.append_cons_inj_of_notMem hu.connected List.not_mem_nil).mp heq).2.1
  · intro before after v heq
    obtain ⟨rfl, ⟨⟩, -⟩ := (List.append_cons_inj_of_notMem (hu.gaveUp v) List.not_mem_nil).mp heq
    exact ⟨rfl, hc, hf⟩

/-! ## One action of the worker -/

theorem written_ne_connected (hp : program cfg pc ch = some (a, pc')) (ha : a ≠ .succeed) :
    a.written ≠ some .connected := by
  cases a with
  | setState v =>
    have hv := program_setState hp
    simpa [Action.written] using hv
  | succeed => exact absurd rfl ha
  | _ => simp [Action.written]

/-- Where the counter is tested. -/
theorem workerProgram_cases {n : UInt32} {p : WorkerPc}
    (hp : workerProgram cfg n p ch = some (a, pc')) :
    (p ≠ .count ∧ a.written = none ∧ (pc' = .finished ∨ ∃ p', pc' = .worker p' n)) ∨
    p = .count ∧ (0 < cfg.maxRetries ∧ cfg.maxRetries < n + 1) ∧
      a = .setState .failed ∧ pc' = .finished ∨
    p = .count ∧ ¬ (0 < cfg.maxRetries ∧ cfg.maxRetries < n + 1) ∧
      a = .skip ∧ pc' = .connect (.worker (n + 1)) .check := by
  unfold workerProgram at hp
  repeat' split at hp
  all_goals simp only [reduceCtorEq, Option.some.injEq, Prod.mk.injEq] at hp
  all_goals obtain ⟨rfl, rfl⟩ := hp
  all_goals simp_all [Action.written]

theorem connectProgram_succeed {k : Caller} {p : ConnectPc}
    (hp : connectProgram cfg k p ch = some (.succeed, pc')) :
    ∃ p', p'.beforeSuccess = false ∧ pc' = .connect k p' := by
  unfold connectProgram at hp
  repeat' split at hp
  all_goals simp only [reduceCtorEq, Option.some.injEq, Prod.mk.injEq, false_and, true_and] at hp
  all_goals (subst hp; simp [ConnectPc.beforeSuccess])

/-- After its success, `connect` starts its threads and comes back. -/
theorem connectProgram_afterSuccess {k : Caller} {p : ConnectPc} (hs : p.beforeSuccess = false)
    (hp : connectProgram cfg k p ch = some (a, pc')) :
    a.written = none ∧
      (pc' = k.resume true ∨ ∃ p', p'.beforeSuccess = false ∧ pc' = .connect k p') := by
  unfold connectProgram at hp
  repeat' split at hp
  all_goals simp only [reduceCtorEq, Option.some.injEq, Prod.mk.injEq, ConnectPc.beforeSuccess,
    Bool.true_eq_false] at hp hs
  all_goals (obtain ⟨rfl, rfl⟩ := hp; simp [Action.written, ConnectPc.beforeSuccess])

/-! ## The invariant -/

/-- How the history of a worker fits the point it is at. -/
inductive Tracked (N : ℕ) : Pc → List WorkerEvent → Prop where
  | unborn : Tracked N .unborn []
  | looping (p : WorkerPc) (n : UInt32) (h : List WorkerEvent) (hu : Undecided h)
      (hc : h.count .called = n.toNat) (hf : h.count .failed = n.toNat) (hn : n.toNat ≤ N) :
      Tracked N (.worker p n) h
  | calling (n : UInt32) (p : ConnectPc) (h : List WorkerEvent) (hp : p.beforeSuccess = true)
      (hu : Undecided h) (hc : h.count .called = n.toNat) (hf : h.count .failed + 1 = n.toNat)
      (hn : n.toNat ≤ N) : Tracked N (.connect (.worker n) p) h
  | connected (n : UInt32) (p : ConnectPc) (h : List WorkerEvent) (hp : p.beforeSuccess = false)
      (hb : Budget N h) : Tracked N (.connect (.worker n) p) h
  | finished (h : List WorkerEvent) (hb : Budget N h) : Tracked N .finished h

theorem Tracked.eq_nil (ht : Tracked N .unborn h) : h = [] := by
  cases ht
  rfl

theorem Tracked.count_called {p : WorkerPc} {n : UInt32} (ht : Tracked N (.worker p n) h) :
    h.count .called = n.toNat ∧ n.toNat ≤ N := by
  cases ht with
  | looping p n h hu hc hf hn => exact ⟨hc, hn⟩

theorem Tracked.budget (ht : Tracked N pc h) : Budget N h := by
  cases ht with
  | unborn => exact Undecided.budget ⟨List.not_mem_nil, fun _ => List.not_mem_nil⟩ (Nat.zero_le _)
  | looping p n h hu hc hf hn => exact hu.budget (hc.trans_le hn)
  | calling n p h hp hu hc hf hn => exact hu.budget (hc.trans_le hn)
  | connected n p h hp hb => exact hb
  | finished h hb => exact hb

/-- What `connect` writes before its success decides nothing. -/
theorem undecided_writes {o : Option ConnectionState} (ho : o ≠ some .connected) :
    Undecided (o.map (WorkerEvent.ofWrite true)).toList ∧
    (o.map (WorkerEvent.ofWrite true)).toList.count .called = 0 ∧
    (o.map (WorkerEvent.ofWrite true)).toList.count .failed = 0 := by
  cases o with
  | none => exact ⟨⟨List.not_mem_nil, fun _ => List.not_mem_nil⟩, rfl, rfl⟩
  | some v =>
    have hv : v ≠ .connected := fun h => ho (congrArg some h)
    have hw : WorkerEvent.ofWrite true v = .wrote v := by simp [WorkerEvent.ofWrite, hv]
    rw [Option.map_some, Option.toList_some, hw]
    exact ⟨⟨by simp, by simp⟩, by simp, by simp⟩

theorem undecided_called : Undecided [.called] := ⟨by simp, by simp⟩

theorem undecided_failed : Undecided [.failed] := ⟨by simp, by simp⟩

theorem toNat_add_one {n : UInt32} (hn : n ≠ 4294967295) : (n + 1).toNat = n.toNat + 1 := by
  have hlt := n.toNat_lt
  have hne : n.toNat ≠ 4294967295 := fun h => hn (UInt32.toNat_inj.mp h)
  rw [UInt32.toNat_add, UInt32.toNat_one, Nat.mod_eq_of_lt (by omega)]

section workerEvents

variable (k : Caller) (q q' : ConnectPc) (p : WorkerPc) (n : UInt32)

theorem workerEvents_call : workerEvents (.worker p n) .skip (.connect k q) = [.called] := rfl

theorem workerEvents_giveUp (v : ConnectionState) :
    workerEvents (.worker p n) (.setState v) .finished = [.gaveUp v] := rfl

theorem workerEvents_succeed :
    workerEvents (.connect k q) .succeed (.connect k q') = [.connected] := rfl

theorem workerEvents_return (a : Action) : workerEvents (.connect k q) a (.worker p n) =
    (a.written.map (WorkerEvent.ofWrite true)).toList ++ [.failed] := rfl

theorem workerEvents_connect (a : Action) : workerEvents (.connect k q) a (.connect k q') =
    (a.written.map (WorkerEvent.ofWrite true)).toList := List.append_nil _

end workerEvents

theorem workerEvents_eq_nil (ha : a.written = none)
    (hcalled : (!pc.calling && pc'.calling) = false)
    (hfailed : (pc.calling && pc'.looping) = false) : workerEvents pc a pc' = [] := by
  simp [workerEvents, ha, hcalled, hfailed]

/-- In the loop, the counter is below its end where it is incremented. -/
theorem Tracked.step_looping {n : UInt32} {p : WorkerPc}
    (ht : Tracked cfg.maxRetries.toNat (.worker p n) h) (hmax : 0 < cfg.maxRetries)
    (hwrap : p = .count → n ≠ 4294967295)
    (hp : workerProgram cfg n p ch = some (a, pc')) :
    Tracked cfg.maxRetries.toNat pc' (h ++ workerEvents (.worker p n) a pc') := by
  cases ht with
  | looping p n h hu hc hf hn =>
    obtain ⟨-, ha, hpc⟩ | ⟨rfl, hspent, rfl, rfl⟩ | ⟨rfl, hleft, rfl, rfl⟩ :=
      workerProgram_cases hp
    · obtain rfl | ⟨p', rfl⟩ := hpc
      · rw [workerEvents_eq_nil ha rfl rfl, List.append_nil]
        exact .finished h (hu.budget (hc.trans_le hn))
      · rw [workerEvents_eq_nil ha rfl rfl, List.append_nil]
        exact .looping p' n h hu hc hf hn
    · have hlast : n.toNat = cfg.maxRetries.toNat := by
        have hlt := UInt32.lt_iff_toNat_lt.mp hspent.2
        rw [toNat_add_one (hwrap rfl)] at hlt
        omega
      rw [workerEvents_giveUp]
      exact .finished _ (hu.budget_gaveUp (hc.trans hlast) (hf.trans hlast))
    · have hle : (n + 1).toNat ≤ cfg.maxRetries.toNat :=
        UInt32.le_iff_toNat_le.mp (UInt32.not_lt.mp fun hlt => hleft ⟨hmax, hlt⟩)
      rw [workerEvents_call]
      apply Tracked.calling _ _ _ rfl (hu.append undecided_called)
      · simp [List.count_append, hc, toNat_add_one (hwrap rfl)]
      · simp [List.count_append, hf, toNat_add_one (hwrap rfl)]
      · exact hle

/-- A call either succeeds, or comes back with an error, or goes on. -/
theorem Tracked.step_calling {n : UInt32} {p : ConnectPc} (hbefore : p.beforeSuccess = true)
    (hu : Undecided h) (hc : h.count .called = n.toNat) (hf : h.count .failed + 1 = n.toNat)
    (hn : n.toNat ≤ N) (hp : connectProgram cfg (.worker n) p ch = some (a, pc')) :
    Tracked N pc' (h ++ workerEvents (.connect (.worker n) p) a pc') := by
  by_cases ha : a = .succeed
  · subst ha
    obtain ⟨p', hp', rfl⟩ := connectProgram_succeed hp
    rw [workerEvents_succeed]
    exact .connected n p' _ hp' (hu.budget_connected (hc.trans_le hn))
  · have hprogram : program cfg (.connect (.worker n) p) ch = some (a, pc') := hp
    obtain ⟨hw, hwc, hwf⟩ := undecided_writes (written_ne_connected hprogram ha)
    obtain hs | rfl | ⟨p', hp', rfl⟩ := connectProgram_worker hbefore hp
    · exact absurd hs ha
    · rw [workerEvents_return]
      apply Tracked.looping _ n _ (hu.append (hw.append undecided_failed))
      · simp [List.count_append, hwc, hc]
      · simp [List.count_append, hwf, hf]
      · exact hn
    · rw [workerEvents_connect]
      apply Tracked.calling n p' _ hp' (hu.append hw)
      · simp [List.count_append, hwc, hc]
      · simpa [List.count_append, hwf] using hf
      · exact hn

/-- A step of the worker that does not count past the end of its counter. -/
theorem Tracked.step (ht : Tracked cfg.maxRetries.toNat pc h) (hmax : 0 < cfg.maxRetries)
    (hwrap : pc ≠ .worker .count 4294967295) (hp : program cfg pc ch = some (a, pc')) :
    Tracked cfg.maxRetries.toNat pc' (h ++ workerEvents pc a pc') := by
  cases ht with
  | unborn => simp [program] at hp
  | finished h hb => simp [program] at hp
  | looping p n h hu hc hf hn =>
    apply Tracked.step_looping (.looping p n h hu hc hf hn) hmax _ hp
    rintro rfl rfl
    exact hwrap rfl
  | calling n p h hbefore hu hc hf hn => exact Tracked.step_calling hbefore hu hc hf hn hp
  | connected n p h hafter hb =>
    obtain ⟨ha, rfl | ⟨p', hp', rfl⟩⟩ := connectProgram_afterSuccess hafter hp
    · rw [workerEvents_eq_nil ha rfl rfl, List.append_nil]
      exact .finished h hb
    · rw [workerEvents_eq_nil ha rfl rfl, List.append_nil]
      exact .connected n p' h hp' hb

/-! ## Runs -/

/-- The step does not increment the counter of worker `w` past its largest value. -/
def CountsOn (w : ℕ) (x : Watched) (l : ThreadLabel) : Prop :=
  l.1 = .worker w → (x.client.threads l.1).pc ≠ .worker .count 4294967295

theorem program_spawn_worker {p : Pc} (hp : program cfg pc ch = some (.spawn (.worker w) p, pc')) :
    p = .worker .top 0 := by
  unfold program callProgram connectProgram disconnectProgram sendProgram recvProgram
    workerProgram keepaliveProgram at hp
  repeat' split at hp
  all_goals simp only [reduceCtorEq, Option.some.injEq, Prod.mk.injEq, Action.spawn.injEq,
    false_and] at hp
  all_goals exact hp.1.2.symm

def Watched.Tracked (w N : ℕ) (x : Watched) : Prop :=
  MqttNativeSocket.Tracked N (x.client.threads (.worker w)).pc x.history

theorem Watched.tracked_initial : Watched.initial.Tracked w N := .unborn

theorem Watched.Tracked.step (hx : x.Tracked w cfg.maxRetries.toNat) (hmax : 0 < cfg.maxRetries)
    (hc : CountsOn w x l) (hs : watchStep cfg w x l = some x') :
    x'.Tracked w cfg.maxRetries.toNat := by
  obtain ⟨a, pc, hp, hen, hclient, hhistory⟩ := watchStep_eq_some.mp hs
  rw [Watched.Tracked, hclient, hhistory]
  by_cases hl : l.1 = .worker w
  · rw [if_pos hl, ← hl, ThreadState.setPc_self]
    refine MqttNativeSocket.Tracked.step ?_ hmax (hc hl) hp
    rw [hl]
    exact hx
  · rw [if_neg hl]
    by_cases hborn : (x.client.threads (.worker w)).pc = .unborn
    · rw [Watched.Tracked, hborn] at hx
      rw [step_pc, if_neg (Ne.symm hl), hx.eq_nil]
      -- another thread may start the worker
      cases a with
      | spawn child p =>
        by_cases hchild : Tid.worker w = child
        · obtain rfl := hchild
          simp only [if_true, program_spawn_worker hp]
          exact .looping .top 0 [] ⟨List.not_mem_nil, fun _ => List.not_mem_nil⟩ rfl rfl
            (Nat.zero_le _)
        · simp only [if_neg hchild, hborn]
          exact .unborn
      | _ => rw [hborn]; exact .unborn
    · rw [step_pc_of_ne hen (Ne.symm hl) hborn]
      exact hx

/-- The step that counts past the end takes the worker over its budget. -/
theorem Watched.Tracked.not_budget (hx : x.Tracked w cfg.maxRetries.toNat)
    (hc : ¬ CountsOn w x l) (hs : watchStep cfg w x l = some x') :
    ¬ Budget cfg.maxRetries.toNat x'.history := by
  obtain ⟨hl, hpc⟩ : l.1 = .worker w ∧ (x.client.threads l.1).pc = .worker .count 4294967295 := by
    simpa [CountsOn] using hc
  obtain ⟨a, pc, hp, hen, -, hhistory⟩ := watchStep_eq_some.mp hs
  rw [Watched.Tracked, ← hl, hpc] at hx
  rw [hpc] at hp
  rcases workerProgram_cases hp with ⟨hcount, -⟩ | ⟨-, hspent, -⟩ | ⟨-, -, rfl, rfl⟩
  · exact absurd rfl hcount
  · exact absurd hspent.2 (by simp)
  · intro hb
    have hmore := hb.calls
    have hlt := cfg.maxRetries.toNat_lt
    have hfull : (4294967295 : UInt32).toNat = 4294967295 := rfl
    rw [hhistory, if_pos hl, hpc, workerEvents_call, List.count_append, hx.count_called.1,
      List.count_singleton_self] at hmore
    omega

/--
In every state of a run worker `w` keeps to its budget exactly when no step of the run increments
its counter past the largest value.
-/
theorem budget_iff_countsOn (cfg : ThreadConfig) (hmax : 0 < cfg.maxRetries) (w : ℕ)
    (ls : List ThreadLabel) :
    (∀ before, before <+: ls → ∀ x, Runs.exec (watchStep cfg w) .initial before = some x →
      Budget cfg.maxRetries.toNat x.history) ↔
    Runs.Along (watchStep cfg w) (fun x l => (watchStep cfg w x l).isSome → CountsOn w x l)
      .initial ls := by
  refine Runs.forall_prefix_iff_along (I := Watched.Tracked w cfg.maxRetries.toNat)
    Watched.tracked_initial (fun _ hx => hx.budget) ?_ (fun _ _ _ hx hc hs => hx.step hmax hc hs)
  intro x l x' hx hs
  constructor
  · intro hb
    by_contra hc
    exact hx.not_budget hc hs hb
  · exact fun hc => (hx.step hmax hc hs).budget

instance : Decidable (CountsOn w x l) := inferInstanceAs (Decidable (_ → _))

/-- One round of the loop with an attempt that cannot open a socket. -/
def failingRound (w : ℕ) : List ThreadLabel :=
  [.no, .go, .no, .go, .no, .go, .go, .error, .go, .go].map fun ch => (.worker w, ch)

/-- With one retry, the worker gives up after one failed call. -/
theorem budget_iff_countsOn_once :
    ∃ x, Runs.exec (watchStep { maxRetries := 1 } 0) .initial
        (oneLoss ++ failingRound 0 ++ (failingRound 0).take 4) = some x ∧
      x.history = [.called, .wrote .connecting, .wrote .failed, .failed, .gaveUp .failed] ∧
      Budget 1 x.history := by
  have hrun : (Runs.exec (watchStep { maxRetries := 1 } 0) .initial
      (oneLoss ++ failingRound 0 ++ (failingRound 0).take 4)).map Watched.history =
      some [.called, .wrote .connecting, .wrote .failed, .failed, .gaveUp .failed] := by
    decide +kernel
  obtain ⟨x, hs, hhistory⟩ := Option.map_eq_some_iff.mp hrun
  refine ⟨x, hs, hhistory, (budget_iff_countsOn { maxRetries := 1 } (by decide) 0 _).mpr
    ?_ _ List.prefix_rfl x hs⟩
  exact Runs.along_of_check (I := fun _ => True) (c := fun x l => decide (CountsOn 0 x l))
    (by decide +kernel) trivial (fun x l _ hc _ => of_decide_eq_true hc) fun _ _ _ _ _ _ => trivial

/-- Below the largest `maxRetries` the counter never gets to its end. -/
theorem Watched.Tracked.countsOn (hx : x.Tracked w cfg.maxRetries.toNat)
    (hmax : cfg.maxRetries ≠ 4294967295) : CountsOn w x l := by
  intro hl hpc
  rw [Watched.Tracked, ← hl, hpc] at hx
  have hle := UInt32.le_iff_toNat_le.mpr hx.count_called.2
  have hge : cfg.maxRetries ≤ 4294967295 :=
    UInt32.le_iff_toNat_le.mpr (Nat.le_of_lt_succ cfg.maxRetries.toNat_lt)
  exact hmax (UInt32.le_antisymm hge hle)

theorem budget_of_maxRetries_ne (hpos : 0 < cfg.maxRetries) (hmax : cfg.maxRetries ≠ 4294967295)
    {ls : List ThreadLabel} (h : Runs.exec (watchStep cfg w) .initial ls = some x) :
    Budget cfg.maxRetries.toNat x.history := by
  have hx : x.Tracked w cfg.maxRetries.toNat :=
    Runs.always h Watched.tracked_initial fun _ _ _ hx hs => hx.step hpos (hx.countsOn hmax) hs
  exact hx.budget

/-! ## A worker without a limit -/

/-- The client is not connected, and worker `w`, not asked to stop, is at a point. -/
structure Watched.Down (w : ℕ) (x : Watched) (pc : Pc) (requested : Bool) : Prop where
  pc : (x.client.threads (.worker w)).pc = pc
  stop : (x.client.threads (.worker w)).stop = false
  requested : x.client.reconnectRequested = requested
  state : x.client.state ≠ .connected

theorem Watched.Down.step (cfg : ThreadConfig) (ch : Choice) {b b' : Bool} (hx : x.Down w pc b)
    (hp : program cfg pc ch = some (a, pc')) (hen : enabled x.client (.worker w) a = true)
    (hstop : ((effect x.client (.worker w) a).threads (.worker w)).stop = false)
    (hrequested : (effect x.client (.worker w) a).reconnectRequested = b')
    (hstate : (effect x.client (.worker w) a).state ≠ .connected) :
    ∃ x', watchStep cfg w x (.worker w, ch) = some x' ∧ x'.Down w pc' b' ∧
      x'.history = x.history ++ workerEvents pc a pc' := by
  obtain rfl := hx.pc
  refine ⟨⟨(effect x.client (.worker w) a).setPc (.worker w) pc', _⟩,
    watchStep_eq_some.mpr ⟨a, pc', hp, hen, rfl, (if_pos rfl).symm⟩, ?_, rfl⟩
  constructor
  · exact ThreadState.setPc_self ..
  · rw [ThreadState.setPc_stop]
    exact hstop
  · exact hrequested
  · exact hstate

/-- No counter is above the largest limit, so the round goes through whatever the counter is. -/
theorem Watched.Down.exec_failingRound {n : UInt32} (hmax : cfg.maxRetries = 4294967295)
    (hx : x.Down w (.worker .top n) true) :
    ∃ x', Runs.exec (watchStep cfg w) x (failingRound w) = some x' ∧
      x'.Down w (.worker .top (n + 1)) true ∧
      x'.history = x.history ++ [.called, .wrote .connecting, .wrote .failed, .failed] := by
  have hcount : program cfg (.worker .count n) .go =
      some (.skip, .connect (.worker (n + 1)) .check) := by
    have hle : n + 1 ≤ 4294967295 :=
      UInt32.le_iff_toNat_le.mpr (Nat.le_of_lt_succ (n + 1).toNat_lt)
    exact if_neg fun h => absurd (hmax ▸ h.2) (UInt32.not_lt.mpr hle)
  obtain ⟨x₁, s₁, h₁, e₁⟩ := hx.step cfg .no rfl (by simp [enabled, hx.stop])
    hx.stop hx.requested hx.state
  obtain ⟨x₂, s₂, h₂, e₂⟩ := h₁.step cfg .go rfl (by simp [enabled, h₁.stop, h₁.requested])
    h₁.stop rfl h₁.state
  obtain ⟨x₃, s₃, h₃, e₃⟩ := h₂.step cfg .no rfl (by simp [enabled, h₂.state])
    h₂.stop h₂.requested h₂.state
  obtain ⟨x₄, s₄, h₄, e₄⟩ := h₃.step cfg .go hcount rfl h₃.stop h₃.requested h₃.state
  obtain ⟨x₅, s₅, h₅, e₅⟩ := h₄.step cfg .no rfl (by simp [enabled, h₄.state])
    h₄.stop h₄.requested h₄.state
  obtain ⟨x₆, s₆, h₆, e₆⟩ := h₅.step cfg .go rfl rfl h₅.stop h₅.requested
    (by simp [effect])
  obtain ⟨x₇, s₇, h₇, e₇⟩ := h₆.step cfg .go rfl rfl h₆.stop h₆.requested h₆.state
  obtain ⟨x₈, s₈, h₈, e₈⟩ := h₇.step cfg .error rfl rfl h₇.stop h₇.requested h₇.state
  obtain ⟨x₉, s₉, h₉, e₉⟩ := h₈.step cfg .go rfl rfl h₈.stop h₈.requested
    (by simp [effect])
  obtain ⟨x₁₀, s₁₀, h₁₀, e₁₀⟩ := h₉.step cfg .go rfl rfl h₉.stop rfl h₉.state
  refine ⟨x₁₀, ?_, h₁₀, ?_⟩
  · simp [failingRound, Runs.exec, s₁, s₂, s₃, s₄, s₅, s₆, s₇, s₈, s₉, s₁₀]
  · simp [e₁, e₂, e₃, e₄, e₅, e₆, e₇, e₈, e₉, e₁₀, workerEvents, Pc.calling, Pc.looping,
      Action.written, WorkerEvent.ofWrite, Caller.resume]

/-- Whatever goes on failing goes on being tried. -/
theorem exists_run_with_calls (hmax : cfg.maxRetries = 4294967295) {n : UInt32}
    (hx : x.Down w (.worker .top n) true) (k : ℕ) :
    ∃ ls x', Runs.exec (watchStep cfg w) x ls = some x' ∧
      x'.history.count .called = x.history.count .called + k := by
  induction k generalizing x n with
  | zero => exact ⟨[], x, rfl, rfl⟩
  | succ k ih =>
    obtain ⟨x₁, hround, hx₁, hhistory⟩ := hx.exec_failingRound hmax
    obtain ⟨ls, x', hexec, hcalls⟩ := ih hx₁
    refine ⟨failingRound w ++ ls, x', ?_, ?_⟩
    · rw [Runs.exec_append, hround]
      exact hexec
    · rw [hcalls, hhistory, List.count_append, Nat.add_right_comm]
      rfl

/-- After the first loss of a client, its worker begins. -/
theorem oneLoss_down (maxRetries : UInt32) :
    ∃ x, Runs.exec (watchStep { maxRetries := maxRetries } 0) .initial oneLoss = some x ∧
      x.Down 0 (.worker .top 0) true ∧ x.history = [] := by
  have hrun : (Runs.exec (watchStep { maxRetries := maxRetries } 0) .initial oneLoss).map (fun x =>
      ((x.client.threads (.worker 0)).pc, (x.client.threads (.worker 0)).stop,
        x.client.reconnectRequested, x.client.state, x.history)) =
      some (.worker .top 0, false, true, .reconnecting, []) := by
    rfl
  obtain ⟨x, hs, hv⟩ := Option.map_eq_some_iff.mp hrun
  simp only [Prod.mk.injEq] at hv
  obtain ⟨hpc, hstop, hrequested, hstate, hhistory⟩ := hv
  exact ⟨x, hs, ⟨hpc, hstop, hrequested, by simp [hstate]⟩, hhistory⟩

/-- With the largest `maxRetries` there is one call too many. -/
theorem largest_maxRetries_over_budget :
    ∃ ls x, Runs.exec (watchStep { maxRetries := 4294967295 } 0) .initial ls = some x ∧
      x.history.count .called = 4294967296 ∧ ¬ Budget 4294967295 x.history := by
  obtain ⟨x, hloss, hx, hempty⟩ := oneLoss_down 4294967295
  have hmax : ({ maxRetries := 4294967295 } : ThreadConfig).maxRetries = 4294967295 := rfl
  obtain ⟨ls, x', hexec, hcalls⟩ := exists_run_with_calls hmax hx 4294967296
  rw [hempty, List.count_nil, Nat.zero_add] at hcalls
  refine ⟨oneLoss ++ ls, x', ?_, hcalls, fun hb => ?_⟩
  · rw [Runs.exec_append, hloss]
    exact hexec
  · exact absurd hb.calls (by rw [hcalls]; decide)

end MqttNativeSocket
