import MqttNativeSocket.Client.Custody
import MqttNativeSocket.Client.Finality

/-! # One reader for each connection

`connect` waits for the CONNACK before it starts its receive loop, so that the two
do not read from the same socket. A loop that `disconnect` has asked to stop still
reads until it looks at its token, and reads the next connection if that comes
first. The results say when there is one reader only.
-/

namespace MqttNativeSocket

variable {cfg : ThreadConfig} {s s' : ThreadState} {t t' u : Tid} {a : Action} {pc pc' : Pc}
  {ch : Choice} {l : ThreadLabel}

/-- The points of `connect` between its test and the start of its receive loop. -/
def ConnectPc.preparing : ConnectPc → Bool
  | .begin => true
  | .clearStop => true
  | .openSocket => true
  | .establish => true
  | .lock => true
  | .sending _ => true
  | .connack => true
  | .succeed => true
  | .resubscribe => true
  | .resubSending _ => true
  | .spawnRecv => true
  | _ => false

def Pc.preparing : Pc → Bool
  | .connect _ p => p.preparing
  | _ => false

/-- A thread that is inside `readPacket`. -/
def Pc.reads : Pc → Bool
  | .connect _ .connack => true
  | .recv .reading => true
  | _ => false

/-- A `connect` passes its test only while no other prepares and no receive loop is in its loop. -/
def ConnectsClear (s : ThreadState) (l : ThreadLabel) : Prop :=
  ∀ k, (s.threads l.1).pc = .connect k .check → l.2 = .no →
    ∀ t, (s.threads t).pc.preparing = false ∧ (s.threads t).pc.listening = false

structure ReaderInv (s : ThreadState) : Prop where
  preparing : ∀ t t', (s.threads t).pc.preparing = true → (s.threads t').pc.preparing = true →
    t = t'
  apart : ∀ t t', (s.threads t).pc.preparing = true → (s.threads t').pc.listening = false
  listening : ∀ t t', (s.threads t).pc.listening = true → (s.threads t').pc.listening = true →
    t = t'

theorem Caller.resume_preparing (k : Caller) (b : Bool) : (k.resume b).preparing = false := by
  cases k <;> cases b <;> rfl

/-- A thread prepares after the test of `connect`. -/
theorem preparing_program (h : program cfg pc ch = some (a, pc')) (hp : pc'.preparing = true) :
    pc.preparing = true ∨ ∃ k, pc = .connect k .check ∧ ch = .no := by
  unfold program callProgram connectProgram disconnectProgram sendProgram recvProgram
    workerProgram keepaliveProgram at h
  repeat' split at h
  all_goals simp only [reduceCtorEq, Option.some.injEq, Prod.mk.injEq] at h
  all_goals obtain ⟨-, rfl⟩ := h
  all_goals first
    | exact .inl rfl
    | exact .inr ⟨_, rfl, rfl⟩
    | (rw [Caller.resume_preparing] at hp; contradiction)
    | contradiction

/-- The thread that starts a receive loop was preparing, and does so no longer. -/
theorem spawn_preparing {child : Tid} {p : Pc}
    (h : program cfg pc ch = some (.spawn child p, pc')) (hl : p.listening = true) :
    pc.preparing = true ∧ pc'.preparing = false := by
  unfold program callProgram connectProgram disconnectProgram sendProgram recvProgram
    workerProgram keepaliveProgram at h
  repeat' split at h
  all_goals simp only [reduceCtorEq, Option.some.injEq, Prod.mk.injEq, Action.spawn.injEq,
    false_and] at h
  all_goals obtain ⟨⟨-, rfl⟩, rfl⟩ := h
  all_goals first
    | exact ⟨rfl, rfl⟩
    | contradiction

theorem preparing_of_start (h : pc.start = true) : pc.preparing = false := by
  unfold Pc.start at h
  split at h
  · rfl
  · rfl
  · rfl
  · contradiction

namespace ReaderInv

theorem initial : ReaderInv ThreadState.initial := by
  have hnone : ∀ t, (ThreadState.initial.threads t).pc.preparing = false ∧
      (ThreadState.initial.threads t).pc.listening = false := by
    intro t
    rcases ThreadState.initial_pc t with ht | ht <;> rw [ht] <;> exact ⟨rfl, rfl⟩
  constructor
  · intro t t' ht
    exact (Bool.false_ne_true ((hnone t).1.symm.trans ht)).elim
  · exact fun t t' _ => (hnone t').2
  · intro t t' ht
    exact (Bool.false_ne_true ((hnone t).2.symm.trans ht)).elim

theorem preparing_step (hl : ConnectsClear s (t, ch))
    (hp : program cfg (s.threads t).pc ch = some (a, pc))
    (h : (((effect s t a).setPc t pc).threads u).pc.preparing = true) :
    (s.threads u).pc.preparing = true ∨ u = t ∧ ∀ t',
      (s.threads t').pc.preparing = false ∧ (s.threads t').pc.listening = false := by
  rcases step_pc_cases (f := Pc.preparing) (fun _ => preparing_of_start) hp h with
    ⟨rfl, hpc⟩ | ⟨-, hold⟩
  · rcases preparing_program hp hpc with hold | ⟨k, hcheck, hno⟩
    · exact .inl hold
    · exact .inr ⟨rfl, hl k hcheck hno⟩
  · exact .inl hold

theorem listening_step (hp : program cfg (s.threads t).pc ch = some (a, pc))
    (hen : enabled s t a = true)
    (h : (((effect s t a).setPc t pc).threads u).pc.listening = true) :
    (s.threads u).pc.listening = true ∨ (s.threads t).pc.preparing = true ∧
      pc.preparing = false ∧ ∃ p, a = .spawn u p := by
  rcases step_pc_other hp hen u with ⟨rfl, hu⟩ | ⟨-, hu⟩ | ⟨-, -, p, rfl, hu⟩
  · rw [hu] at h
    exact .inl (listening_program hp h)
  · rw [hu] at h
    exact .inl h
  · rw [hu] at h
    obtain ⟨hold, hnew⟩ := spawn_preparing hp h
    exact .inr ⟨hold, hnew, p, rfl⟩

theorem step (hi : ReaderInv s) (hl : ConnectsClear s l) (h : threadStep cfg s l = some s') :
    ReaderInv s' := by
  obtain ⟨t, ch⟩ := l
  obtain ⟨a, pc, hp, hen, rfl⟩ := threadStep_eq_some.mp h
  constructor
  · intro u u' hu hu'
    rcases preparing_step hl hp hu with hold | ⟨rfl, hclear⟩
    · rcases preparing_step hl hp hu' with hold' | ⟨rfl, hclear⟩
      · exact hi.preparing u u' hold hold'
      · exact (Bool.false_ne_true ((hclear u).1.symm.trans hold)).elim
    · rcases preparing_step hl hp hu' with hold' | ⟨rfl, -⟩
      · exact (Bool.false_ne_true ((hclear u').1.symm.trans hold')).elim
      · rfl
  · intro u u' hu
    by_contra hno
    have hu' := eq_true_of_ne_false hno
    rcases preparing_step hl hp hu with hold | ⟨rfl, hclear⟩
    · rcases listening_step hp hen hu' with hold' | ⟨hprep, hdone, -⟩
      · exact Bool.false_ne_true ((hi.apart u u' hold).symm.trans hold')
      · obtain rfl := hi.preparing u t hold hprep
        rw [step_pc, if_pos rfl, hdone] at hu
        contradiction
    · rcases listening_step hp hen hu' with hold' | ⟨hprep, -⟩
      · exact Bool.false_ne_true ((hclear u').2.symm.trans hold')
      · exact Bool.false_ne_true ((hclear u).1.symm.trans hprep)
  · intro u u' hu hu'
    rcases listening_step hp hen hu with hold | ⟨hprep, -, p, rfl⟩
    · rcases listening_step hp hen hu' with hold' | ⟨hprep, -⟩
      · exact hi.listening u u' hold hold'
      · exact (Bool.false_ne_true ((hi.apart t u hprep).symm.trans hold)).elim
    · rcases listening_step hp hen hu' with hold' | ⟨-, -, p', hspawn⟩
      · exact (Bool.false_ne_true ((hi.apart t u' hprep).symm.trans hold')).elim
      · exact (Action.spawn.inj hspawn).1

end ReaderInv

theorem Pc.preparing_or_listening_of_reads (h : pc.reads = true) :
    pc.preparing = true ∨ pc.listening = true := by
  unfold Pc.reads at h
  split at h
  · exact .inl rfl
  · exact .inr rfl
  · contradiction

/--
No two threads read from the socket at the same time, if a `connect` only passes its test while no
other prepares and no receive loop is in its loop: nobody takes the bytes of the CONNACK from the
`connect` that waits for it.
-/
theorem one_reader (cfg : ThreadConfig) (ls : List ThreadLabel) (s : ThreadState)
    (h : Runs.exec (threadStep cfg) ThreadState.initial ls = some s)
    (hc : Runs.Along (threadStep cfg) ConnectsClear ThreadState.initial ls) (t t' : Tid)
    (ht : (s.threads t).pc.reads = true) (ht' : (s.threads t').pc.reads = true) : t = t' := by
  have hi : ReaderInv s :=
    Runs.invariant h hc ReaderInv.initial fun _ _ _ hi hl hstep => hi.step hl hstep
  rcases Pc.preparing_or_listening_of_reads ht with hp | hl
  · rcases Pc.preparing_or_listening_of_reads ht' with hp' | hl'
    · exact hi.preparing t t' hp hp'
    · exact (Bool.false_ne_true ((hi.apart t t' hp).symm.trans hl')).elim
  · rcases Pc.preparing_or_listening_of_reads ht' with hp' | hl'
    · exact (Bool.false_ne_true ((hi.apart t' t hp').symm.trans hl)).elim
    · exact hi.listening t t' hl hl'

/-- A computable form of the condition for steps within `ts`. -/
def connectsClear (ts : List Tid) (s : ThreadState) (l : ThreadLabel) : Bool :=
  staysIn ts l && match (s.threads l.1).pc, l.2 with
    | .connect _ .check, .no =>
      ts.all fun t => !(s.threads t).pc.preparing && !(s.threads t).pc.listening
    | _, _ => true

theorem connectsClear_of_check {ts : List Tid} (hu : Untouched ts s)
    (h : connectsClear ts s l = true) : ConnectsClear s l := by
  intro k hpc hno
  rw [connectsClear, hpc, hno] at h
  simp only [Bool.and_eq_true, List.all_eq_true, Bool.not_eq_true'] at h
  exact hu.all (P := fun pc _ => pc.preparing = false ∧ pc.listening = false)
    (fun _ => ⟨rfl, rfl⟩) (fun _ => ⟨rfl, rfl⟩) h.2

/-- The receive loop looks at its token, reads on, and reads the next packet. -/
def readingRun : List ThreadLabel :=
  [[(.user 0, .call .connect)], connectRun (.user 0) 0 none [],
    [(.recv 0, .no), (.recv 0, .ok), (.recv 0, .no)]].flatten

theorem one_reader_readingRun :
    ∃ s, Runs.exec (threadStep {}) ThreadState.initial readingRun = some s ∧
      ∀ t, (s.threads t).pc.reads = true → t = .recv 0 := by
  have hrun : (Runs.exec (threadStep {}) ThreadState.initial readingRun).map
      (fun s => (s.threads (.recv 0)).pc) = some (.recv .reading) := by decide +kernel
  obtain ⟨s, hs, hpc⟩ := Option.map_eq_some_iff.mp hrun
  have hc : Runs.Along (threadStep {}) ConnectsClear ThreadState.initial readingRun :=
    Runs.along_of_check (I := Untouched sampleThreads) (c := connectsClear sampleThreads)
      (by decide +kernel) (untouched_initial _) (fun _ _ hu h => connectsClear_of_check hu h)
      fun _ _ _ hu h hstep => hu.step (Bool.and_eq_true _ _ ▸ h).1 hstep
  refine ⟨s, hs, fun t ht => one_reader {} readingRun s hs hc t (.recv 0) ht ?_⟩
  rw [hpc]
  rfl

/-- User 0 reconnects while receive loop 0 is inside `readPacket`. -/
def reconnectedWhileReading : List ThreadLabel :=
  [[(.user 0, .call .connect)], connectRun (.user 0) 0 none [], [(.recv 0, .no)],
    [.call .reconnect, .yes, .yes, .go, .go, .more, .ok, .go, .go, .go, .go, .go, .go, .go].map
      fun ch => (.user 0, ch), (connectRun (.user 0) 1 (some 0) []).take 8].flatten

/-- The loop is asked to stop, and may read the CONNACK that `connect` waits for. -/
theorem reconnect_two_readers :
    ∃ ls s, Runs.exec (threadStep {}) ThreadState.initial ls = some s ∧
      (s.threads (.recv 0)).stop = true ∧ (s.threads (.recv 0)).pc = .recv .reading ∧
      (s.threads (.user 0)).pc = .connect .user .connack ∧ s.fd = some 1 ∧
      ∃ s', threadStep {} s (.recv 0, .ok) = some s' := by
  have hrun : (Runs.exec (threadStep {}) ThreadState.initial reconnectedWhileReading).map
      (fun s => ((s.threads (.recv 0)).stop, (s.threads (.recv 0)).pc, (s.threads (.user 0)).pc,
        s.fd, (threadStep {} s (.recv 0, .ok)).isSome)) =
      some (true, .recv .reading, .connect .user .connack, some 1, true) := by decide +kernel
  obtain ⟨s, hs, hv⟩ := Option.map_eq_some_iff.mp hrun
  simp only [Prod.mk.injEq, Option.isSome_iff_exists] at hv
  exact ⟨reconnectedWhileReading, s, hs, hv⟩

end MqttNativeSocket
