import MqttNativeSocket.Client.Reconnect

/-! # Who holds which thread

A thread that has been started stands in its `jthread` member, or is in the hands
of the thread that is about to store it or that has taken it out to join it. So
nothing runs that nobody would join.
-/

namespace MqttNativeSocket

/-- The thread object in the hands of a thread at this point: started and not stored, or joined. -/
def Pc.hands : Pc → Option (Slot × ℕ)
  | .connect _ (.assignRecv r) => some (.recvThread, r)
  | .connect _ (.joinRecv old) => old.map fun r => (.recvThread, r)
  | .connect _ (.assignKeepalive k) => some (.keepaliveThread, k)
  | .connect _ (.joinKeepalive old) => old.map fun k => (.keepaliveThread, k)
  | .recv (.assignWorker w) => some (.reconnectThread, w)
  | .recv (.joinWorker old) => old.map fun w => (.reconnectThread, w)
  | _ => none

/-- The actions that start, store or join a thread. -/
def Action.handles : Action → Bool
  | .spawn _ _ => true
  | .assign _ _ _ => true
  | .join _ => true
  | _ => false

/-- A thread that has started and not ended. -/
def Pc.live (pc : Pc) : Prop := pc ≠ .unborn ∧ pc ≠ .finished

inductive ThreadKind where
  | user | recv | keepalive | worker
  deriving DecidableEq, Repr

def Tid.kind : Tid → ThreadKind
  | .user _ => .user
  | .recv _ => .recv
  | .keepalive _ => .keepalive
  | .worker _ => .worker

def Caller.kind : Caller → ThreadKind
  | .user => .user
  | .worker _ => .worker

/-- The kind of the threads that come to a point. -/
def Pc.kind : Pc → Option ThreadKind
  | .unborn => none
  | .finished => none
  | .idle => some .user
  | .connect k _ => some k.kind
  | .disconnect _ _ => some .user
  | .reconnect => some .user
  | .send _ _ => some .user
  | .recv _ => some .recv
  | .worker _ _ => some .worker
  | .keepalive _ => some .keepalive

/-- A thread is at a point of its kind, or, if it is no user thread, unborn or finished. -/
def Tid.At (t : Tid) (pc : Pc) : Prop :=
  pc.kind = some t.kind ∨ (pc = .unborn ∨ pc = .finished) ∧ t.kind ≠ .user

/-- What an action does with the object in the thread's hands. -/
inductive Handling : Option (Slot × ℕ) → Action → Option (Slot × ℕ) → Prop where
  | start (slot : Slot) (n : ℕ) (p : Pc) : p.kind = some (slot.tid n).kind →
      Handling none (.spawn (slot.tid n) p) (some (slot, n))
  | store (slot : Slot) (n : ℕ) (old : Option ℕ) :
      Handling (some (slot, n)) (.assign slot n old) (old.map fun o => (slot, o))
  | join (slot : Slot) (old : Option ℕ) :
      Handling (old.map fun o => (slot, o)) (.join (old.map slot.tid)) none
  | other (a : Action) : a.handles = false → Handling none a none

variable {cfg : ThreadConfig} {s s' : ThreadState} {t t' : Tid} {a : Action} {pc pc' : Pc}
  {ch : Choice} {l : ThreadLabel} {slot : Slot} {n : ℕ}

@[simp] theorem Caller.resume_hands (k : Caller) (b : Bool) : (k.resume b).hands = none := by
  cases k <;> cases b <;> rfl

theorem program_hands (h : program cfg pc ch = some (a, pc')) :
    Handling pc.hands a pc'.hands := by
  unfold program callProgram connectProgram disconnectProgram sendProgram recvProgram
    workerProgram keepaliveProgram at h
  repeat' split at h
  all_goals simp only [reduceCtorEq, Option.some.injEq, Prod.mk.injEq] at h
  all_goals obtain ⟨rfl, rfl⟩ := h
  all_goals try simp only [Caller.resume_hands]
  all_goals first
    | exact .other _ rfl
    | exact .start .recvThread _ _ rfl
    | exact .start .keepaliveThread _ _ rfl
    | exact .start .reconnectThread _ _ rfl
    | exact .store _ _ _
    | exact .join .recvThread _
    | exact .join .keepaliveThread _
    | exact .join .reconnectThread _

namespace Handling

variable {x y : Option (Slot × ℕ)} {child : Tid} {p : Pc} {old : Option ℕ}

theorem of_spawn (h : Handling x (.spawn child p) y) :
    ∃ slot n, child = slot.tid n ∧ p.kind = some child.kind ∧ x = none ∧ y = some (slot, n) := by
  cases h with
  | start slot n p hk => exact ⟨slot, n, rfl, hk, rfl, rfl⟩
  | other a ha => simp [Action.handles] at ha

theorem of_assign (h : Handling x (.assign slot n old) y) :
    x = some (slot, n) ∧ y = old.map fun o => (slot, o) := by
  cases h with
  | store slot n old => exact ⟨rfl, rfl⟩
  | other a ha => simp [Action.handles] at ha

theorem of_join {who : Option Tid} (h : Handling x (.join who) y) :
    (∃ slot old, who = Option.map slot.tid old ∧ x = old.map fun o => (slot, o)) ∧ y = none := by
  cases h with
  | join slot old => exact ⟨⟨slot, old, rfl, rfl⟩, rfl⟩
  | other a ha => simp [Action.handles] at ha

theorem of_other (h : Handling x a y) (ha : a.handles = false) : x = none ∧ y = none := by
  cases h with
  | other a => exact ⟨rfl, rfl⟩
  | _ => simp [Action.handles] at ha

end Handling

theorem Caller.resume_kind (k : Caller) (b : Bool) :
    (k.resume b).kind = some k.kind ∨ k.resume b = .finished ∧ k.kind ≠ .user := by
  cases k <;> cases b <;> simp [Caller.resume, Pc.kind, Caller.kind]

/-- A thread keeps to the points of its kind, until it ends. -/
theorem kind_program (h : program cfg pc ch = some (a, pc')) :
    ∃ kind, pc.kind = some kind ∧
      (pc'.kind = some kind ∨ pc' = .finished ∧ kind ≠ .user) := by
  unfold program callProgram connectProgram disconnectProgram sendProgram recvProgram
    workerProgram keepaliveProgram at h
  repeat' split at h
  all_goals simp only [reduceCtorEq, Option.some.injEq, Prod.mk.injEq] at h
  all_goals obtain ⟨rfl, rfl⟩ := h
  all_goals first
    | exact ⟨_, rfl, .inl rfl⟩
    | exact ⟨_, rfl, .inr ⟨rfl, by decide⟩⟩
    | exact ⟨_, rfl, Caller.resume_kind _ _⟩

theorem Tid.At.program (ht : Tid.At t pc) (h : program cfg pc ch = some (a, pc')) : t.At pc' := by
  obtain ⟨kind, hk, hk'⟩ := kind_program h
  have hkind : kind = t.kind := by
    rcases ht with ht | ⟨rfl | rfl, -⟩
    · exact Option.some.inj (hk.symm.trans ht)
    · simp [Pc.kind] at hk
    · simp [Pc.kind] at hk
  subst hkind
  rcases hk' with hk' | ⟨rfl, hu⟩
  · exact .inl hk'
  · exact .inr ⟨.inr rfl, hu⟩

/-- A thread that steps is live, and does not become unborn. -/
theorem live_of_program (h : program cfg pc ch = some (a, pc')) : pc.live ∧ pc' ≠ .unborn := by
  obtain ⟨kind, hk, hk'⟩ := kind_program h
  refine ⟨⟨?_, ?_⟩, ?_⟩
  · rintro rfl
    simp [Pc.kind] at hk
  · rintro rfl
    simp [Pc.kind] at hk
  · rintro rfl
    simp [Pc.kind] at hk'

theorem live_of_hands (h : pc.hands ≠ none) : pc.live := by
  constructor
  · rintro rfl
    exact h rfl
  · rintro rfl
    exact h rfl

/-! ## The invariant -/

structure Custody (s : ThreadState) : Prop where
  kinds : ∀ t, Tid.At t (s.threads t).pc
  held : ∀ slot n, (s.threads (slot.tid n)).pc.live →
    s.slots slot = some n ∨ ∃ u, (s.threads u).pc.hands = some (slot, n)
  stored : ∀ slot n, s.slots slot = some n → (s.threads (slot.tid n)).pc ≠ .unborn
  handed : ∀ u slot n, (s.threads u).pc.hands = some (slot, n) →
    (s.threads (slot.tid n)).pc ≠ .unborn
  unique : ∀ u u' slot n, (s.threads u).pc.hands = some (slot, n) →
    (s.threads u').pc.hands = some (slot, n) → u = u'
  apart : ∀ u slot n, (s.threads u).pc.hands = some (slot, n) → s.slots slot ≠ some n

theorem Slot.tid_inj {slot slot' : Slot} {n n' : ℕ} (h : slot.tid n = slot'.tid n') :
    slot = slot' ∧ n = n' := by
  cases slot <;> cases slot' <;> simp_all [Slot.tid]

/-- What the threads other than the one that steps are doing. -/
theorem step_pc_other (hp : program cfg (s.threads t).pc ch = some (a, pc))
    (hen : enabled s t a = true) (t' : Tid) :
    t' = t ∧ (((effect s t a).setPc t pc).threads t').pc = pc ∨
      t' ≠ t ∧ (((effect s t a).setPc t pc).threads t').pc = (s.threads t').pc ∨
      t' ≠ t ∧ (s.threads t').pc = .unborn ∧
        ∃ p, a = .spawn t' p ∧ (((effect s t a).setPc t pc).threads t').pc = p := by
  rw [step_pc]
  split
  · next ht => exact .inl ⟨ht, rfl⟩
  · next ht =>
    cases a with
    | spawn child p =>
      by_cases hc : t' = child
      · subst hc
        have hu : (s.threads t').pc = .unborn := by simpa [enabled] using hen
        exact .inr (.inr ⟨ht, hu, p, rfl, if_pos rfl⟩)
      · exact .inr (.inl ⟨ht, if_neg hc⟩)
    | _ => exact .inr (.inl ⟨ht, rfl⟩)

theorem born_step (hp : program cfg (s.threads t).pc ch = some (a, pc))
    (hen : enabled s t a = true) (hb : (s.threads t').pc ≠ .unborn) :
    (((effect s t a).setPc t pc).threads t').pc ≠ .unborn := by
  rcases step_pc_other hp hen t' with ⟨-, h⟩ | ⟨-, h⟩ | ⟨-, hu, -⟩
  · rw [h]
    exact (live_of_program hp).2
  · rwa [h]
  · exact (hb hu).elim

theorem spawned_born {p : Pc} (hp : program cfg (s.threads t).pc ch = some (.spawn t' p, pc)) :
    (((effect s t (.spawn t' p)).setPc t pc).threads t').pc ≠ .unborn := by
  rw [step_pc]
  split
  · exact (live_of_program hp).2
  · have hstart := (program_spawn hp).1
    intro hu
    obtain rfl : p = .unborn := by simpa using hu
    simp [Pc.start] at hstart

theorem hands_of_start (h : pc.start = true) : pc.hands = none := by
  unfold Pc.start at h
  split at h
  · rfl
  · rfl
  · rfl
  · contradiction

/-- The hands of the thread that steps change, and nobody else's. -/
theorem hands_step (hp : program cfg (s.threads t).pc ch = some (a, pc))
    (hen : enabled s t a = true) {slot : Slot} {n : ℕ}
    (h : (((effect s t a).setPc t pc).threads t').pc.hands = some (slot, n)) :
    t' = t ∧ pc.hands = some (slot, n) ∨ (s.threads t').pc.hands = some (slot, n) := by
  rcases step_pc_other hp hen t' with ⟨ht, hpc⟩ | ⟨-, hpc⟩ | ⟨-, -, p, rfl, hpc⟩
  · exact .inl ⟨ht, hpc ▸ h⟩
  · exact .inr (hpc ▸ h)
  · rw [hpc, hands_of_start (program_spawn hp).1] at h
    contradiction

namespace Custody

theorem kinds_step (hs : Custody s) (hp : program cfg (s.threads t).pc ch = some (a, pc))
    (hen : enabled s t a = true) (t' : Tid) :
    Tid.At t' (((effect s t a).setPc t pc).threads t').pc := by
  rcases step_pc_other hp hen t' with ⟨rfl, h⟩ | ⟨-, h⟩ | ⟨-, -, p, rfl, h⟩
  · rw [h]
    exact (hs.kinds t').program hp
  · rw [h]
    exact hs.kinds t'
  · rw [h]
    obtain ⟨-, -, -, hk, -, -⟩ := (program_hands hp).of_spawn
    exact .inl hk

/-- Nothing is live after a step that was not before it, but for the thread it starts. -/
theorem live_step (hp : program cfg (s.threads t).pc ch = some (a, pc))
    (hen : enabled s t a = true) (hl : (((effect s t a).setPc t pc).threads t').pc.live) :
    (s.threads t').pc.live ∨ ∃ p, a = .spawn t' p := by
  rcases step_pc_other hp hen t' with ⟨rfl, -⟩ | ⟨-, h⟩ | ⟨-, -, p, rfl, -⟩
  · exact .inl (live_of_program hp).1
  · exact .inl (h ▸ hl)
  · exact .inr ⟨p, rfl⟩

theorem held_step (hs : Custody s) (hp : program cfg (s.threads t).pc ch = some (a, pc))
    (hen : enabled s t a = true) (slot : Slot) (n : ℕ)
    (hl : (((effect s t a).setPc t pc).threads (slot.tid n)).pc.live) :
    ((effect s t a).setPc t pc).slots slot = some n ∨
      ∃ u, (((effect s t a).setPc t pc).threads u).pc.hands = some (slot, n) := by
  have hown := program_hands hp
  have hself : (((effect s t a).setPc t pc).threads t).pc = pc := ThreadState.setPc_self ..
  -- what another thread has in its hands stays there
  have hother : ∀ u, u ≠ t → (s.threads u).pc.hands = some (slot, n) →
      ∃ u, (((effect s t a).setPc t pc).threads u).pc.hands = some (slot, n) := by
    intro u hu hh
    refine ⟨u, ?_⟩
    rw [step_pc_of_ne hen hu (live_of_hands (by simp [hh])).1]
    exact hh
  have hslots : ((effect s t a).setPc t pc).slots = (effect s t a).slots := rfl
  rw [hslots, effect_slots]
  by_cases hspawn : ∃ p, a = .spawn (slot.tid n) p
  · obtain ⟨p, rfl⟩ := hspawn
    obtain ⟨slot', n', htid, -, -, hafter⟩ := hown.of_spawn
    obtain ⟨rfl, rfl⟩ := Slot.tid_inj htid
    exact .inr ⟨t, hself.symm ▸ hafter⟩
  have hold := (live_step hp hen hl).resolve_right hspawn
  rcases hs.held slot n hold with hslot | ⟨u, hu⟩
  · cases a with
    | assign slot' n' old =>
      by_cases hs' : slot = slot'
      · subst hs'
        have hstored : s.slots slot = old := by simpa [enabled] using hen
        refine .inr ⟨t, hself.symm ▸ hown.of_assign.2.trans ?_⟩
        rw [← hstored, hslot]
        rfl
      · exact .inl ((Function.update_of_ne hs' ..).trans hslot)
    | _ => exact .inl hslot
  · by_cases hut : u = t
    · subst hut
      cases a with
      | spawn child p =>
        obtain ⟨-, -, -, -, hnone, -⟩ := hown.of_spawn
        simp [hnone] at hu
      | assign slot' n' old =>
        obtain ⟨rfl, rfl⟩ : slot = slot' ∧ n = n' := by simpa [hown.of_assign.1, eq_comm] using hu
        exact .inl (Function.update_self ..)
      | join who =>
        obtain ⟨⟨slot', old, rfl, hx⟩, -⟩ := hown.of_join
        obtain ⟨o, rfl, rfl, rfl⟩ : ∃ o, old = some o ∧ slot = slot' ∧ n = o := by
          cases old <;> simp_all
        have hfinished : (s.threads (slot.tid n)).pc = .finished := by simpa [enabled] using hen
        exact (hold.2 hfinished).elim
      | _ => simp [(hown.of_other rfl).1] at hu
    · exact .inr (hother u hut hu)

/-- What a slot holds after a step, it held before or was given in the step. -/
theorem slots_cases (h : ((effect s t a).setPc t pc).slots slot = some n) :
    (s.slots slot = some n ∧ ∀ m old, a ≠ .assign slot m old) ∨
      ∃ old, a = .assign slot n old := by
  rw [ThreadState.setPc_slots, effect_slots] at h
  cases a with
  | assign slot' m old =>
    have h : Function.update s.slots slot' (some m) slot = some n := h
    by_cases hs : slot = slot'
    · subst hs
      rw [Function.update_self, Option.some.injEq] at h
      exact .inr ⟨old, by rw [h]⟩
    · rw [Function.update_of_ne hs] at h
      exact .inl ⟨h, by simp [Ne.symm hs]⟩
  | _ => exact .inl ⟨h, by simp⟩

/-- What a thread has in its hands after a step, it had there before or took in the step. -/
theorem hands_cases (hp : program cfg (s.threads t).pc ch = some (a, pc))
    (hen : enabled s t a = true) {u : Tid}
    (h : (((effect s t a).setPc t pc).threads u).pc.hands = some (slot, n)) :
    u = t ∧ (∃ p, a = .spawn (slot.tid n) p) ∨
      u = t ∧ (∃ m, a = .assign slot m (some n) ∧ s.slots slot = some n) ∨
      u ≠ t ∧ (s.threads u).pc.hands = some (slot, n) := by
  have hown := program_hands hp
  by_cases hut : u = t
  · subst hut
    rw [ThreadState.setPc_self] at h
    cases a with
    | spawn child p =>
      obtain ⟨slot', n', rfl, -, -, hafter⟩ := hown.of_spawn
      obtain ⟨rfl, rfl⟩ : slot' = slot ∧ n' = n := by simpa [hafter] using h
      exact .inl ⟨rfl, p, rfl⟩
    | assign slot' m old =>
      have hstored : s.slots slot' = old := by simpa [enabled] using hen
      rw [hown.of_assign.2] at h
      cases old with
      | none => simp at h
      | some o =>
        obtain ⟨rfl, rfl⟩ : slot' = slot ∧ o = n := by simpa using h
        exact .inr (.inl ⟨rfl, m, rfl, hstored⟩)
    | join who => simp [hown.of_join.2] at h
    | _ => simp [(hown.of_other rfl).2] at h
  · rcases hands_step hp hen h with ⟨hu, -⟩ | hold
    · exact (hut hu).elim
    · exact .inr (.inr ⟨hut, hold⟩)

/-- Who has been started just now is in nobody's hands yet, and in no slot. -/
theorem fresh (hs : Custody s) (hu : (s.threads (slot.tid n)).pc = .unborn) :
    s.slots slot ≠ some n ∧ ∀ u, (s.threads u).pc.hands ≠ some (slot, n) :=
  ⟨fun h => hs.stored slot n h hu, fun u h => hs.handed u slot n h hu⟩

theorem unique_step (hs : Custody s) (hp : program cfg (s.threads t).pc ch = some (a, pc))
    (hen : enabled s t a = true) (u u' : Tid) (slot : Slot) (n : ℕ)
    (h : (((effect s t a).setPc t pc).threads u).pc.hands = some (slot, n))
    (h' : (((effect s t a).setPc t pc).threads u').pc.hands = some (slot, n)) : u = u' := by
  -- what the step takes was nobody's
  have htaken : ∀ v, v ≠ t → (s.threads v).pc.hands = some (slot, n) →
      (∀ p, a ≠ .spawn (slot.tid n) p) ∧ ∀ m, a = .assign slot m (some n) →
        s.slots slot ≠ some n := by
    intro v _ hv
    constructor
    · rintro p rfl
      exact (hs.fresh (by simpa [enabled] using hen)).2 v hv
    · exact fun _ _ => hs.apart v slot n hv
  rcases hands_cases hp hen h with ⟨hu, p, rfl⟩ | ⟨hu, m, rfl, hslot⟩ | ⟨hu, hold⟩ <;>
    rcases hands_cases hp hen h' with ⟨hu', p', hp'⟩ | ⟨hu', m', hm', hslot'⟩ | ⟨hu', hold'⟩
  · exact hu.trans hu'.symm
  · exact hu.trans hu'.symm
  · exact ((htaken u' hu' hold').1 p rfl).elim
  · exact hu.trans hu'.symm
  · exact hu.trans hu'.symm
  · exact ((htaken u' hu' hold').2 m rfl hslot).elim
  · exact ((htaken u hu hold).1 p' hp').elim
  · exact ((htaken u hu hold).2 m' hm' hslot').elim
  · exact hs.unique u u' slot n hold hold'

theorem apart_step (hs : Custody s) (hp : program cfg (s.threads t).pc ch = some (a, pc))
    (hen : enabled s t a = true) (u : Tid) (slot : Slot) (n : ℕ)
    (h : (((effect s t a).setPc t pc).threads u).pc.hands = some (slot, n)) :
    ((effect s t a).setPc t pc).slots slot ≠ some n := by
  intro hnew
  rcases hands_cases hp hen h with ⟨-, p, rfl⟩ | ⟨-, m, rfl, hslot⟩ | ⟨hu, hold⟩
  · exact (hs.fresh (by simpa [enabled] using hen)).1 hnew
  · have hmine := (program_hands hp).of_assign.1
    rcases slots_cases hnew with ⟨-, hnot⟩ | ⟨old, ha⟩
    · exact hnot m _ rfl
    · obtain ⟨-, rfl, -⟩ := Action.assign.inj ha
      exact hs.apart t slot m hmine hslot
  · rcases slots_cases hnew with ⟨hslot, -⟩ | ⟨old, rfl⟩
    · exact hs.apart u slot n hold hslot
    · exact hu (hs.unique u t slot n hold (program_hands hp).of_assign.1)

theorem step (hs : Custody s) (h : threadStep cfg s l = some s') : Custody s' := by
  obtain ⟨t, ch⟩ := l
  obtain ⟨a, pc, hp, hen, rfl⟩ := threadStep_eq_some.mp h
  constructor
  · exact hs.kinds_step hp hen
  · exact hs.held_step hp hen
  · intro slot n hslot
    refine born_step hp hen ?_
    rcases slots_cases hslot with ⟨hold, -⟩ | ⟨old, rfl⟩
    · exact hs.stored slot n hold
    · exact hs.handed t slot n (program_hands hp).of_assign.1
  · intro u slot n hu
    rcases hands_cases hp hen hu with ⟨-, p, rfl⟩ | ⟨-, m, rfl, hslot⟩ | ⟨-, hold⟩
    · exact spawned_born hp
    · exact born_step hp hen (hs.stored slot n hslot)
    · exact born_step hp hen (hs.handed u slot n hold)
  · exact hs.unique_step hp hen
  · exact hs.apart_step hp hen

theorem initial : Custody ThreadState.initial := by
  have hhands : ∀ u, (ThreadState.initial.threads u).pc.hands = none := by
    intro u
    cases u <;> rfl
  constructor
  · intro t
    cases t <;> simp [ThreadState.initial, initialThread, Tid.At, Pc.kind, Tid.kind]
  · intro slot n hl
    cases slot <;> exact (hl.1 rfl).elim
  · simp [ThreadState.initial]
  · simp [hhands]
  · simp [hhands]
  · simp [hhands]

end Custody

/-! ## Runs -/

/--
A thread that has started and not ended has exactly one holder: its member, or the thread that is
about to store it or waits for its end.
-/
theorem live_thread_held (cfg : ThreadConfig) (ls : List ThreadLabel) (s : ThreadState)
    (h : Runs.exec (threadStep cfg) ThreadState.initial ls = some s) (slot : Slot) (n : ℕ)
    (hl : (s.threads (slot.tid n)).pc.live) :
    (s.slots slot = some n ∧ ∀ u, (s.threads u).pc.hands ≠ some (slot, n)) ∨
      (s.slots slot ≠ some n ∧ ∃! u, (s.threads u).pc.hands = some (slot, n)) := by
  have hs : Custody s := Runs.always h Custody.initial fun _ _ _ hs hstep => hs.step hstep
  rcases hs.held slot n hl with hslot | ⟨u, hu⟩
  · exact .inl ⟨hslot, fun u hu => hs.apart u slot n hu hslot⟩
  · exact .inr ⟨hs.apart u slot n hu, u, hu, fun u' hu' => hs.unique u' u slot n hu' hu⟩

/-- User 1 connects while receive loop 0 is still about to report its loss. -/
def takenOver : List ThreadLabel :=
  [[(.user 0, .call .connect)], connectRun (.user 0) 0 none [], (lossRun 0).take 4,
    [(.user 1, .call .connect)], (connectRun (.user 1) 1 (some 0) []).take 12].flatten

/-- The loop is out of its member, and user 1 waits for its end. -/
theorem live_thread_held_takenOver :
    ∃ s, Runs.exec (threadStep {}) ThreadState.initial takenOver = some s ∧
      s.slots .recvThread = some 1 ∧ ∃! u, (s.threads u).pc.hands = some (.recvThread, 0) := by
  have hrun : (Runs.exec (threadStep {}) ThreadState.initial takenOver).map
      (fun s => (s.slots .recvThread, (s.threads (.recv 0)).pc)) =
      some (some 1, .recv .notify) := by decide +kernel
  obtain ⟨s, hs, hv⟩ := Option.map_eq_some_iff.mp hrun
  simp only [Prod.mk.injEq] at hv
  have hlive : (s.threads (Slot.recvThread.tid 0)).pc.live := by
    rw [Slot.tid, hv.2]
    simp [Pc.live]
  refine ⟨s, hs, hv.1, ?_⟩
  rcases live_thread_held {} takenOver s hs .recvThread 0 hlive with ⟨hslot, -⟩ | ⟨-, hheld⟩
  · simp [hv.1] at hslot
  · exact hheld

end MqttNativeSocket
