import MqttNativeSocket.Client.Steps

/-! # One sender at a time

Every thread that sends takes `sendMtx` before its call of `sendAll` and keeps it
until the call has returned, so that no two threads are inside at once.
-/

namespace MqttNativeSocket

/-- The packet a thread inside `sendAll` is sending. -/
def Pc.sendKind : Pc → Option PacketKind
  | .connect _ (.sending _) => some .connect
  | .connect _ (.resubSending _) => some .subscribe
  | .disconnect _ (.sending _) => some .disconnect
  | .send op (.sending _) => some op.kind
  | .recv (.ackSending _) => some .puback
  | .keepalive (.sending _) => some .pingreq
  | _ => none

/-- The points at which a thread owns `sendMtx`. -/
def Pc.holdsSend : Pc → Bool
  | .connect _ .unlockFailed => true
  | pc => pc.sendKind.isSome

variable {cfg : ThreadConfig} {s s' : ThreadState} {t t' : Tid} {a : Action} {pc pc' : Pc}
  {ch : Choice} {l : ThreadLabel} {kind : PacketKind}

@[simp] theorem Caller.resume_sendKind (k : Caller) (b : Bool) : (k.resume b).sendKind = none := by
  cases k <;> cases b <;> rfl

@[simp] theorem Caller.resume_holdsSend (k : Caller) (b : Bool) :
    (k.resume b).holdsSend = false := by
  cases k <;> cases b <;> rfl

theorem Pc.holdsSend_of_sendKind (h : pc.sendKind = some kind) : pc.holdsSend = true := by
  unfold Pc.holdsSend
  split
  · rfl
  · rw [h]; rfl

/-- A thread inside `sendAll` goes on in it, or returns from it with a result. -/
theorem program_sendKind (h : program cfg pc ch = some (a, pc')) (hk : pc.sendKind = some kind) :
    (ch = .more ∧ (∃ started, a = .piece kind started) ∧ pc'.sendKind = some kind) ∨
      (ch = .ok ∧ a = .unlock ∧ pc'.sendKind = none) ∨
      (ch = .error ∧ pc'.sendKind = none) := by
  unfold Pc.sendKind at hk
  split at hk
  case h_7 => simp at hk
  all_goals
    rename_i started
    obtain rfl := Option.some.inj hk
    cases started <;> cases ch
  all_goals
    simp only [program, connectProgram, disconnectProgram, sendProgram, recvProgram,
      keepaliveProgram, reduceCtorEq, Option.some.injEq, Prod.mk.injEq] at h
  all_goals
    obtain ⟨rfl, rfl⟩ := h
    simp [Pc.sendKind]

/-- `sendMtx` is taken on the way into `sendAll` and released by its owner. -/
theorem program_holdsSend (h : program cfg pc ch = some (a, pc')) :
    (a = .lock ∧ pc.holdsSend = false ∧ pc'.sendKind.isSome = true) ∨
      (a = .unlock ∧ pc.holdsSend = true ∧ pc'.holdsSend = false) ∨
      (a ≠ .lock ∧ a ≠ .unlock ∧ pc'.holdsSend = pc.holdsSend ∧
        (pc.sendKind = none → pc'.sendKind = none)) := by
  unfold program callProgram connectProgram disconnectProgram sendProgram recvProgram
    workerProgram keepaliveProgram at h
  repeat' split at h
  all_goals simp only [reduceCtorEq, Option.some.injEq, Prod.mk.injEq] at h
  all_goals
    obtain ⟨rfl, rfl⟩ := h
    try simp only [Caller.resume_holdsSend, Caller.resume_sendKind]
    simp [Pc.holdsSend, Pc.sendKind]

/-! ## Mutual exclusion -/

/-- The owner of `sendMtx` is the only thread at a point that owns it. -/
structure Exclusive (s : ThreadState) : Prop where
  held : ∀ t, (s.threads t).pc.holdsSend = true → s.sendMtx = true
  unique : ∀ t t', (s.threads t).pc.holdsSend = true → (s.threads t').pc.holdsSend = true → t = t'

theorem effect_sendMtx (s : ThreadState) (t : Tid) (a : Action) :
    (effect s t a).sendMtx =
      match a with
      | .lock => true
      | .unlock => false
      | _ => s.sendMtx := by
  cases a <;> rfl

theorem holdsSend_start : ∀ q : Pc, q.start = true → q.holdsSend = false :=
  Pc.start_false rfl rfl fun _ => rfl

theorem exclusive_initial : Exclusive ThreadState.initial := by
  have h : ∀ t, (ThreadState.initial.threads t).pc.holdsSend = false := by
    intro t
    rcases ThreadState.initial_pc t with hpc | hpc <;> rw [hpc] <;> rfl
  constructor
  · intro t ht
    rw [h t] at ht
    simp at ht
  · intro t t' ht
    rw [h t] at ht
    simp at ht

theorem Exclusive.step (hs : Exclusive s) (h : threadStep cfg s l = some s') : Exclusive s' := by
  obtain ⟨t, ch⟩ := l
  obtain ⟨a, pc, hp, hen, rfl⟩ := threadStep_eq_some.mp h
  have hcases : ∀ t', (((effect s t a).setPc t pc).threads t').pc.holdsSend = true →
      (t' = t ∧ pc.holdsSend = true) ∨ (t' ≠ t ∧ (s.threads t').pc.holdsSend = true) :=
    fun t' ht' => step_pc_cases holdsSend_start hp ht'
  have hmtx : ((effect s t a).setPc t pc).sendMtx = (effect s t a).sendMtx := rfl
  rcases program_holdsSend hp with ⟨rfl, hfree, hin⟩ | ⟨rfl, hheld, hout⟩ | ⟨hl, hu, hsame, -⟩
  · -- taking the mutex: nobody owned it
    have hopen : s.sendMtx = false := by simpa [enabled] using hen
    have hno : ∀ t', (s.threads t').pc.holdsSend = false := by
      intro t'
      by_contra hc
      simpa [hopen] using hs.held t' (by simpa using hc)
    have honly : ∀ t',
        (((effect s t .lock).setPc t pc).threads t').pc.holdsSend = true → t' = t := by
      intro t' ht'
      rcases hcases t' ht' with ⟨rfl, -⟩ | ⟨-, hheld⟩
      · rfl
      · simp [hno t'] at hheld
    exact ⟨fun _ _ => rfl, fun t₁ t₂ h₁ h₂ => (honly t₁ h₁).trans (honly t₂ h₂).symm⟩
  · -- releasing it: the owner was the only one
    have hnone : ∀ t', (((effect s t .unlock).setPc t pc).threads t').pc.holdsSend = false := by
      intro t'
      by_contra hc
      rcases hcases t' (by simpa using hc) with ⟨-, hpc⟩ | ⟨hne, hpc⟩
      · simp [hout] at hpc
      · exact hne (hs.unique t' t hpc hheld)
    constructor
    · intro t' ht'
      simp [hnone t'] at ht'
    · intro t' _ ht'
      simp [hnone t'] at ht'
  · have hback : ∀ t', (((effect s t a).setPc t pc).threads t').pc.holdsSend = true →
        (s.threads t').pc.holdsSend = true := by
      intro t' ht'
      rcases hcases t' ht' with ⟨rfl, hpc⟩ | ⟨-, hpc⟩
      · rwa [← hsame]
      · exact hpc
    constructor
    · intro t' ht'
      rw [hmtx, effect_sendMtx]
      cases a with
      | lock => exact absurd rfl hl
      | unlock => exact absurd rfl hu
      | _ => exact hs.held t' (hback t' ht')
    · exact fun t₁ t₂ h₁ h₂ => hs.unique t₁ t₂ (hback t₁ h₁) (hback t₂ h₂)

end MqttNativeSocket
