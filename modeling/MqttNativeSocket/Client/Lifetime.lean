import MqttNativeSocket.Client.Custody

/-! # The destructor of a client

The destructor disconnects, asks the threads to stop and destroys the members in
the reverse order of their declaration. Of the threads that is `reconnectThread`,
`keepaliveThread`, `recvThread`, where the destructor of a `jthread` stops and joins
the thread it holds. Meanwhile the background threads go on. A thread that one of
them puts into a member which is already destroyed is joined by nobody.

`reconnectCv` and `reconnectMtx` are declared after the threads, and so destroyed
before all of them: a worker may still wait on the one and lock the other until it
is joined. That use of destroyed members is not in the model, where a worker goes
on as if they lived.
-/

namespace MqttNativeSocket

/-- The points of the destructor; a member that is destroyed is stopped and joined. -/
inductive DtorPc where
  | alive | checkConnected | disconnecting
  | requestStop | stopRecv | stopKeepalive | stopWorker
  | stopMember (slot : Slot) | joinMember (slot : Slot)
  | closeTransport | gone
  deriving DecidableEq, Repr

/-- The client with its destructor, which runs on user thread `owner`. -/
structure Lifetime where
  client : ThreadState
  dtor : DtorPc := .alive
  owner : ℕ := 0

inductive LifetimeLabel where
  | thread (l : ThreadLabel)
  /-- User `u` destroys the client, while no call of it is under way. -/
  | destroy (u : ℕ)
  | dtor
  deriving DecidableEq, Repr

/-- The member that is destroyed next, and at last the transport. -/
def Slot.nextMember : Slot → DtorPc
  | .reconnectThread => .stopMember .keepaliveThread
  | .keepaliveThread => .stopMember .recvThread
  | .recvThread => .closeTransport

namespace Lifetime

def initial : Lifetime := { client := .initial }

/-- Users call the client while it is alive; in the destructor only `disconnect` runs on one. -/
def mayRun (L : Lifetime) : Tid → Bool
  | .user n => L.dtor = .alive ||
      (L.dtor = .disconnecting && n = L.owner && decide ((L.client.threads (.user n)).pc ≠ .idle))
  | _ => true

/-- The next action of the destructor; the members before `reconnectThread` are left out. -/
def dtorStep (L : Lifetime) : Option Lifetime :=
  match L.dtor with
  | .alive => none
  | .checkConnected =>
    if L.client.state = .connected then
      some { L with
        client := L.client.setPc (.user L.owner) (.disconnect false .check)
        dtor := .disconnecting }
    else some { L with dtor := .requestStop }
  | .disconnecting =>
    if (L.client.threads (.user L.owner)).pc = .idle then some { L with dtor := .requestStop }
    else none
  | .requestStop => some { L with client := { L.client with stopFlag := true }, dtor := .stopRecv }
  | .stopRecv =>
    some { L with
      client := L.client.stopThread ((L.client.slots .recvThread).map .recv)
      dtor := .stopKeepalive }
  | .stopKeepalive =>
    some { L with
      client := L.client.stopThread ((L.client.slots .keepaliveThread).map .keepalive)
      dtor := .stopWorker }
  | .stopWorker =>
    some { L with
      client := L.client.stopThread ((L.client.slots .reconnectThread).map .worker)
      dtor := .stopMember .reconnectThread }
  | .stopMember slot =>
    some { L with
      client := L.client.stopThread ((L.client.slots slot).map slot.tid)
      dtor := .joinMember slot }
  | .joinMember slot =>
    if (L.client.slots slot).all fun n => (L.client.threads (slot.tid n)).pc = .finished then
      some { L with
        client := { L.client with slots := Function.update L.client.slots slot none }
        dtor := slot.nextMember }
    else none
  | .closeTransport =>
    some { L with client := { L.client with stopFlag := true, fd := none }, dtor := .gone }
  | .gone => none

def step (cfg : ThreadConfig) (L : Lifetime) : LifetimeLabel → Option Lifetime
  | .thread l =>
    if L.mayRun l.1 then (threadStep cfg L.client l).map fun s => { L with client := s } else none
  | .destroy u =>
    if L.dtor = .alive then some { L with dtor := .checkConnected, owner := u } else none
  | .dtor => L.dtorStep

end Lifetime

/-- The points of a receive loop inside `scheduleReconnect`. -/
def Pc.scheduling : Pc → Bool
  | .recv .notify => true
  | .recv .joinable => true
  | .recv .spawnWorker => true
  | .recv (.assignWorker _) => true
  | .recv (.joinWorker _) => true
  | _ => false

namespace DtorPc

/-- The members that have been destroyed. -/
def destroyed : DtorPc → Slot → Bool
  | .stopMember .keepaliveThread, .reconnectThread => true
  | .joinMember .keepaliveThread, .reconnectThread => true
  | .stopMember .recvThread, .reconnectThread => true
  | .joinMember .recvThread, .reconnectThread => true
  | .stopMember .recvThread, .keepaliveThread => true
  | .joinMember .recvThread, .keepaliveThread => true
  | .closeTransport, _ => true
  | .gone, _ => true
  | _, _ => false

end DtorPc

/-- No call of a user is under way where the client is destroyed. -/
def UsersDone (L : Lifetime) : LifetimeLabel → Prop
  | .destroy _ => ∀ n, (L.client.threads (.user n)).pc = .idle
  | _ => True

/--
No receive loop is inside `scheduleReconnect` where `reconnectThread` has been joined, and after
that.
-/
def NoLateLoss (L : Lifetime) (l : LifetimeLabel) : Prop :=
  L.dtor = .joinMember .reconnectThread ∧ l = .dtor ∨ L.dtor.destroyed .reconnectThread = true →
    ∀ r, (L.client.threads (.recv r)).pc.scheduling = false

/-- The member is empty, and no thread of its kind runs. -/
structure ThreadState.Closed (s : ThreadState) (slot : Slot) : Prop where
  empty : s.slots slot = none
  ended : ∀ n, ¬ (s.threads (slot.tid n)).pc.live

variable {cfg : ThreadConfig} {s s' : ThreadState} {t : Tid} {a : Action} {pc pc' : Pc}
  {ch : Choice} {L L' : Lifetime} {l : LifetimeLabel} {slot slot' : Slot} {n : ℕ}

namespace DtorPc

variable {d : DtorPc}

theorem destroyed_reconnectThread (h : d.destroyed slot = true) :
    d.destroyed .reconnectThread = true := by
  unfold destroyed at h
  split at h
  all_goals first
    | rfl
    | contradiction

theorem destroyed_nextMember (h : slot.nextMember.destroyed slot' = true) :
    slot' = slot ∨ (DtorPc.joinMember slot).destroyed slot' = true := by
  cases slot <;> cases slot' <;> simp_all [Slot.nextMember, destroyed]

/-- No user runs from the first member on. -/
theorem no_call_of_destroyed (h : d.destroyed slot = true) : d ≠ .alive ∧ d ≠ .disconnecting := by
  constructor
  · rintro rfl
    simp [destroyed] at h
  · rintro rfl
    simp [destroyed] at h

end DtorPc

/-! ## Which threads handle a member -/

theorem Pc.connect_or_scheduling_of_hands (h : pc.hands = some (slot, n)) :
    slot = .reconnectThread ∧ pc.scheduling = true ∧ pc.kind = some .recv ∨
      slot ≠ .reconnectThread ∧ ∃ k p, pc = .connect k p := by
  unfold Pc.hands at h
  split at h
  all_goals simp only [Option.some.injEq, Prod.mk.injEq, Option.map_eq_some_iff,
    reduceCtorEq] at h
  · exact .inr ⟨by simp [← h.1], _, _, rfl⟩
  · obtain ⟨-, -, rfl, -⟩ := h
    exact .inr ⟨by simp, _, _, rfl⟩
  · exact .inr ⟨by simp [← h.1], _, _, rfl⟩
  · obtain ⟨-, -, rfl, -⟩ := h
    exact .inr ⟨by simp, _, _, rfl⟩
  · exact .inl ⟨h.1.symm, rfl, rfl⟩
  · obtain ⟨-, -, rfl, -⟩ := h
    exact .inl ⟨rfl, rfl, rfl⟩

/-- Keepalive threads, and receive loops outside `scheduleReconnect`, handle no member. -/
theorem handles_of_not_scheduling (h : program cfg pc ch = some (a, pc'))
    (hs : pc.scheduling = false) (hk : pc.kind = some .recv ∨ pc.kind = some .keepalive) :
    a.handles = false := by
  cases pc with
  | recv p =>
    simp only [program] at h
    unfold recvProgram at h
    repeat' split at h
    all_goals simp only [reduceCtorEq, Option.some.injEq, Prod.mk.injEq] at h
    all_goals
      obtain ⟨rfl, -⟩ := h
      first
        | rfl
        | simp [Pc.scheduling] at hs
  | keepalive p =>
    simp only [program] at h
    unfold keepaliveProgram at h
    split at h
    all_goals simp only [reduceCtorEq, Option.some.injEq, Prod.mk.injEq] at h
    all_goals (obtain ⟨rfl, -⟩ := h; rfl)
  | connect k p => cases k <;> simp [Pc.kind, Caller.kind] at hk
  | _ => simp [Pc.kind] at hk

theorem disconnectOnly_program {p : DisconnectPc}
    (h : program cfg (.disconnect false p) ch = some (a, pc')) :
    pc' = .idle ∨ ∃ p', pc' = .disconnect false p' := by
  simp only [program] at h
  unfold disconnectProgram at h
  repeat' split at h
  all_goals simp only [reduceCtorEq, Option.some.injEq, Prod.mk.injEq] at h
  all_goals
    obtain ⟨-, rfl⟩ := h
    first
      | exact .inr ⟨_, rfl⟩
      | exact .inl rfl
      | contradiction

/-- Custody only depends on where the threads are and what the members hold. -/
theorem Custody.congr (hs : Custody s) (hslots : s'.slots = s.slots)
    (hkinds : ∀ t, Tid.At t (s'.threads t).pc)
    (hhands : ∀ t, (s'.threads t).pc.hands = (s.threads t).pc.hands)
    (hpcs : ∀ (slot : Slot) n,
      (s'.threads (slot.tid n)).pc = (s.threads (slot.tid n)).pc) : Custody s' := by
  constructor
  · exact hkinds
  · simpa only [hslots, hhands, hpcs] using hs.held
  · simpa only [hslots, hpcs] using hs.stored
  · simpa only [hhands, hpcs] using hs.handed
  · simpa only [hhands] using hs.unique
  · simpa only [hslots, hhands] using hs.apart

@[simp] theorem ThreadState.stopThread_pc (s : ThreadState) (o : Option Tid) (t : Tid) :
    ((s.stopThread o).threads t).pc = (s.threads t).pc := by
  rw [stopThread_threads]

@[simp] theorem ThreadState.stopThread_slots (s : ThreadState) (o : Option Tid) :
    (s.stopThread o).slots = s.slots := rfl

@[simp] theorem Slot.tid_ne_user (slot : Slot) (n m : ℕ) : slot.tid n ≠ .user m := by
  cases slot <;> simp [Slot.tid]

/-! ## The invariant -/

structure LifetimeInv (L : Lifetime) : Prop where
  custody : Custody L.client
  users : L.dtor ≠ .alive → ∀ n, (L.client.threads (.user n)).pc = .idle ∨
    L.dtor = .disconnecting ∧ n = L.owner ∧
      ∃ p, (L.client.threads (.user n)).pc = .disconnect false p
  closed : ∀ slot, L.dtor.destroyed slot = true → L.client.Closed slot

namespace LifetimeInv

/-- A step of a thread once a member is destroyed is one that handles none. -/
theorem handles_thread (hL : LifetimeInv L) (hd : L.dtor.destroyed slot = true)
    (hc : ∀ r, (L.client.threads (.recv r)).pc.scheduling = false) (hrun : L.mayRun t = true)
    (hp : program cfg (L.client.threads t).pc ch = some (a, pc)) : a.handles = false := by
  have hkind : (L.client.threads t).pc.kind = some t.kind := by
    rcases hL.custody.kinds t with hk | ⟨hpc | hpc, -⟩
    · exact hk
    · exact ((live_of_program hp).1.1 hpc).elim
    · exact ((live_of_program hp).1.2 hpc).elim
  cases t with
  | user n =>
    obtain ⟨halive, hdis⟩ := DtorPc.no_call_of_destroyed hd
    simp [Lifetime.mayRun, halive, hdis] at hrun
  | recv r => exact handles_of_not_scheduling hp (hc r) (.inl hkind)
  | keepalive k =>
    refine handles_of_not_scheduling hp ?_ (.inr hkind)
    cases hpc : (L.client.threads (.keepalive k)).pc with
    | recv p => simp [hpc, Pc.kind, Tid.kind] at hkind
    | _ => rfl
  | worker w =>
    have hended := (hL.closed _ (DtorPc.destroyed_reconnectThread hd)).ended w
    exact (hended (live_of_program hp).1).elim

theorem thread_step {t : Tid} (hL : LifetimeInv L) (hc : NoLateLoss L (.thread (t, ch)))
    (hrun : L.mayRun t = true) (h : threadStep cfg L.client (t, ch) = some s) :
    LifetimeInv { L with client := s } := by
  have hcustody := hL.custody.step h
  obtain ⟨a, pc, hp, hen, rfl⟩ := threadStep_eq_some.mp h
  refine ⟨hcustody, ?_, ?_⟩
  · intro halive n
    rcases step_pc_other hp hen (.user n) with ⟨ht, hpc⟩ | ⟨-, hpc⟩ | ⟨-, -, p, rfl, -⟩
    · rcases hL.users halive n with hidle | ⟨hdis, hn, p, hp'⟩
      · -- an idle user makes no call any more
        subst ht
        simp [Lifetime.mayRun, halive, hidle] at hrun
      · rw [← ht, hp'] at hp
        rw [hpc]
        rcases disconnectOnly_program hp with hidle | hon
        · exact .inl hidle
        · exact .inr ⟨hdis, hn, hon⟩
    · rw [hpc]
      exact hL.users halive n
    · obtain ⟨-, m, -, h | h | h⟩ := program_spawn hp <;> simp at h
  · intro slot hd
    have hold := hL.closed slot hd
    have ha := hL.handles_thread hd (hc (.inr (DtorPc.destroyed_reconnectThread hd))) hrun hp
    constructor
    · rw [ThreadState.setPc_slots, effect_slots]
      cases a with
      | assign slot' m old => simp [Action.handles] at ha
      | _ => exact hold.empty
    · intro n hl
      rcases Custody.live_step hp hen hl with hl | ⟨p, rfl⟩
      · exact hold.ended n hl
      · simp [Action.handles] at ha

/-- A step of the destructor that only asks threads to stop. -/
theorem stop_step {d : DtorPc} (hL : LifetimeInv L) (hclient : ∀ t,
      (s.threads t).pc = (L.client.threads t).pc) (hslots : s.slots = L.client.slots)
    (halive : L.dtor ≠ .alive) (hdis : L.dtor ≠ .disconnecting)
    (hd : ∀ slot, d.destroyed slot = true → L.dtor.destroyed slot = true) :
    LifetimeInv { L with client := s, dtor := d } := by
  refine ⟨?_, ?_, ?_⟩
  · refine hL.custody.congr hslots (fun t => ?_) (fun t => ?_) fun slot n => hclient _
    · rw [hclient]
      exact hL.custody.kinds t
    · rw [hclient]
  · intro _ n
    rw [hclient]
    exact .inl ((hL.users halive n).resolve_right fun h => hdis h.1)
  · intro slot hslot
    obtain ⟨hempty, hended⟩ := hL.closed slot (hd slot hslot)
    refine ⟨hslots ▸ hempty, fun n => ?_⟩
    rw [hclient]
    exact hended n

/-- A member that is joined while nobody has a thread for it in hand is closed. -/
theorem closed_join (hL : LifetimeInv L) (hc : NoLateLoss L .dtor)
    (hd : L.dtor = .joinMember slot)
    (hjoin : ∀ n, L.client.slots slot = some n →
      (L.client.threads (slot.tid n)).pc = .finished) (n : ℕ) :
    ¬ (L.client.threads (slot.tid n)).pc.live := by
  intro hl
  rcases hL.custody.held slot n hl with hslot | ⟨u, hu⟩
  · exact hl.2 (hjoin n hslot)
  have hkind : (L.client.threads u).pc.kind = some u.kind := by
    have hulive := live_of_hands (by simp [hu] : (L.client.threads u).pc.hands ≠ none)
    rcases hL.custody.kinds u with hk | ⟨hpc | hpc, -⟩
    · exact hk
    · exact (hulive.1 hpc).elim
    · exact (hulive.2 hpc).elim
  rcases Pc.connect_or_scheduling_of_hands hu with ⟨rfl, hsched, hrecv⟩ | ⟨hne, k, p, hpc⟩
  · -- only a receive loop inside `scheduleReconnect` has a worker
    obtain ⟨r, rfl⟩ : ∃ r, u = .recv r := by
      cases u <;> simp_all [Tid.kind]
    simp [hc (.inl ⟨hd, rfl⟩) r] at hsched
  · -- only `connect` has another thread, and nobody calls it any more
    cases u with
    | user m =>
      rcases hL.users (by simp [hd]) m with hidle | ⟨hdis, -⟩
      · simp [hidle] at hpc
      · simp [hd] at hdis
    | worker w =>
      have hdestroyed : L.dtor.destroyed .reconnectThread = true := by
        rw [hd]
        cases slot with
        | reconnectThread => exact (hne rfl).elim
        | keepaliveThread => rfl
        | recvThread => rfl
      refine (hL.closed _ hdestroyed).ended w (live_of_hands ?_)
      simp [Slot.tid, hu]
    | _ =>
      rw [hpc] at hkind
      cases k <;> simp [Pc.kind, Caller.kind, Tid.kind] at hkind

theorem join_step (hL : LifetimeInv L) (hc : NoLateLoss L .dtor) (hd : L.dtor = .joinMember slot)
    (hjoin : ∀ n, L.client.slots slot = some n →
      (L.client.threads (slot.tid n)).pc = .finished) :
    LifetimeInv { L with
      client := { L.client with slots := Function.update L.client.slots slot none }
      dtor := slot.nextMember } := by
  have hclosed := hL.closed_join hc hd hjoin
  have hslots : ∀ slot' n, Function.update L.client.slots slot none slot' = some n →
      slot' ≠ slot ∧ L.client.slots slot' = some n := by
    intro slot' n h
    by_cases hs : slot' = slot
    · subst hs
      simp at h
    · exact ⟨hs, by rwa [Function.update_of_ne hs] at h⟩
  refine ⟨⟨hL.custody.kinds, ?_, ?_, hL.custody.handed, hL.custody.unique, ?_⟩, ?_, ?_⟩
  · intro slot' n hl
    rcases hL.custody.held slot' n hl with hslot | hhands
    · by_cases hs : slot' = slot
      · subst hs
        exact (hclosed n hl).elim
      · exact .inl ((Function.update_of_ne hs ..).trans hslot)
    · exact .inr hhands
  · intro slot' n h
    exact hL.custody.stored slot' n (hslots slot' n h).2
  · intro u slot' n hu h
    exact hL.custody.apart u slot' n hu (hslots slot' n h).2
  · intro _ n
    exact .inl ((hL.users (by simp [hd]) n).resolve_right fun h => by simp [hd] at h)
  · intro slot' h
    rcases DtorPc.destroyed_nextMember h with rfl | hold
    · exact ⟨Function.update_self .., hclosed⟩
    · obtain ⟨hempty, hended⟩ := hL.closed slot' (hd ▸ hold)
      refine ⟨?_, hended⟩
      by_cases hs : slot' = slot
      · subst hs
        exact Function.update_self ..
      · exact (Function.update_of_ne hs ..).trans hempty

/-- The destructor's call of `disconnect`. -/
theorem disconnect_step {d : DtorPc} (hL : LifetimeInv L) (hd : L.dtor = .checkConnected)
    (hdis : d = .disconnecting) :
    LifetimeInv { L with
      client := L.client.setPc (.user L.owner) (.disconnect false .check)
      dtor := d } := by
  subst hdis
  have hidle : ∀ n, (L.client.threads (.user n)).pc = .idle := fun n =>
    (hL.users (by simp [hd]) n).resolve_right fun h => by simp [hd] at h
  refine ⟨hL.custody.congr rfl (fun t => ?_) (fun t => ?_) fun slot n => ?_, ?_, ?_⟩
  · by_cases ht : t = .user L.owner
    · subst ht
      rw [ThreadState.setPc_self]
      exact .inl rfl
    · rw [ThreadState.setPc_of_ne _ _ ht]
      exact hL.custody.kinds t
  · by_cases ht : t = .user L.owner
    · subst ht
      rw [ThreadState.setPc_self, hidle]
      rfl
    · rw [ThreadState.setPc_of_ne _ _ ht]
  · rw [ThreadState.setPc_of_ne _ _ (by simp)]
  · intro _ n
    by_cases hn : n = L.owner
    · subst hn
      exact .inr ⟨rfl, rfl, _, ThreadState.setPc_self ..⟩
    · rw [ThreadState.setPc_of_ne _ _ (by simpa using hn)]
      exact .inl (hidle n)
  · intro slot h
    simp [DtorPc.destroyed] at h

theorem dtor_step (hL : LifetimeInv L) (hc : NoLateLoss L .dtor)
    (h : L.dtorStep = some L') : LifetimeInv L' := by
  have hsame : ∀ t, (L.client.threads t).pc = (L.client.threads t).pc := fun _ => rfl
  unfold Lifetime.dtorStep at h
  split at h
  · contradiction
  · next hd =>
    split at h <;> obtain rfl := Option.some.inj h
    · exact hL.disconnect_step hd rfl
    · exact hL.stop_step hsame rfl (by simp [hd]) (by simp [hd]) (by simp [DtorPc.destroyed])
  · next hd =>
    split at h
    · next hidle =>
      obtain rfl := Option.some.inj h
      refine ⟨hL.custody, fun _ n => .inl ?_, by simp [DtorPc.destroyed]⟩
      rcases hL.users (by simp [hd]) n with hn | ⟨-, rfl, -⟩
      · exact hn
      · exact hidle
    · contradiction
  · next hd =>
    obtain rfl := Option.some.inj h
    exact hL.stop_step hsame rfl (by simp [hd]) (by simp [hd]) (by simp [DtorPc.destroyed])
  · next hd =>
    obtain rfl := Option.some.inj h
    exact hL.stop_step (by simp) rfl (by simp [hd]) (by simp [hd]) (by simp [DtorPc.destroyed])
  · next hd =>
    obtain rfl := Option.some.inj h
    exact hL.stop_step (by simp) rfl (by simp [hd]) (by simp [hd]) (by simp [DtorPc.destroyed])
  · next hd =>
    obtain rfl := Option.some.inj h
    exact hL.stop_step (by simp) rfl (by simp [hd]) (by simp [hd]) (by simp [DtorPc.destroyed])
  · next slot hd =>
    obtain rfl := Option.some.inj h
    refine hL.stop_step (by simp) rfl (by simp [hd]) (by simp [hd]) fun slot' hs => ?_
    rw [hd]
    cases slot <;> cases slot' <;> simp_all [DtorPc.destroyed]
  · next slot hd =>
    split at h
    · next hall =>
      obtain rfl := Option.some.inj h
      exact hL.join_step hc hd fun n hn => by simpa [hn] using hall
    · contradiction
  · next hd =>
    obtain rfl := Option.some.inj h
    exact hL.stop_step hsame rfl (by simp [hd]) (by simp [hd]) (by simp [hd, DtorPc.destroyed])
  · contradiction

theorem step (hL : LifetimeInv L) (hu : UsersDone L l) (hc : NoLateLoss L l)
    (h : L.step cfg l = some L') : LifetimeInv L' := by
  cases l with
  | thread l =>
    obtain ⟨t, ch⟩ := l
    simp only [Lifetime.step] at h
    split at h
    · next hrun =>
      obtain ⟨s, hs, rfl⟩ := Option.map_eq_some_iff.mp h
      exact hL.thread_step hc hrun hs
    · contradiction
  | destroy u =>
    simp only [Lifetime.step] at h
    split at h
    · obtain rfl := Option.some.inj h
      exact ⟨hL.custody, fun _ n => .inl (hu n), by simp [DtorPc.destroyed]⟩
    · contradiction
  | dtor => exact hL.dtor_step hc h

theorem initial : LifetimeInv Lifetime.initial :=
  ⟨Custody.initial, fun h => (h rfl).elim, by simp [Lifetime.initial, DtorPc.destroyed]⟩

end LifetimeInv

/-! ## Runs -/

/--
If no call of a user is under way where the client is destroyed, and no receive loop reports a loss
once `reconnectThread` has been joined, the destructor leaves no thread behind.
-/
theorem destructor_leaves_no_thread (cfg : ThreadConfig) (ls : List LifetimeLabel) (L : Lifetime)
    (h : Runs.exec (Lifetime.step cfg) Lifetime.initial ls = some L)
    (hc : Runs.Along (Lifetime.step cfg) (fun L l => UsersDone L l ∧ NoLateLoss L l)
      Lifetime.initial ls)
    (hgone : L.dtor = .gone) (slot : Slot) (n : ℕ) :
    L.client.slots slot = none ∧ ¬ (L.client.threads (slot.tid n)).pc.live := by
  have hL : LifetimeInv L :=
    Runs.invariant h hc LifetimeInv.initial fun _ _ _ hL hc hstep => hL.step hc.1 hc.2 hstep
  obtain ⟨hempty, hended⟩ := hL.closed slot (by rw [hgone]; rfl)
  exact ⟨hempty, hended n⟩

@[simp] theorem Caller.resume_scheduling (k : Caller) (b : Bool) :
    (k.resume b).scheduling = false := by
  cases k <;> cases b <;> rfl

theorem scheduling_program (h : program cfg pc ch = some (a, pc'))
    (hs : pc'.scheduling = true) : pc.scheduling = true ∨ cfg.reconnectEnabled = true := by
  unfold program callProgram connectProgram disconnectProgram sendProgram recvProgram
    workerProgram keepaliveProgram at h
  repeat' split at h
  all_goals simp only [reduceCtorEq, Option.some.injEq, Prod.mk.injEq] at h
  all_goals
    obtain ⟨-, rfl⟩ := h
    first
      | exact .inl rfl
      | exact .inr ‹_›
      | simp only [Caller.resume_scheduling, Bool.false_eq_true] at hs
      | simp [Pc.scheduling] at hs

/-- With reconnection disabled no receive loop comes to `scheduleReconnect`. -/
theorem not_scheduling_step (hrec : cfg.reconnectEnabled = false)
    (hs : ∀ t, (s.threads t).pc.scheduling = false) (h : threadStep cfg s (t, ch) = some s')
    (t' : Tid) : (s'.threads t').pc.scheduling = false := by
  obtain ⟨a, pc, hp, hen, rfl⟩ := threadStep_eq_some.mp h
  by_contra hc
  rcases step_pc_cases (Pc.start_false rfl rfl fun _ => rfl) hp (by simpa using hc) with
    ⟨-, hpc⟩ | ⟨-, hpc⟩
  · rcases scheduling_program hp hpc with hold | hon
    · simp [hs t] at hold
    · simp [hrec] at hon
  · simp [hs t'] at hpc

theorem Lifetime.step_thread {l : ThreadLabel} (h : L.step cfg (.thread l) = some L') :
    L.mayRun l.1 = true ∧
      ∃ s, threadStep cfg L.client l = some s ∧ L' = { L with client := s } := by
  simp only [Lifetime.step] at h
  split at h
  · next hrun =>
    obtain ⟨s, hs, rfl⟩ := Option.map_eq_some_iff.mp h
    exact ⟨hrun, s, hs, rfl⟩
  · contradiction

theorem ThreadState.setPc_pc_or (s : ThreadState) (t u : Tid) (pc : Pc) :
    ((s.setPc u pc).threads t).pc = (s.threads t).pc ∨
      t = u ∧ ((s.setPc u pc).threads t).pc = pc := by
  by_cases ht : t = u
  · subst ht
    exact .inr ⟨rfl, setPc_self ..⟩
  · exact .inl (congrArg Thread.pc (setPc_of_ne _ _ ht))

/-- The destructor itself moves no thread but the one it calls `disconnect` on. -/
theorem Lifetime.dtorStep_pc (h : L.dtorStep = some L') (t : Tid) :
    (L'.client.threads t).pc = (L.client.threads t).pc ∨
      t = .user L.owner ∧ (L'.client.threads t).pc = .disconnect false .check := by
  unfold Lifetime.dtorStep at h
  repeat' split at h
  all_goals simp only [reduceCtorEq, Option.some.injEq] at h
  all_goals
    subst h
    first
      | exact .inl rfl
      | exact .inl (ThreadState.stopThread_pc ..)
      | exact ThreadState.setPc_pc_or ..

/-- With reconnection disabled the destructor leaves no thread behind, whatever is lost. -/
theorem destructor_leaves_no_thread_of_disabled (cfg : ThreadConfig)
    (hrec : cfg.reconnectEnabled = false) (ls : List LifetimeLabel) (L : Lifetime)
    (h : Runs.exec (Lifetime.step cfg) Lifetime.initial ls = some L)
    (hu : Runs.Along (Lifetime.step cfg) UsersDone Lifetime.initial ls)
    (hgone : L.dtor = .gone) (slot : Slot) (n : ℕ) :
    L.client.slots slot = none ∧ ¬ (L.client.threads (slot.tid n)).pc.live := by
  have hinv : LifetimeInv L ∧ ∀ t, (L.client.threads t).pc.scheduling = false := by
    refine Runs.invariant (I := fun L => LifetimeInv L ∧
      ∀ t, (L.client.threads t).pc.scheduling = false) h hu ?_ fun L l L' hL hul hstep => ?_
    · refine ⟨LifetimeInv.initial, fun t => ?_⟩
      rcases ThreadState.initial_pc t with ht | ht <;> simp [Lifetime.initial, ht, Pc.scheduling]
    · refine ⟨hL.1.step hul (fun _ r => hL.2 (.recv r)) hstep, ?_⟩
      cases l with
      | thread l =>
        obtain ⟨-, s, hs, rfl⟩ := Lifetime.step_thread hstep
        exact not_scheduling_step hrec hL.2 hs
      | destroy u =>
        simp only [Lifetime.step, Option.ite_none_right_eq_some, Option.some.injEq] at hstep
        obtain ⟨-, rfl⟩ := hstep
        exact hL.2
      | dtor =>
        intro t
        rcases Lifetime.dtorStep_pc hstep t with ht | ⟨-, ht⟩
        · rw [ht]
          exact hL.2 t
        · rw [ht]
          rfl
  obtain ⟨hempty, hended⟩ := hinv.1.closed slot (by rw [hgone]; rfl)
  exact ⟨hempty, hended n⟩

/-! ## Runs of the destructor -/

/-- A step that stays within the threads in `ts`. -/
def Lifetime.staysIn (ts : List Tid) (L : Lifetime) : LifetimeLabel → Bool
  | .thread l => MqttNativeSocket.staysIn ts l
  | .destroy _ => true
  | .dtor => .user L.owner ∈ ts

theorem Untouched.lifetimeStep {ts : List Tid} (hu : Untouched ts L.client)
    (hl : L.staysIn ts l = true) (h : L.step cfg l = some L') : Untouched ts L'.client := by
  cases l with
  | thread l =>
    obtain ⟨-, s, hs, rfl⟩ := Lifetime.step_thread h
    exact hu.step hl hs
  | destroy u =>
    simp only [Lifetime.step, Option.ite_none_right_eq_some, Option.some.injEq] at h
    obtain ⟨-, rfl⟩ := h
    exact hu
  | dtor =>
    intro t ht
    rcases Lifetime.dtorStep_pc h t with hpc | ⟨rfl, -⟩
    · rw [hpc]
      exact hu t ht
    · exact (ht (by simpa [Lifetime.staysIn] using hl)).elim

/-- Both conditions, looked up on the sample threads. -/
def orderly (L : Lifetime) (l : LifetimeLabel) : Bool :=
  L.staysIn sampleThreads l &&
    (match l with
      | .destroy _ => sampleThreads.all fun t => t.kind ≠ .user || (L.client.threads t).pc = .idle
      | _ => true) &&
    (!(L.dtor = .joinMember .reconnectThread || L.dtor.destroyed .reconnectThread) ||
      sampleThreads.all fun t => !(L.client.threads t).pc.scheduling)

theorem usersDone_of_orderly (hu : Untouched sampleThreads L.client) (h : orderly L l = true) :
    UsersDone L l := by
  cases l with
  | destroy u =>
    intro n
    simp only [orderly, Bool.and_eq_true] at h
    by_cases hn : Tid.user n ∈ sampleThreads
    · simpa [Tid.kind] using List.all_eq_true.mp h.1.2 _ hn
    · exact hu _ hn
  | _ => trivial

theorem noLateLoss_of_orderly (hu : Untouched sampleThreads L.client) (h : orderly L l = true) :
    NoLateLoss L l := by
  intro hlate r
  simp only [orderly, Bool.and_eq_true] at h
  have hall : sampleThreads.all fun t => !(L.client.threads t).pc.scheduling := by
    rcases hlate with ⟨hd, -⟩ | hd
    · simpa [hd] using h.2
    · simpa [hd] using h.2
  by_cases hr : Tid.recv r ∈ sampleThreads
  · simpa using List.all_eq_true.mp hall _ hr
  · rw [hu _ hr]
    rfl

/-- The steps of a call of `connect` and so on, by their threads. -/
def threadRun (ls : List ThreadLabel) : List LifetimeLabel := ls.map .thread

/-- The worker reconnects while the destructor waits for it. -/
def destroyedWhileConnecting : List LifetimeLabel :=
  [threadRun [(.user 0, .call .connect)], threadRun (connectRun (.user 0) 0 none []),
    threadRun (lossRun 0), threadRun workerRun, [.destroy 0], List.replicate 6 .dtor,
    threadRun (connectRun (.worker 0) 1 (some 0) [(.keepalive 0, .yes)]), List.replicate 2 .dtor,
    threadRun [(.keepalive 1, .yes)], List.replicate 2 .dtor, threadRun [(.recv 1, .yes)],
    List.replicate 2 .dtor].flatten

theorem destructor_leaves_no_thread_destroyedWhileConnecting :
    ∃ L, Runs.exec (Lifetime.step {}) Lifetime.initial destroyedWhileConnecting = some L ∧
      L.dtor = .gone ∧ ∀ slot n, L.client.slots slot = none ∧
        ¬ (L.client.threads (slot.tid n)).pc.live := by
  have hrun : (Runs.exec (Lifetime.step {}) Lifetime.initial destroyedWhileConnecting).map
      (fun L => L.dtor) = some .gone := by decide +kernel
  obtain ⟨L, hL, hgone⟩ := Option.map_eq_some_iff.mp hrun
  refine ⟨L, hL, hgone, destructor_leaves_no_thread {} _ L hL ?_ hgone⟩
  refine Runs.along_of_check (I := fun L => Untouched sampleThreads L.client) (c := orderly)
    (by decide +kernel) (untouched_initial _) ?_ ?_
  · exact fun L l hu hl => ⟨usersDone_of_orderly hu hl, noLateLoss_of_orderly hu hl⟩
  · intro L l L' hu hl hstep
    simp only [orderly, Bool.and_eq_true] at hl
    exact hu.lifetimeStep hl.1.1 hstep

/-- A receive loop reports its loss when `reconnectThread` is already destroyed. -/
def lossInDestructor : List LifetimeLabel :=
  [threadRun [(.user 0, .call .connect)], threadRun (connectRun (.user 0) 0 none []),
    threadRun ((lossRun 0).take 4), [.destroy 0], List.replicate 7 .dtor,
    threadRun [(.recv 0, .go)], threadRun (workerRun.take 4), [.dtor],
    threadRun [(.keepalive 0, .yes)], List.replicate 4 .dtor].flatten

/-- The worker that it starts is still there when the destructor has returned. -/
theorem worker_outlives_client :
    ∃ L, Runs.exec (Lifetime.step {}) Lifetime.initial lossInDestructor = some L ∧
      L.dtor = .gone ∧ (L.client.threads (.worker 0)).pc = .worker .top 0 := by
  have hrun : (Runs.exec (Lifetime.step {}) Lifetime.initial lossInDestructor).map
      (fun L => (L.dtor, (L.client.threads (.worker 0)).pc)) =
      some (.gone, .worker .top 0) := by decide +kernel
  obtain ⟨L, hL, hv⟩ := Option.map_eq_some_iff.mp hrun
  simp only [Prod.mk.injEq] at hv
  exact ⟨L, hL, hv⟩

end MqttNativeSocket
