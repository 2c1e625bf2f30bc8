import MqttNativeSocket.Client.Finality

/-! # CONNECT comes first

On a new connection the publisher should send CONNECT before anything else, and
only once. The tests of the state come before `sendMtx` is taken, the socket is
replaced before CONNECT is sent, and `publishAsync` may go on without a
connection. The results say which steps make the order go wrong.
-/

namespace MqttNativeSocket

/-- The points of `connect` between its test and the write of Connected or Failed. -/
def ConnectPc.handshaking : ConnectPc → Bool
  | .begin => true
  | .clearStop => true
  | .openSocket => true
  | .establish => true
  | .lock => true
  | .sending _ => true
  | .connack => true
  | .succeed => true
  | _ => false

def Pc.handshaking : Pc → Bool
  | .connect _ p => p.handshaking
  | _ => false

/-- A thread between its look at the state and the end of its send. -/
def Pc.sender : Pc → Bool
  | .send _ .lock => true
  | .send _ (.sending _) => true
  | .keepalive .due => true
  | .keepalive .lock => true
  | .keepalive (.sending _) => true
  | .disconnect _ .mark => true
  | .disconnect _ .lock => true
  | .disconnect _ (.sending _) => true
  | _ => false

/-- A handshake whose socket is open and on which nothing has been sent. -/
def Pc.beforeConnect : Pc → Bool
  | .connect _ .establish => true
  | .connect _ .lock => true
  | .connect _ (.sending started) => !started
  | _ => false

/-- A handshake that has begun to send CONNECT. -/
def Pc.afterConnect : Pc → Bool
  | .connect _ (.sending started) => started
  | .connect _ .connack => true
  | .connect _ .succeed => true
  | _ => false

/-- Points that only the subscriber reaches. -/
def Pc.subscriberOnly : Pc → Bool
  | .connect _ .resubscribe => true
  | .connect _ (.resubSending _) => true
  | .recv .ackLock => true
  | .recv (.ackSending _) => true
  | _ => false

/-- The first byte of a CONNECT. -/
def connectStart : Piece := ⟨.connect, true⟩

namespace ThreadState

/-- CONNECT has begun on the current socket, if there is one. -/
def Begun (s : ThreadState) : Prop :=
  ∀ c, s.fd = some c → ∃ rest, s.log c = some (connectStart :: rest)

/-- Nothing has been sent on the current socket, if there is one. -/
def Fresh (s : ThreadState) : Prop := ∀ c, s.fd = some c → s.log c = some []

end ThreadState

/-- What has been sent starts with a CONNECT, if with anything, and there is no second one. -/
def OneConnect (l : List Piece) : Prop :=
  (∀ p ∈ l.head?, p = connectStart) ∧ l.count connectStart ≤ 1

/-- On every connection a single CONNECT comes first. -/
def ConnectFirst (s : ThreadState) : Prop := ∀ c l, s.log c = some l → OneConnect l

/--
A `connect` passes its test only while no other one is in its handshake; the socket is replaced
only while no thread is between its look at the state and the end of its send; and `publishAsync`
goes on without a connection only if CONNECT has begun on the current socket or there is none.
-/
def ConnectsAlone (s : ThreadState) (l : ThreadLabel) : Prop :=
  (∀ k, (s.threads l.1).pc = .connect k .check → l.2 = .no →
    ∀ t, (s.threads t).pc.handshaking = false) ∧
  (∀ k c, (s.threads l.1).pc = .connect k .openSocket → l.2 = .fresh c →
    ∀ t, (s.threads t).pc.sender = false) ∧
  ((s.threads l.1).pc = .send .publishAsync .check → l.2 = .no →
    ∀ c, s.fd = some c → s.log c ≠ some [])

structure FirstInv (s : ThreadState) : Prop where
  publisher : ∀ t, (s.threads t).pc.subscriberOnly = false
  alone : ∀ t t', (s.threads t).pc.handshaking = true → (s.threads t').pc.handshaking = true →
    t = t'
  notConnected : ∀ t, (s.threads t).pc.handshaking = true → s.state ≠ .connected
  opened : ∀ c, s.fd = some c → (s.log c).isSome
  connected : s.state = .connected → s.Begun
  fresh : ∀ t, (s.threads t).pc.beforeConnect = true → s.Fresh
  begun : ∀ t, (s.threads t).pc.afterConnect = true → s.Begun
  sender : ∀ t, (s.threads t).pc.sender = true → s.Begun
  first : ConnectFirst s

variable {cfg : ThreadConfig} {s : ThreadState} {t : Tid} {a : Action} {pc pc' : Pc} {ch : Choice}

theorem Caller.resume_handshaking (k : Caller) (b : Bool) : (k.resume b).handshaking = false := by
  cases k <;> cases b <;> rfl

theorem Caller.resume_sender (k : Caller) (b : Bool) : (k.resume b).sender = false := by
  cases k <;> cases b <;> rfl

theorem Caller.resume_beforeConnect (k : Caller) (b : Bool) :
    (k.resume b).beforeConnect = false := by
  cases k <;> cases b <;> rfl

theorem Caller.resume_afterConnect (k : Caller) (b : Bool) : (k.resume b).afterConnect = false := by
  cases k <;> cases b <;> rfl

theorem Caller.resume_subscriberOnly (k : Caller) (b : Bool) :
    (k.resume b).subscriberOnly = false := by
  cases k <;> cases b <;> rfl

theorem subscriberOnly_program (hrole : cfg.role = .publisher)
    (h : program cfg pc ch = some (a, pc')) (hs : pc.subscriberOnly = false) :
    pc'.subscriberOnly = false := by
  unfold program callProgram connectProgram disconnectProgram sendProgram recvProgram
    workerProgram keepaliveProgram at h
  repeat' split at h
  all_goals simp only [reduceCtorEq, Option.some.injEq, Prod.mk.injEq] at h
  all_goals (obtain ⟨-, rfl⟩ := h)
  all_goals first
    | rfl
    | exact Caller.resume_subscriberOnly _ _
    | simp_all [Pc.subscriberOnly]

/-- A handshake begins with a passed test. -/
theorem handshaking_program (h : program cfg pc ch = some (a, pc'))
    (hh : pc'.handshaking = true) :
    pc.handshaking = true ∨
      ∃ k, pc = .connect k .check ∧ ch = .no ∧ a = .unlessState .connected := by
  unfold program callProgram connectProgram disconnectProgram sendProgram recvProgram
    workerProgram keepaliveProgram at h
  repeat' split at h
  all_goals simp only [reduceCtorEq, Option.some.injEq, Prod.mk.injEq] at h
  all_goals (obtain ⟨rfl, rfl⟩ := h)
  all_goals first
    | exact .inl rfl
    | exact .inr ⟨_, rfl, rfl, rfl⟩
    | (rw [Caller.resume_handshaking] at hh; simp at hh)
    | (simp [Pc.handshaking, ConnectPc.handshaking] at hh)

/-- A thread comes to send through a test for Connected, or through the offline path. -/
theorem sender_program (h : program cfg pc ch = some (a, pc')) (hs : pc'.sender = true) :
    pc.sender = true ∨ a = .ifState .connected ∨
      (pc = .send .publishAsync .check ∧ ch = .no ∧ a = .unlessState .connected) := by
  unfold program callProgram connectProgram disconnectProgram sendProgram recvProgram
    workerProgram keepaliveProgram at h
  repeat' split at h
  all_goals simp only [reduceCtorEq, Option.some.injEq, Prod.mk.injEq] at h
  all_goals (obtain ⟨rfl, rfl⟩ := h)
  all_goals first
    | exact .inl rfl
    | exact .inr (.inl rfl)
    | (rw [Caller.resume_sender] at hs; simp at hs)
    | (simp [Pc.sender] at hs; done)
    | simp_all [Pc.sender]

theorem beforeConnect_program (h : program cfg pc ch = some (a, pc'))
    (hb : pc'.beforeConnect = true) :
    (pc.beforeConnect = true ∧ (a = .skip ∨ a = .lock)) ∨ ∃ c, a = .openSocket c := by
  unfold program callProgram connectProgram disconnectProgram sendProgram recvProgram
    workerProgram keepaliveProgram at h
  repeat' split at h
  all_goals simp only [reduceCtorEq, Option.some.injEq, Prod.mk.injEq] at h
  all_goals (obtain ⟨rfl, rfl⟩ := h)
  all_goals first
    | exact .inl ⟨rfl, .inl rfl⟩
    | exact .inl ⟨rfl, .inr rfl⟩
    | exact .inr ⟨_, rfl⟩
    | (rw [Caller.resume_beforeConnect] at hb; simp at hb)
    | (simp [Pc.beforeConnect] at hb)

theorem afterConnect_program (h : program cfg pc ch = some (a, pc'))
    (ha : pc'.afterConnect = true) :
    pc.afterConnect = true ∨ (pc.beforeConnect = true ∧ a = .piece .connect false) := by
  unfold program callProgram connectProgram disconnectProgram sendProgram recvProgram
    workerProgram keepaliveProgram at h
  repeat' split at h
  all_goals simp only [reduceCtorEq, Option.some.injEq, Prod.mk.injEq] at h
  all_goals (obtain ⟨rfl, rfl⟩ := h)
  all_goals first
    | exact .inl rfl
    | (rw [Caller.resume_afterConnect] at ha; simp at ha)
    | (simp [Pc.afterConnect] at ha; done)
    | (rename_i b _; cases b <;> simp [Pc.afterConnect, Pc.beforeConnect])

/-- The publisher sends a packet past its test, or in a handshake. -/
theorem piece_program {kind : PacketKind} {started : Bool} (hs : pc.subscriberOnly = false)
    (h : program cfg pc ch = some (.piece kind started, pc')) :
    (pc.sender = true ∧ kind ≠ .connect) ∨
      (kind = .connect ∧ (if started then pc.afterConnect else pc.beforeConnect) = true) := by
  unfold program callProgram connectProgram disconnectProgram sendProgram recvProgram
    workerProgram keepaliveProgram at h
  repeat' split at h
  all_goals simp only [reduceCtorEq, Option.some.injEq, Prod.mk.injEq, Action.piece.injEq,
    false_and] at h
  all_goals (obtain ⟨⟨rfl, rfl⟩, rfl⟩ := h)
  all_goals first
    | exact .inl ⟨rfl, by simp⟩
    | exact .inr ⟨rfl, by split <;> simp_all [Pc.afterConnect, Pc.beforeConnect]⟩
    | simp [Pc.subscriberOnly] at hs

theorem openSocket_program {c : Conn} (h : program cfg pc ch = some (.openSocket c, pc')) :
    ch = .fresh c ∧ ∃ k, pc = .connect k .openSocket ∧ pc' = .connect k .establish := by
  unfold program callProgram connectProgram disconnectProgram sendProgram recvProgram
    workerProgram keepaliveProgram at h
  repeat' split at h
  all_goals simp_all

theorem succeed_program (hrole : cfg.role = .publisher)
    (h : program cfg pc ch = some (.succeed, pc')) :
    ∃ k, pc = .connect k .succeed ∧ pc' = .connect k .spawnRecv := by
  unfold program callProgram connectProgram disconnectProgram sendProgram recvProgram
    workerProgram keepaliveProgram at h
  repeat' split at h
  all_goals simp_all

/-- Once CONNECT has begun, that stays so until the socket is replaced. -/
theorem begun_step (hb : s.Begun) (ho : ∀ c, a ≠ .openSocket c) :
    ((effect s t a).setPc t pc).Begun := by
  intro c hc
  rw [ThreadState.setPc_fd, effect_fd] at hc
  rw [ThreadState.setPc_log, effect_log]
  cases a with
  | openSocket c' => exact (ho c' rfl).elim
  | closeSocket => simp at hc
  | piece kind started =>
    obtain ⟨rest, hr⟩ := hb c hc
    exact ⟨rest ++ [⟨kind, !started⟩], by simp [ThreadState.accept, show s.fd = some c from hc, hr]⟩
  | _ => exact hb c hc

theorem fresh_step (hf : s.Fresh) (ho : ∀ c, a ≠ .openSocket c)
    (hpiece : ∀ kind started, a ≠ .piece kind started) :
    ((effect s t a).setPc t pc).Fresh := by
  intro c hc
  rw [ThreadState.setPc_fd, effect_fd] at hc
  rw [ThreadState.setPc_log, effect_log]
  cases a with
  | openSocket c' => exact (ho c' rfl).elim
  | closeSocket => simp at hc
  | piece kind started => exact (hpiece kind started rfl).elim
  | _ => exact hf c hc

/-- A socket cannot be fresh and begun. -/
theorem ThreadState.Fresh.not_begun (hf : s.Fresh) (hb : s.Begun) : s.fd = none := by
  cases hfd : s.fd with
  | none => rfl
  | some c =>
    obtain ⟨rest, hr⟩ := hb c hfd
    rw [hf c hfd] at hr
    simp at hr

/-- The first bytes of CONNECT make a fresh socket begun. -/
theorem begun_of_connectStart (hf : s.Fresh) :
    ((effect s t (.piece .connect false)).setPc t pc).Begun := by
  intro c hc
  have hfd : s.fd = some c := hc
  exact ⟨[], by simp [effect, ThreadState.setPc, ThreadState.setThread, ThreadState.accept, hfd,
    hf c hfd, connectStart]⟩

theorem opened_step (ho : ∀ c, s.fd = some c → (s.log c).isSome) (c : Conn)
    (hc : ((effect s t a).setPc t pc).fd = some c) :
    (((effect s t a).setPc t pc).log c).isSome := by
  rw [ThreadState.setPc_fd, effect_fd] at hc
  rw [ThreadState.setPc_log, effect_log]
  cases a with
  | openSocket c' =>
    obtain rfl : c' = c := by simpa using hc
    simp
  | closeSocket => simp at hc
  | piece kind started => simp [ThreadState.accept, show s.fd = some c from hc]
  | _ => exact ho c hc

/-- One more piece on the current connection keeps the order. -/
theorem FirstInv.first_piece (hi : FirstInv s) {kind : PacketKind} {started : Bool}
    (hp : program cfg (s.threads t).pc ch = some (.piece kind started, pc)) {c : Conn}
    (hfd : s.fd = some c) :
    ∃ l, s.log c = some l ∧ OneConnect (l ++ [(⟨kind, !started⟩ : Piece)]) := by
  have hlate (hb : s.Begun) (hx : (⟨kind, !started⟩ : Piece) ≠ connectStart) :
      ∃ l, s.log c = some l ∧ OneConnect (l ++ [(⟨kind, !started⟩ : Piece)]) := by
    obtain ⟨rest, hr⟩ := hb c hfd
    refine ⟨_, hr, by simp, ?_⟩
    rw [List.count_append, List.count_singleton]
    simpa [hx] using (hi.first c _ hr).2
  rcases piece_program (hi.publisher t) hp with ⟨hs, hk⟩ | ⟨rfl, hs⟩
  · exact hlate (hi.sender t hs) (by simp [connectStart, hk])
  · cases started with
    | true => exact hlate (hi.begun t hs) (by simp [connectStart])
    | false => exact ⟨[], hi.fresh t hs c hfd, by simp [connectStart], by simp [connectStart]⟩

theorem FirstInv.first_step (hi : FirstInv s)
    (hp : program cfg (s.threads t).pc ch = some (a, pc)) (hen : enabled s t a = true) :
    ConnectFirst ((effect s t a).setPc t pc) := by
  intro c l hl
  rw [ThreadState.setPc_log, effect_log] at hl
  cases a with
  | openSocket c' =>
    by_cases hc : c = c'
    · subst hc
      obtain rfl : [] = l := by simpa using hl
      simp [OneConnect]
    · exact hi.first c l (by simpa [Function.update_of_ne hc] using hl)
  | piece kind started =>
    obtain ⟨c', hfd⟩ := Option.isSome_iff_exists.mp (show s.fd.isSome = true from hen)
    obtain ⟨l', hl', hnew⟩ := hi.first_piece hp hfd
    by_cases hc : c = c'
    · subst hc
      obtain rfl : l' ++ [⟨kind, !started⟩] = l := by
        simpa [ThreadState.accept, hfd, hl'] using hl
      exact hnew
    · exact hi.first c l (by simpa [ThreadState.accept, hfd, Function.update_of_ne hc] using hl)
  | _ => exact hi.first c l hl

theorem Pc.handshaking_of_beforeConnect (h : pc.beforeConnect = true) : pc.handshaking = true := by
  unfold Pc.beforeConnect at h
  split at h
  all_goals first
    | rfl
    | simp at h

theorem Pc.handshaking_of_afterConnect (h : pc.afterConnect = true) : pc.handshaking = true := by
  unfold Pc.afterConnect at h
  split at h
  all_goals first
    | rfl
    | simp at h

/-- A CONNECT that has begun is all there is to begin with. -/
theorem FirstInv.begun_of_ne_nil (hi : FirstInv s) (h : ∀ c, s.fd = some c → s.log c ≠ some []) :
    s.Begun := by
  intro c hc
  obtain ⟨l, hl⟩ := Option.isSome_iff_exists.mp (hi.opened c hc)
  cases l with
  | nil => exact (h c hc hl).elim
  | cons p rest =>
    obtain rfl := (hi.first c _ hl).1 p rfl
    exact ⟨rest, hl⟩

section step

variable (hi : FirstInv s) (hp : program cfg (s.threads t).pc ch = some (a, pc))
  (hen : enabled s t a = true)
include hi hp hen

/-- A handshake in progress keeps the socket from being replaced by another thread. -/
theorem not_openSocket_of_other {t' : Tid} (ht : t' ≠ t)
    (h : (s.threads t').pc.handshaking = true) (c : Conn) : a ≠ .openSocket c := by
  rintro rfl
  obtain ⟨-, k, hpc, -⟩ := openSocket_program hp
  exact ht (hi.alone t' t h (by rw [hpc]; rfl))

theorem alone_step (hk : ConnectsAlone s (t, ch)) {t₁ t₂ : Tid}
    (h₁ : (((effect s t a).setPc t pc).threads t₁).pc.handshaking = true)
    (h₂ : (((effect s t a).setPc t pc).threads t₂).pc.handshaking = true) : t₁ = t₂ := by
  -- with a handshake elsewhere before the step, thread `t` does not come to another one
  have hother : ∀ t', t' ≠ t → (s.threads t').pc.handshaking = true → pc.handshaking = false := by
    intro t' ht h'
    by_contra hc
    rcases handshaking_program hp (by simpa using hc) with h | ⟨k, hpc, hno, -⟩
    · exact ht (hi.alone t' t h' h)
    · simp [hk.1 k hpc hno t'] at h'
  rcases step_pc_cases (Pc.start_false rfl rfl fun _ => rfl) hp h₁ with ⟨rfl, hn₁⟩ | ⟨hne₁, ho₁⟩ <;>
    rcases step_pc_cases (Pc.start_false rfl rfl fun _ => rfl) hp h₂ with ⟨rfl, hn₂⟩ | ⟨hne₂, ho₂⟩
  · rfl
  · simp [hother t₂ hne₂ ho₂] at hn₁
  · simp [hother t₁ hne₁ ho₁] at hn₂
  · exact hi.alone t₁ t₂ ho₁ ho₂

theorem notConnected_step (hrole : cfg.role = .publisher) {t' : Tid}
    (h : (((effect s t a).setPc t pc).threads t').pc.handshaking = true) :
    ((effect s t a).setPc t pc).state ≠ .connected := by
  have hsucc : a ≠ .succeed := by
    rintro rfl
    obtain ⟨k, hpc, rfl⟩ := succeed_program hrole hp
    rcases step_pc_cases (Pc.start_false rfl rfl fun _ => rfl) hp h with ⟨-, hn⟩ | ⟨hne, ho⟩
    · simp [Pc.handshaking, ConnectPc.handshaking] at hn
    · exact hne (hi.alone t' t ho (by rw [hpc]; rfl))
  refine step_state_ne_connected hp hsucc ?_
  rcases step_pc_cases (Pc.start_false rfl rfl fun _ => rfl) hp h with ⟨-, hn⟩ | ⟨-, ho⟩
  · rcases handshaking_program hp hn with h' | ⟨-, -, -, rfl⟩
    · exact hi.notConnected t h'
    · simpa [enabled] using hen
  · exact hi.notConnected t' ho

theorem connected_step (hrole : cfg.role = .publisher)
    (h : ((effect s t a).setPc t pc).state = .connected) :
    ((effect s t a).setPc t pc).Begun := by
  by_cases hsucc : a = .succeed
  · subst hsucc
    obtain ⟨k, hpc, -⟩ := succeed_program hrole hp
    exact begun_step (hi.begun t (by rw [hpc]; rfl)) (by simp)
  · have hconn : s.state = .connected := by
      by_contra hc
      exact step_state_ne_connected hp hsucc hc h
    refine begun_step (hi.connected hconn) ?_
    rintro c rfl
    obtain ⟨-, k, hpc, -⟩ := openSocket_program hp
    exact hi.notConnected t (by rw [hpc]; rfl) hconn

theorem beforeConnect_step {t' : Tid}
    (h : (((effect s t a).setPc t pc).threads t').pc.beforeConnect = true) :
    ((effect s t a).setPc t pc).Fresh := by
  rcases step_pc_cases (Pc.start_false rfl rfl fun _ => rfl) hp h with ⟨rfl, hn⟩ | ⟨hne, ho⟩
  · rcases beforeConnect_program hp hn with ⟨hb, rfl | rfl⟩ | ⟨c, rfl⟩
    · exact fresh_step (hi.fresh t' hb) (by simp) (by simp)
    · exact fresh_step (hi.fresh t' hb) (by simp) (by simp)
    · rintro c' ⟨⟩
      simp [effect_log]
  · have hh := Pc.handshaking_of_beforeConnect ho
    refine fresh_step (hi.fresh t' ho) (not_openSocket_of_other hi hp hen hne hh) ?_
    -- no thread other than `t'` can send on its fresh socket
    rintro kind started rfl
    rcases piece_program (hi.publisher t) hp with ⟨hs, -⟩ | ⟨-, hs⟩
    · have hnone := (hi.fresh t' ho).not_begun (hi.sender t hs)
      simp [enabled, hnone] at hen
    · refine hne (hi.alone t' t hh ?_)
      cases started
      · exact Pc.handshaking_of_beforeConnect hs
      · exact Pc.handshaking_of_afterConnect hs

theorem afterConnect_step {t' : Tid}
    (h : (((effect s t a).setPc t pc).threads t').pc.afterConnect = true) :
    ((effect s t a).setPc t pc).Begun := by
  rcases step_pc_cases (Pc.start_false rfl rfl fun _ => rfl) hp h with ⟨rfl, hn⟩ | ⟨hne, ho⟩
  · rcases afterConnect_program hp hn with hold | ⟨hold, rfl⟩
    · refine begun_step (hi.begun t' hold) ?_
      rintro c rfl
      obtain ⟨-, k, -, rfl⟩ := openSocket_program hp
      simp [Pc.afterConnect] at hn
    · exact begun_of_connectStart (hi.fresh t' hold)
  · exact begun_step (hi.begun t' ho)
      (not_openSocket_of_other hi hp hen hne (Pc.handshaking_of_afterConnect ho))

theorem sender_step (hk : ConnectsAlone s (t, ch)) {t' : Tid}
    (h : (((effect s t a).setPc t pc).threads t').pc.sender = true) :
    ((effect s t a).setPc t pc).Begun := by
  rcases step_pc_cases (Pc.start_false rfl rfl fun _ => rfl) hp h with ⟨rfl, hn⟩ | ⟨hne, ho⟩
  · rcases sender_program hp hn with hold | rfl | ⟨hpc, hno, rfl⟩
    · refine begun_step (hi.sender t' hold) ?_
      rintro c rfl
      obtain ⟨-, k, -, rfl⟩ := openSocket_program hp
      simp [Pc.sender] at hn
    · exact begun_step (hi.connected (by simpa [enabled] using hen)) (by simp)
    · exact begun_step (hi.begun_of_ne_nil (hk.2.2 hpc hno)) (by simp)
  · refine begun_step (hi.sender t' ho) ?_
    rintro c rfl
    obtain ⟨hch, k, hpc, -⟩ := openSocket_program hp
    simp [hk.2.1 k c hpc hch t'] at ho

end step

theorem FirstInv.step (hrole : cfg.role = .publisher) (hi : FirstInv s)
    (hk : ConnectsAlone s (t, ch)) (hp : program cfg (s.threads t).pc ch = some (a, pc))
    (hen : enabled s t a = true) : FirstInv ((effect s t a).setPc t pc) where
  publisher t' := by
    by_contra hc
    rcases step_pc_cases (Pc.start_false rfl rfl fun _ => rfl) hp (by simpa using hc) with
      ⟨rfl, hn⟩ | ⟨-, ho⟩
    · simp [subscriberOnly_program hrole hp (hi.publisher t')] at hn
    · simp [hi.publisher t'] at ho
  alone _ _ := alone_step hi hp hen hk
  notConnected _ := notConnected_step hi hp hen hrole
  opened := opened_step hi.opened
  connected := connected_step hi hp hen hrole
  fresh _ := beforeConnect_step hi hp hen
  begun _ := afterConnect_step hi hp hen
  sender _ := sender_step hi hp hen hk
  first := hi.first_step hp hen

theorem FirstInv.initial : FirstInv ThreadState.initial := by
  have h := ThreadState.initial_pc
  refine ⟨fun t => ?_, fun t _ hh => ?_, fun t hh => ?_, fun c hc => ?_, fun hc => ?_,
    fun t hh => ?_, fun t hh => ?_, fun t hh => ?_, fun c l hl => ?_⟩
  · rcases h t with h | h <;> simp [h, Pc.subscriberOnly]
  · rcases h t with h | h <;> simp [h, Pc.handshaking] at hh
  · rcases h t with h | h <;> simp [h, Pc.handshaking] at hh
  · simp [ThreadState.initial] at hc
  · simp [ThreadState.initial] at hc
  · rcases h t with h | h <;> simp [h, Pc.beforeConnect] at hh
  · rcases h t with h | h <;> simp [h, Pc.afterConnect] at hh
  · rcases h t with h | h <;> simp [h, Pc.sender] at hh
  · simp [ThreadState.initial] at hl

/--
In a run of the publisher whose steps all leave a handshake alone, a single CONNECT comes first
on every connection.
-/
theorem connect_first (cfg : ThreadConfig) (hrole : cfg.role = .publisher)
    (ls : List ThreadLabel) (s : ThreadState)
    (hk : Runs.Along (threadStep cfg) ConnectsAlone ThreadState.initial ls)
    (h : Runs.exec (threadStep cfg) ThreadState.initial ls = some s) : ConnectFirst s := by
  have hi : FirstInv s := by
    refine Runs.invariant h hk FirstInv.initial fun s l s' hi hk hs => ?_
    obtain ⟨a, pc, hp, hen, rfl⟩ := threadStep_eq_some.mp hs
    exact hi.step hrole hk hp hen
  exact hi.first

/-! ## A publish before CONNECT -/

/-- With offline buffering, user 1 publishes on the socket that user 0 has just opened. -/
def publishBeforeConnect : List ThreadLabel :=
  [(.user 0, .call .connect), (.user 0, .no), (.user 0, .go), (.user 0, .go), (.user 0, .fresh 0),
    (.user 0, .ok), (.user 1, .call (.send .publishAsync)), (.user 1, .no), (.user 1, .go),
    (.user 1, .more)]

theorem connect_not_first :
    ∃ ls s, Runs.exec (threadStep {}) ThreadState.initial ls = some s ∧ ¬ ConnectFirst s := by
  have hrun : (Runs.exec (threadStep {}) ThreadState.initial publishBeforeConnect).map
      (fun s => s.log 0) = some (some [⟨.publish, true⟩]) := by
    decide +kernel
  obtain ⟨s, hs, hlog⟩ := Option.map_eq_some_iff.mp hrun
  refine ⟨publishBeforeConnect, s, hs, fun h => ?_⟩
  have := (h 0 _ hlog).1 ⟨.publish, true⟩ rfl
  simp [connectStart] at this

/-- User 0 connects and user 1 publishes. -/
def connectAndPublish : List ThreadLabel :=
  [[(.user 0, .call .connect)], connectRun (.user 0) 0 none [],
    [(.user 1, .call (.send .publish)), (.user 1, .yes), (.user 1, .go), (.user 1, .more),
      (.user 1, .ok)]].flatten

/-- A computable form of the condition for steps within `ts`. -/
def connectsAloneIn (ts : List Tid) (s : ThreadState) (l : ThreadLabel) : Bool :=
  staysIn ts l && match (s.threads l.1).pc, l.2 with
    | .connect _ .check, .no => ts.all fun t => !(s.threads t).pc.handshaking
    | .connect _ .openSocket, .fresh _ => ts.all fun t => !(s.threads t).pc.sender
    | .send .publishAsync .check, .no => false
    | _, _ => true

theorem connectsAlone_of_check {ts : List Tid} (hu : Untouched ts s) {l : ThreadLabel}
    (h : connectsAloneIn ts s l = true) : ConnectsAlone s l := by
  rw [connectsAloneIn, Bool.and_eq_true] at h
  refine ⟨fun k hpc hno => ?_, fun k c hpc hch => ?_, fun hpc hno => ?_⟩
  · have hall := h.2
    rw [hpc, hno] at hall
    exact hu.all (P := fun pc _ => pc.handshaking = false) (fun _ => rfl) (fun _ => rfl)
      (by simpa using hall)
  · have hall := h.2
    rw [hpc, hch] at hall
    exact hu.all (P := fun pc _ => pc.sender = false) (fun _ => rfl) (fun _ => rfl)
      (by simpa using hall)
  · have hall := h.2
    rw [hpc, hno] at hall
    simp at hall

/-- The order on the connection of that run. -/
theorem connect_first_connectAndPublish :
    ∃ s, Runs.exec (threadStep {}) ThreadState.initial connectAndPublish = some s ∧
      s.log 0 = some [⟨.connect, true⟩, ⟨.publish, true⟩] ∧ ConnectFirst s := by
  have hrun : (Runs.exec (threadStep {}) ThreadState.initial connectAndPublish).map
      (fun s => s.log 0) = some (some [⟨.connect, true⟩, ⟨.publish, true⟩]) := by
    decide +kernel
  obtain ⟨s, hs, hlog⟩ := Option.map_eq_some_iff.mp hrun
  refine ⟨s, hs, hlog, connect_first {} rfl connectAndPublish s ?_ hs⟩
  refine Runs.along_of_check (I := Untouched sampleThreads) (c := connectsAloneIn sampleThreads)
    (by decide +kernel) (untouched_initial _) (fun s l hu h => connectsAlone_of_check hu h) ?_
  intro s l s' hu h hstep
  rw [connectsAloneIn, Bool.and_eq_true] at h
  exact hu.step h.1 hstep

end MqttNativeSocket
