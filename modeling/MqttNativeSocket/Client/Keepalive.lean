import MqttNativeSocket.Client.Threads
import MqttNativeSocket.Foundations.Runs

/-! # The keepalive thread and the clock

A broker may drop a client that has been silent for one and a half times the
keepalive interval it announced. The keepalive thread looks at the clock once a
second and sends a PINGREQ when half the interval has gone by since `lastSend`.
How late a thread may run is a parameter; time is counted in nanoseconds.
-/

namespace MqttNativeSocket

/-- `std::chrono::seconds{1}`. -/
def second : ℕ := 1000000000

/-- `config.keepaliveSeconds > 0 ? config.keepaliveSeconds / 2 : 30`, in seconds. -/
def keepaliveInterval (keepaliveSeconds : UInt16) : ℕ :=
  (if 0 < keepaliveSeconds then keepaliveSeconds.toNat / 2 else 30) * second

/--
How late threads may run: `wake` after the end of a sleep, `ping` from there to the end of a send,
the wait for `sendMtx` included, `stamp` from the end of a send to the assignment of `lastSend`.
-/
structure Slack where
  wake : ℕ
  ping : ℕ
  stamp : ℕ

/-- Where the keepalive thread is, and since when. -/
inductive KeepalivePhase where
  | asleep (since : ℕ)
  /-- A PINGREQ is due. -/
  | due (since : ℕ)
  /-- `sendAll` has returned, with success or not, and `sendMtx` is held. -/
  | sent (ok : Bool) (since : ℕ)
  | ended
  deriving DecidableEq, Repr

/-- By when the thread takes its next step. -/
def KeepalivePhase.deadline (slack : Slack) : KeepalivePhase → Option ℕ
  | asleep t => some (t + second + slack.wake)
  | due t => some (t + slack.ping)
  | sent _ t => some (t + slack.stamp)
  | ended => none

/--
`other` is the time since when another thread holds `sendMtx` with its packet sent, and `lastSent`
the time at which the last packet of the client went out.
-/
structure KeepaliveState where
  now : ℕ
  lastSend : ℕ
  lastSent : ℕ
  phase : KeepalivePhase
  other : Option ℕ := none
  connected : Bool := true
  stop : Bool := false
  deriving DecidableEq, Repr

inductive KeepaliveLabel where
  | elapse (d : ℕ)
  /-- The end of a sleep, and the tests that follow. -/
  | wake
  /-- The thread locks `sendMtx` and sends a PINGREQ. -/
  | ping (ok : Bool)
  /-- It assigns `lastSend` and unlocks, whatever `sendAll` returned. -/
  | stamp
  /-- Another thread sends a packet; a PUBACK and a resubscription leave `lastSend` alone. -/
  | send (stamps : Bool)
  | stampOther
  /-- The state is no longer Connected. -/
  | leave
  | requestStop
  deriving DecidableEq, Repr

namespace KeepaliveState

/-- `connect` has sent CONNECT at `sent`, and starts the thread when the handshake is over. -/
def start (sent stamp handshake : ℕ) : KeepaliveState where
  now := sent + stamp + handshake
  lastSend := sent + stamp
  lastSent := sent
  phase := .asleep (sent + stamp + handshake)

/-- Nobody is past a deadline at time `t`. -/
def InTime (slack : Slack) (s : KeepaliveState) (t : ℕ) : Prop :=
  (∀ deadline ∈ s.phase.deadline slack, t ≤ deadline) ∧ ∀ since ∈ s.other, t ≤ since + slack.stamp

instance (slack : Slack) (s : KeepaliveState) (t : ℕ) : Decidable (s.InTime slack t) := by
  unfold InTime
  infer_instance

/-- Nobody holds `sendMtx`. -/
def free (s : KeepaliveState) : Bool :=
  s.other.isNone && match s.phase with
    | .sent .. => false
    | _ => true

/-- The thread falls asleep again, unless it was asked to stop. -/
def again (s : KeepaliveState) : KeepalivePhase :=
  if s.stop then .ended else .asleep s.now

/-- What the thread does when it wakes up. -/
def awake (interval : ℕ) (s : KeepaliveState) : KeepalivePhase :=
  if s.stop then .ended
  else if s.connected ∧ s.lastSend + interval ≤ s.now then .due s.now
  else s.again

/-- The client is connected and nobody has asked the thread to stop. -/
def live (s : KeepaliveState) : Bool := s.connected && !s.stop

end KeepaliveState

def keepaliveStep (interval : ℕ) (slack : Slack) (s : KeepaliveState) :
    KeepaliveLabel → Option KeepaliveState
  | .elapse d => if s.InTime slack (s.now + d) then some { s with now := s.now + d } else none
  | .wake =>
    match s.phase with
    | .asleep t => if t + second ≤ s.now then some { s with phase := s.awake interval } else none
    | _ => none
  | .ping ok =>
    match s.phase, s.other with
    | .due _, none =>
      some { s with lastSent := if ok then s.now else s.lastSent, phase := .sent ok s.now }
    | _, _ => none
  | .stamp =>
    match s.phase with
    | .sent .. => some { s with lastSend := s.now, phase := s.again }
    | _ => none
  | .send stamps =>
    if s.free then
      some { s with lastSent := s.now, other := if stamps then some s.now else none }
    else none
  | .stampOther => s.other.map fun _ => { s with lastSend := s.now, other := none }
  | .leave => some { s with connected := false }
  | .requestStop => some { s with stop := true }

/-- What each step asks of the state, and what it makes of it. -/
inductive KeepaliveStep (interval : ℕ) (slack : Slack) (s : KeepaliveState) :
    KeepaliveLabel → KeepaliveState → Prop
  | elapse (d : ℕ) (htime : s.InTime slack (s.now + d)) :
      KeepaliveStep interval slack s (.elapse d) { s with now := s.now + d }
  | wake (t : ℕ) (hphase : s.phase = .asleep t) (hslept : t + second ≤ s.now) :
      KeepaliveStep interval slack s .wake { s with phase := s.awake interval }
  | ping (ok : Bool) (t : ℕ) (hphase : s.phase = .due t) (hother : s.other = none) :
      KeepaliveStep interval slack s (.ping ok)
        { s with lastSent := if ok then s.now else s.lastSent, phase := .sent ok s.now }
  | stamp (ok : Bool) (t : ℕ) (hphase : s.phase = .sent ok t) :
      KeepaliveStep interval slack s .stamp { s with lastSend := s.now, phase := s.again }
  | send (stamps : Bool) (hfree : s.free = true) :
      KeepaliveStep interval slack s (.send stamps)
        { s with lastSent := s.now, other := if stamps then some s.now else none }
  | stampOther (t : ℕ) (hother : s.other = some t) :
      KeepaliveStep interval slack s .stampOther { s with lastSend := s.now, other := none }
  | leave : KeepaliveStep interval slack s .leave { s with connected := false }
  | requestStop : KeepaliveStep interval slack s .requestStop { s with stop := true }

section Steps

variable {interval : ℕ} {slack : Slack} {s s' : KeepaliveState} {l : KeepaliveLabel}
  {ls : List KeepaliveLabel}

theorem KeepaliveStep.of_eq (h : keepaliveStep interval slack s l = some s') :
    KeepaliveStep interval slack s l s' := by
  cases l with
  | elapse d =>
    simp only [keepaliveStep, Option.ite_none_right_eq_some, Option.some.injEq] at h
    obtain ⟨htime, rfl⟩ := h
    exact .elapse d htime
  | wake =>
    simp only [keepaliveStep] at h
    split at h
    · next t hphase =>
      simp only [Option.ite_none_right_eq_some, Option.some.injEq] at h
      obtain ⟨hslept, rfl⟩ := h
      exact .wake t hphase hslept
    · contradiction
  | ping ok =>
    simp only [keepaliveStep] at h
    split at h
    · next t hphase hother =>
      obtain rfl := Option.some.inj h
      exact .ping ok t hphase hother
    · contradiction
  | stamp =>
    simp only [keepaliveStep] at h
    split at h
    · next ok t hphase =>
      obtain rfl := Option.some.inj h
      exact .stamp ok t hphase
    · contradiction
  | send stamps =>
    simp only [keepaliveStep, Option.ite_none_right_eq_some, Option.some.injEq] at h
    obtain ⟨hfree, rfl⟩ := h
    exact .send stamps hfree
  | stampOther =>
    obtain ⟨t, hother, rfl⟩ := Option.map_eq_some_iff.mp h
    exact .stampOther t hother
  | leave =>
    obtain rfl := Option.some.inj h
    exact .leave
  | requestStop =>
    obtain rfl := Option.some.inj h
    exact .requestStop

/-! ## Silence -/

/-- What a live thread knows of the time; `first` is the handshake or the interval, if longer. -/
structure Paced (first : ℕ) (slack : Slack) (s : KeepaliveState) : Prop where
  sent_le : s.lastSent ≤ s.now
  send_le : s.lastSend ≤ s.now
  stamped : s.lastSend ≤ s.lastSent + slack.stamp
  in_time : s.InTime slack s.now
  other : ∀ t ∈ s.other, t ≤ s.lastSent
  asleep : ∀ t, s.phase = .asleep t → t ≤ s.lastSend + first
  due : ∀ t, s.phase = .due t → t ≤ s.lastSend + first + second + slack.wake
  sent : ∀ ok t, s.phase = .sent ok t → t ≤ s.lastSent
  running : s.phase ≠ .ended

theorem live_of_step (h : keepaliveStep interval slack s l = some s') (hlive : s'.live = true) :
    s.live = true := by
  cases KeepaliveStep.of_eq h with
  | leave => simp [KeepaliveState.live] at hlive
  | requestStop => simp [KeepaliveState.live] at hlive
  | _ => exact hlive

theorem Paced.step {first : ℕ} (hs : Paced first slack s) (hfirst : interval ≤ first)
    (hlive : s.live = true) (hok : l ≠ .ping false)
    (h : keepaliveStep interval slack s l = some s') : Paced first slack s' := by
  have hstop : s.stop = false := by
    simpa using (Bool.and_eq_true_iff.mp hlive).2
  have hconn : s.connected = true := (Bool.and_eq_true_iff.mp hlive).1
  have hagain : s.again = .asleep s.now := by simp [KeepaliveState.again, hstop]
  obtain ⟨hdeadline, hholder⟩ := hs.in_time
  cases KeepaliveStep.of_eq h with
  | elapse d htime =>
    have hle : s.now ≤ s.now + d := Nat.le_add_right ..
    exact { hs with
      sent_le := hs.sent_le.trans hle, send_le := hs.send_le.trans hle, in_time := htime }
  | wake t hphase hslept =>
    have ht := hs.asleep t hphase
    have hnow : s.now ≤ t + second + slack.wake := hdeadline _ (by rw [hphase]; rfl)
    by_cases hd : s.lastSend + interval ≤ s.now
    · have hawake : s.awake interval = .due s.now := by
        simp [KeepaliveState.awake, hstop, hconn, hd]
      exact { hs with
        in_time := ⟨by simp [hawake, KeepalivePhase.deadline], hholder⟩
        asleep := by simp [hawake]
        due := by simp only [hawake, KeepalivePhase.due.injEq]; omega
        sent := by simp [hawake]
        running := by simp [hawake] }
    · have hawake : s.awake interval = .asleep s.now := by
        simp [KeepaliveState.awake, hstop, hd, hagain]
      exact { hs with
        in_time := ⟨by simp [hawake, KeepalivePhase.deadline]; omega, hholder⟩
        asleep := by simp only [hawake, KeepalivePhase.asleep.injEq]; omega
        due := by simp [hawake]
        sent := by simp [hawake]
        running := by simp [hawake] }
  | ping ok t hphase hnone =>
    obtain rfl : ok = true := by simpa using hok
    exact { hs with
      sent_le := le_rfl
      stamped := hs.send_le.trans (Nat.le_add_right ..)
      in_time := ⟨by simp [KeepalivePhase.deadline], hholder⟩
      other := by simp [hnone]
      asleep := nofun
      due := nofun
      sent := by simp
      running := nofun }
  | stamp ok t hphase =>
    have hnow : s.now ≤ t + slack.stamp := hdeadline _ (by rw [hphase]; rfl)
    have ht := hs.sent ok t hphase
    exact { hs with
      send_le := le_rfl
      stamped := by simp only; omega
      in_time := ⟨by simp [hagain, KeepalivePhase.deadline]; omega, hholder⟩
      asleep := by simp only [hagain, KeepalivePhase.asleep.injEq]; omega
      due := by simp [hagain]
      sent := by simp [hagain]
      running := by simp [hagain] }
  | send stamps hfree =>
    have hnot : ∀ ok t, s.phase ≠ .sent ok t := by
      rintro ok t hphase
      simp [KeepaliveState.free, hphase] at hfree
    exact { hs with
      sent_le := le_rfl
      stamped := hs.send_le.trans (Nat.le_add_right ..)
      in_time := ⟨hdeadline, by cases stamps <;> simp⟩
      other := by cases stamps <;> simp
      sent := fun ok t hphase => (hnot ok t hphase).elim }
  | stampOther t hsome =>
    have ht := hs.other t hsome
    have hnow := hholder t hsome
    have hle := hs.send_le
    exact { hs with
      send_le := le_rfl
      stamped := by simp only; omega
      in_time := ⟨hdeadline, nofun⟩
      other := nofun
      asleep := fun t hphase => (hs.asleep t hphase).trans (by simp only; omega)
      due := fun t hphase => (hs.due t hphase).trans (by simp only; omega) }
  | leave => exact { hs with }
  | requestStop => exact { hs with }

theorem Paced.start {stamp handshake : ℕ} (hstamp : stamp ≤ slack.stamp) (sent : ℕ) :
    Paced (max interval handshake) slack (.start sent stamp handshake) where
  sent_le := by simp only [KeepaliveState.start]; omega
  send_le := by simp only [KeepaliveState.start]; omega
  stamped := by simp only [KeepaliveState.start]; omega
  in_time := ⟨by simp [KeepaliveState.start, KeepalivePhase.deadline]; omega, nofun⟩
  other := nofun
  asleep t h := by
    obtain rfl := KeepalivePhase.asleep.inj h
    simp only [KeepaliveState.start]
    omega
  due := nofun
  sent := nofun
  running := nofun

/--
While the client is connected and no PINGREQ has failed, it is silent for no longer than the
interval, or the handshake if that took longer, with one sleep and the delays of the threads.
-/
theorem silence_le {stamp handshake : ℕ} (hstamp : stamp ≤ slack.stamp) (sent : ℕ)
    (h : Runs.exec (keepaliveStep interval slack) (.start sent stamp handshake) ls = some s)
    (hok : .ping false ∉ ls) (hlive : s.live = true) :
    s.now ≤ s.lastSent + (max interval handshake + second + slack.wake + slack.ping +
      slack.stamp) := by
  have hpaced : s.live = true → Paced (max interval handshake) slack s := by
    refine Runs.invariant
      (I := fun s => s.live = true → Paced (max interval handshake) slack s)
      (C := fun _ l => l ≠ .ping false) h (Runs.along_of_forall fun l hl _ he => hok (he ▸ hl))
      (fun _ => .start hstamp sent) ?_
    intro s l s' hi hl hs hlive'
    have hlive := live_of_step hs hlive'
    exact (hi hlive).step (le_max_left ..) hlive hl hs
  obtain ⟨hsent, hsend, hstamped, ⟨hdeadline, -⟩, -, hasleep, hdue, hsent', hrun⟩ := hpaced hlive
  cases hphase : s.phase with
  | asleep t =>
    have ht := hasleep t hphase
    have hnow : s.now ≤ t + second + slack.wake := hdeadline _ (by rw [hphase]; rfl)
    omega
  | due t =>
    have ht := hdue t hphase
    have hnow : s.now ≤ t + slack.ping := hdeadline _ (by rw [hphase]; rfl)
    omega
  | sent ok t =>
    have ht := hsent' ok t hphase
    have hnow : s.now ≤ t + slack.stamp := hdeadline _ (by rw [hphase]; rfl)
    omega
  | ended => exact (hrun hphase).elim

/--
The client keeps the interval it has announced: while it is connected and no PINGREQ has failed,
it is never silent for one and a half times as long. Handshake and delays may add up to half a
second, which is what an interval of one second leaves.
-/
theorem keepalive_kept (keepaliveSeconds : UInt16) (hpos : 0 < keepaliveSeconds)
    (sent stamp handshake : ℕ) (hstamp : stamp ≤ slack.stamp)
    (hslack : 2 * (handshake + slack.wake + slack.ping + slack.stamp) ≤ second)
    (h : Runs.exec (keepaliveStep (keepaliveInterval keepaliveSeconds) slack)
      (.start sent stamp handshake) ls = some s)
    (hok : .ping false ∉ ls) (hlive : s.live = true) :
    2 * (s.now - s.lastSent) ≤ 3 * (keepaliveSeconds.toNat * second) := by
  have hsilence := silence_le hstamp sent h hok hlive
  have hone : 1 ≤ keepaliveSeconds.toNat := UInt16.lt_iff_toNat_lt.mp hpos
  rw [keepaliveInterval, if_pos hpos] at hsilence
  simp only [second] at hsilence hslack ⊢
  omega

/-! ## Pings -/

/-- What the thread knows once it has sent a PINGREQ at time `p`. -/
structure AfterPing (interval p : ℕ) (s : KeepaliveState) : Prop where
  now : p ≤ s.now
  asleep : ∀ t, s.phase = .asleep t → p ≤ t ∧ p ≤ s.lastSend
  due : ∀ t, s.phase = .due t → p + max interval second ≤ s.now

theorem AfterPing.step {p : ℕ} (hs : AfterPing interval p s)
    (h : keepaliveStep interval slack s l = some s') : AfterPing interval p s' := by
  have hnow := hs.now
  have hagain : ∀ t, s.again = .asleep t → p ≤ t := by
    intro t ht
    unfold KeepaliveState.again at ht
    split at ht
    · contradiction
    · obtain rfl := KeepalivePhase.asleep.inj ht
      exact hnow
  cases KeepaliveStep.of_eq h with
  | elapse d htime =>
    exact { hs with
      now := hnow.trans (Nat.le_add_right ..)
      due := fun t ht => (hs.due t ht).trans (Nat.le_add_right ..) }
  | wake t hphase hslept =>
    obtain ⟨ht, hsend⟩ := hs.asleep t hphase
    refine ⟨hnow, fun t' ht' => ?_, fun t' ht' => ?_⟩
    · simp only [KeepaliveState.awake] at ht'
      split at ht'
      · contradiction
      · split at ht'
        · contradiction
        · exact ⟨hagain t' ht', hsend⟩
    · simp only [KeepaliveState.awake] at ht'
      split at ht'
      · contradiction
      · split at ht'
        · next hdue =>
          simp only
          omega
        · unfold KeepaliveState.again at ht'
          split at ht' <;> contradiction
  | ping ok t hphase hnone => exact ⟨hnow, nofun, nofun⟩
  | stamp ok t hphase =>
    refine ⟨hnow, fun t ht => ⟨hagain t ht, hnow⟩, fun t ht => ?_⟩
    simp only [KeepaliveState.again] at ht
    split at ht <;> contradiction
  | send stamps hfree => exact { hs with }
  | stampOther t hsome => exact { hs with asleep := fun t ht => ⟨(hs.asleep t ht).1, hnow⟩ }
  | leave => exact { hs with }
  | requestStop => exact { hs with }

/--
From one PINGREQ to the next, failed or not, the whole seconds in half of `keepaliveSeconds` go by
(30 seconds where that is 0), and one second at least.
-/
theorem pings_apart {keepaliveSeconds : UInt16} {s₁ s₂ s₃ : KeepaliveState} {ok ok' : Bool}
    (h : Runs.exec (keepaliveStep (keepaliveInterval keepaliveSeconds) slack) s₁ (.ping ok :: ls) =
      some s₂)
    (hping : keepaliveStep (keepaliveInterval keepaliveSeconds) slack s₂ (.ping ok') = some s₃) :
    s₁.now + max (keepaliveInterval keepaliveSeconds) second ≤ s₂.now := by
  obtain ⟨t, ht, hls⟩ := Runs.exec_cons_eq_some.mp h
  have hfirst : AfterPing (keepaliveInterval keepaliveSeconds) s₁.now t := by
    cases KeepaliveStep.of_eq ht with
    | ping ok t hphase hnone => exact ⟨le_rfl, nofun, nofun⟩
  have hs₂ : AfterPing (keepaliveInterval keepaliveSeconds) s₁.now s₂ :=
    Runs.always hls hfirst fun _ _ _ hi hs => hi.step hs
  cases KeepaliveStep.of_eq hping with
  | ping ok t hphase hnone => exact hs₂.due t hphase

/-! ## The program of the thread -/

/-- The program may do the actions one after the other on its way from one point to another. -/
inductive Walks (cfg : ThreadConfig) : Pc → List Action → Pc → Prop
  | nil (p : Pc) : Walks cfg p [] p
  | cons {p q r : Pc} {a : Action} {as : List Action} (ch : Choice)
      (hstep : program cfg p ch = some (a, q)) (hrest : Walks cfg q as r) :
      Walks cfg p (a :: as) r

def KeepalivePhase.pc : KeepalivePhase → Pc
  | asleep _ => .keepalive .awake
  | due _ => .keepalive .lock
  | sent ok _ => .keepalive (.sending ok)
  | ended => .finished

/-- The test of the stop request at the head of the loop. -/
def KeepaliveState.testStop (s : KeepaliveState) : Action :=
  if s.stop then .ifStopped else .unlessStopped

/-- What the thread does in a step, in the words of its program. -/
def KeepaliveState.actions (interval : ℕ) (s : KeepaliveState) : KeepaliveLabel → List Action
  | .wake =>
    if s.stop then [.ifStopped]
    else if s.connected then
      if s.lastSend + interval ≤ s.now then [.unlessStopped, .ifState .connected, .skip]
      else [.unlessStopped, .ifState .connected, .skip, .unlessStopped]
    else [.unlessStopped, .unlessState .connected, .unlessStopped]
  | .ping true => [.lock, .piece .pingreq false]
  | .ping false => [.lock]
  | .stamp => [.unlock, s.testStop]
  | _ => []

theorem walks_again (cfg : ThreadConfig) (s : KeepaliveState) :
    Walks cfg (.keepalive .top) [s.testStop] s.again.pc := by
  unfold KeepaliveState.testStop KeepaliveState.again
  cases s.stop with
  | true => exact .cons .yes rfl (.nil _)
  | false => exact .cons .no rfl (.nil _)

/-- Each step of the timed thread is a way through its program. -/
theorem keepaliveStep_walks (cfg : ThreadConfig)
    (h : keepaliveStep interval slack s l = some s') :
    Walks cfg s.phase.pc (s.actions interval l) s'.phase.pc := by
  cases KeepaliveStep.of_eq h with
  | wake t hphase hslept =>
    rw [hphase]
    simp only [KeepaliveState.actions, KeepaliveState.awake, KeepaliveState.again]
    cases s.stop with
    | true => exact .cons .yes rfl (.nil _)
    | false =>
      cases s.connected with
      | false => exact .cons .no rfl (.cons .no rfl (.cons .no rfl (.nil _)))
      | true =>
        by_cases hd : s.lastSend + interval ≤ s.now
        · simp only [hd, and_true, if_true, Bool.false_eq_true, if_false]
          exact .cons .no rfl (.cons .yes rfl (.cons .yes rfl (.nil _)))
        · simp only [hd, and_false, if_true, Bool.false_eq_true, if_false]
          exact .cons .no rfl (.cons .yes rfl (.cons .no rfl (.cons .no rfl (.nil _))))
  | ping ok t hphase hnone =>
    rw [hphase]
    cases ok with
    | true => exact .cons .go rfl (.cons .more rfl (.nil _))
    | false => exact .cons .go rfl (.nil _)
  | stamp ok t hphase =>
    rw [hphase]
    cases ok with
    | true => exact .cons .ok rfl (walks_again cfg s)
    | false => exact .cons .error rfl (walks_again cfg s)
  | _ => exact .nil _

end Steps

/-- Threads that are up to 100 ms late at waking, 20 at sending and 5 at the assignment. -/
def someSlack : Slack := ⟨100000000, 20000000, 5000000⟩

/-- The thread looks at the clock twice before a PINGREQ is due, and then sleeps again. -/
def firstPing : List KeepaliveLabel :=
  [.elapse 1050000000, .wake, .elapse 1000000000, .wake, .elapse 1000000, .ping true, .stamp,
    .elapse 1099000000]

/-- A keepalive interval of four seconds is kept there. -/
theorem keepalive_kept_firstPing :
    ∃ s, Runs.exec (keepaliveStep (keepaliveInterval 4) someSlack)
        (.start 0 1000000 100000000) firstPing = some s ∧
      2 * (s.now - s.lastSent) ≤ 3 * (4 * second) := by
  have hrun : (Runs.exec (keepaliveStep (keepaliveInterval 4) someSlack)
      (.start 0 1000000 100000000) firstPing).map (·.live) = some true := by decide +kernel
  obtain ⟨s, hs, hlive⟩ := Option.map_eq_some_iff.mp hrun
  exact ⟨s, hs, keepalive_kept 4 (by decide) 0 1000000 100000000 (by decide) (by decide) hs
    (by decide) hlive⟩

/-- A PINGREQ is due, two seconds after the last packet. -/
def pingDue : KeepaliveState :=
  { now := 3000000000, lastSend := 1000000000, lastSent := 1000000000, phase := .due 3000000000 }

/-- A packet of another thread puts the next PINGREQ off. -/
theorem pings_apart_putOff :
    ∃ s₂, Runs.exec (keepaliveStep (keepaliveInterval 4) someSlack) pingDue
        [.ping true, .stamp, .elapse 1050000000, .wake, .send true, .stampOther,
          .elapse 1050000000, .wake, .elapse 1050000000, .wake] = some s₂ ∧
      pingDue.now + max (keepaliveInterval 4) second ≤ s₂.now := by
  have hrun : ((Runs.exec (keepaliveStep (keepaliveInterval 4) someSlack) pingDue
      [.ping true, .stamp, .elapse 1050000000, .wake, .send true, .stampOther,
        .elapse 1050000000, .wake, .elapse 1050000000, .wake]).bind fun s =>
      (keepaliveStep (keepaliveInterval 4) someSlack s (.ping true)).map fun _ => true) =
      some true := by decide +kernel
  obtain ⟨s₂, hs₂, hping⟩ := Option.bind_eq_some_iff.mp hrun
  obtain ⟨s₃, hs₃, -⟩ := Option.map_eq_some_iff.mp hping
  exact ⟨s₂, hs₂, pings_apart hs₂ hs₃⟩

end MqttNativeSocket
