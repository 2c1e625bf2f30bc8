import MqttNativeSocket.Protocol.ReadLoop

/-! # A stop request while a packet is read

`requestStop` only sets a flag. A thread that is reading looks at it before each
call of `recv`, so that it makes no further call once the one it is in has
returned. A call returns after its timeout at the latest, and with it the read
and the receive loop. The loop has a stop token of its own, which decides whether
it takes the way out for a lost connection.
-/

namespace MqttNativeSocket

/-- The flag is set before any call in `post` is made, if it is not set already. -/
def StopsBefore (post : List RecvCall) (stop : Bool) (calls : List RecvCall) : Prop :=
  stop = true ∧ post <:+ calls ∨ ∃ pre c, calls = pre ++ c :: post ∧ c.stopSet = true

namespace StopsBefore

variable {post calls : List RecvCall} {stop : Bool} {c : RecvCall}

theorem suffix (h : StopsBefore post stop calls) : post <:+ calls := by
  rcases h with ⟨-, h⟩ | ⟨pre, c, rfl, -⟩
  · exact h
  · exact ⟨pre ++ [c], by simp⟩

/-- The next call is not in `post`, and may be the one that finds the flag set. -/
theorem call (h : StopsBefore post false (c :: calls)) : StopsBefore post c.stopSet calls := by
  rcases h with ⟨h, -⟩ | ⟨pre, d, h, hd⟩
  · contradiction
  · cases pre with
    | nil =>
      obtain ⟨rfl, rfl⟩ := List.cons.inj h
      exact .inl ⟨hd, List.suffix_refl _⟩
    | cons e pre =>
      obtain ⟨rfl, rfl⟩ := List.cons.inj h
      exact .inr ⟨pre, d, rfl, hd⟩

theorem not_nil (h : StopsBefore post false []) : False := by
  rcases h with ⟨h, -⟩ | ⟨pre, c, h, -⟩
  · contradiction
  · simp at h

theorem pushBack (h : StopsBefore post stop calls) (bs : Bytes) :
    StopsBefore post stop (MqttNativeSocket.pushBack bs calls) := by
  cases bs with
  | nil => exact h
  | cons b bs =>
    rcases h with ⟨hstop, h⟩ | ⟨pre, c, rfl, hc⟩
    · exact .inl ⟨hstop, h.trans (List.suffix_cons ..)⟩
    · exact .inr ⟨_ :: pre, c, rfl, hc⟩

end StopsBefore

theorem recvByteLoop_stops {post : List RecvCall} {ssl stop : Bool} {calls : List RecvCall}
    (h : StopsBefore post stop calls) :
    ∃ r stop' calls', recvByteLoop ssl stop calls = some (r, stop', calls') ∧
      StopsBefore post stop' calls' := by
  induction calls generalizing stop with
  | nil =>
    cases stop with
    | true => exact ⟨_, _, _, by rw [recvByteLoop], h⟩
    | false => exact h.not_nil.elim
  | cons c calls ih =>
    cases stop with
    | true => exact ⟨_, _, _, by rw [recvByteLoop], h⟩
    | false =>
      have hcall := h.call
      obtain ⟨result, stop⟩ := c
      obtain ⟨r, stop', calls', hloop, hstops⟩ := ih hcall
      cases result with
      | data b bs => exact ⟨.ok b, stop, _, by cases ssl <;> rfl, hcall.pushBack bs⟩
      | again => exact ⟨r, stop', calls', by cases ssl <;> exact hloop, hstops⟩
      | eintr => exact ⟨r, stop', calls', by cases ssl <;> exact hloop, hstops⟩
      | eof => cases ssl <;> cases stop <;> exact ⟨_, _, _, rfl, hcall⟩
      | fail reason => cases ssl <;> cases stop <;> exact ⟨_, _, _, rfl, hcall⟩

theorem recvExactLoop_stops {post : List RecvCall} {ssl stop : Bool} {n : ℕ} {buf : Bytes}
    {calls : List RecvCall} (h : StopsBefore post stop calls) :
    ∃ r stop' calls', recvExactLoop ssl n stop buf calls = some (r, stop', calls') ∧
      StopsBefore post stop' calls' := by
  induction calls generalizing stop buf with
  | nil =>
    cases stop with
    | true =>
      by_cases hfull : n ≤ buf.length
      · exact ⟨_, _, _, by simp only [recvExactLoop, if_pos hfull]; rfl, h⟩
      · exact ⟨_, _, _, by simp only [recvExactLoop, if_neg hfull]; rfl, h⟩
    | false => exact h.not_nil.elim
  | cons c calls ih =>
    by_cases hfull : n ≤ buf.length
    · exact ⟨_, _, _, by simp only [recvExactLoop, if_pos hfull]; rfl, h⟩
    cases stop with
    | true => exact ⟨_, _, _, by simp only [recvExactLoop, if_neg hfull]; rfl, h⟩
    | false =>
      have hcall := h.call
      obtain ⟨result, stop⟩ := c
      simp only [recvExactLoop, if_neg hfull]
      cases result with
      | data b bs =>
        by_cases hfit : (b :: bs).length ≤ n - buf.length
        · obtain ⟨r, stop', calls', hloop, hstops⟩ := @ih stop (buf ++ b :: bs) hcall
          exact ⟨r, stop', calls', by
            rw [if_neg Bool.false_ne_true]
            exact (if_pos hfit).trans hloop, hstops⟩
        · exact ⟨_, _, _, by simp only [Bool.false_eq_true, if_false, if_neg hfit]; rfl,
            hcall.pushBack _⟩
      | again =>
        obtain ⟨r, stop', calls', hloop, hstops⟩ := @ih stop buf hcall
        exact ⟨r, stop', calls', hloop, hstops⟩
      | eintr =>
        obtain ⟨r, stop', calls', hloop, hstops⟩ := @ih stop buf hcall
        exact ⟨r, stop', calls', hloop, hstops⟩
      | eof => cases ssl <;> cases stop <;> exact ⟨_, _, _, rfl, hcall⟩
      | fail reason => cases ssl <;> cases stop <;> exact ⟨_, _, _, rfl, hcall⟩

/-! ## Calls on the transport -/

def Transport.StopsBefore (post : List RecvCall) (t : Transport) : Prop :=
  MqttNativeSocket.StopsBefore post t.stopFlag t.recvs

/-- A computation that returns before any call in `post` is made. -/
def Net.Prompt {α : Type} (post : List RecvCall) (x : Net α) : Prop :=
  ∀ t : Transport, t.StopsBefore post → ∃ r t', x t = some (r, t') ∧ t'.StopsBefore post

namespace Net.Prompt

variable {α β : Type} {post : List RecvCall} {x : Net α} {f : α → Net β}

theorem pure (a : α) : Net.Prompt post (Pure.pure a : Net α) := fun t ht => ⟨.ok a, t, rfl, ht⟩

theorem throw (e : MqttException) : Net.Prompt post (MonadExcept.throw e : Net α) := fun t ht =>
  ⟨.error e, t, rfl, ht⟩

theorem bind (hx : Net.Prompt post x) (hf : ∀ a, Net.Prompt post (f a)) :
    Net.Prompt post (x >>= f) := by
  intro t ht
  obtain ⟨r, t₁, hr, ht₁⟩ := hx t ht
  cases r with
  | error e => exact ⟨.error e, t₁, Net.bind_error hr, ht₁⟩
  | ok a =>
    obtain ⟨r', t₂, hr', ht₂⟩ := hf a t₁ ht₁
    exact ⟨r', t₂, (Net.bind_ok hr).trans hr', ht₂⟩

theorem recvByte : Net.Prompt post recvByte := by
  intro t ht
  obtain ⟨r, stop, calls, hloop, hstops⟩ := @recvByteLoop_stops post t.ssl _ _ ht
  refine ⟨r, { t with stopFlag := stop, recvs := calls }, ?_, hstops⟩
  rw [MqttNativeSocket.recvByte, hloop]
  rfl

theorem recvExact (n : ℕ) : Net.Prompt post (recvExact n) := by
  intro t ht
  obtain ⟨r, stop, calls, hloop, hstops⟩ :=
    @recvExactLoop_stops post t.ssl t.stopFlag n [] t.recvs ht
  refine ⟨r, { t with stopFlag := stop, recvs := calls }, ?_, hstops⟩
  rw [MqttNativeSocket.recvExact, hloop]
  rfl

theorem readRemainingLength (left : ℕ) (remaining multiplier : UInt32) :
    Net.Prompt post (readRemainingLength left remaining multiplier) := by
  induction left generalizing remaining multiplier with
  | zero => exact pure _
  | succ left ih =>
    rw [MqttNativeSocket.readRemainingLength]
    refine bind recvByte fun b => ?_
    dsimp only
    split
    · exact pure _
    · split
      · exact bind (throw _) fun _ => ih _ _
      · exact ih _ _

theorem readPacket : Net.Prompt post readPacket := by
  refine bind recvByte fun b0 => bind (readRemainingLength 4 0 1) fun remaining => ?_
  dsimp only
  split
  · exact bind (recvExact _) fun body => pure _
  · exact bind (pure _) fun body => pure _

end Net.Prompt

/-! ## The receive loop -/

/-- What is left to read, in bytes. -/
def Transport.left (t : Transport) : ℕ := (delivered t.recvs).length

/-- A computation that gives nothing back, and takes `n` bytes at least where it succeeds. -/
def Net.Takes {α : Type} (n : ℕ) (x : Net α) : Prop :=
  ∀ t r t', x t = some (r, t') → t'.left ≤ t.left ∧ ∀ a, r = .ok a → t'.left + n ≤ t.left

/-- What a call of the transport takes of the script, seen by its outcome. -/
def TakesOf {α : Type} (n : ℕ) (calls : List RecvCall)
    (out : Option (Result α × Bool × List RecvCall)) : Prop :=
  ∀ r stop calls', out = some (r, stop, calls') →
    (delivered calls').length ≤ (delivered calls).length ∧
      ∀ a, r = .ok a → (delivered calls').length + n ≤ (delivered calls).length

namespace TakesOf

variable {α : Type} {n : ℕ} {calls : List RecvCall} {stop : Bool} {c : RecvCall}
  {out : Option (Result α × Bool × List RecvCall)}

theorem error {e : MqttException} :
    TakesOf n calls (some ((.error e : Result α), stop, calls)) := by
  rintro r stop' calls' ⟨⟩
  exact ⟨le_rfl, by simp⟩

theorem same {r : Result α} : TakesOf 0 calls (some (r, stop, calls)) := by
  rintro r' stop' calls' ⟨⟩
  exact ⟨le_rfl, fun _ _ => le_rfl⟩

/-- What is done on the rest of a script is done on the whole. -/
theorem cons (h : TakesOf n calls out) : TakesOf n (c :: calls) out := by
  intro r stop' calls' hout
  obtain ⟨hle, hok⟩ := h r stop' calls' hout
  rw [delivered_cons, List.length_append]
  exact ⟨by omega, fun a ha => by have := hok a ha; omega⟩

end TakesOf

theorem recvByteLoop_takes (ssl stop : Bool) (calls : List RecvCall) :
    TakesOf 1 calls (recvByteLoop ssl stop calls) := by
  induction calls generalizing stop with
  | nil =>
    cases stop with
    | true => exact .error
    | false => simp [recvByteLoop, TakesOf]
  | cons c calls ih =>
    cases stop with
    | true => exact .error
    | false =>
      obtain ⟨result, stopSet⟩ := c
      have hrec : TakesOf 1 (⟨result, stopSet⟩ :: calls) (recvByteLoop ssl stopSet calls) :=
        (ih stopSet).cons
      cases result with
      | data b bs =>
        have hdata : recvByteLoop ssl false (⟨.data b bs, stopSet⟩ :: calls) =
            some (.ok b, stopSet, pushBack bs calls) := by cases ssl <;> rfl
        rw [hdata]
        rintro r stop' calls' ⟨⟩
        simp only [delivered_pushBack, delivered_cons, RecvResult.payload, List.length_append,
          List.length_cons]
        exact ⟨by omega, fun _ _ => by omega⟩
      | again => cases ssl <;> exact hrec
      | eintr => cases ssl <;> exact hrec
      | eof => cases ssl <;> cases stopSet <;> exact .cons .error
      | fail reason => cases ssl <;> cases stopSet <;> exact .cons .error

theorem recvExactLoop_takes (ssl : Bool) (n : ℕ) (stop : Bool) (buf : Bytes)
    (calls : List RecvCall) : TakesOf 0 calls (recvExactLoop ssl n stop buf calls) := by
  induction calls generalizing stop buf with
  | nil =>
    simp only [recvExactLoop]
    split
    · exact .same
    · split
      · exact .same
      · simp [TakesOf]
  | cons c calls ih =>
    obtain ⟨result, stopSet⟩ := c
    simp only [recvExactLoop]
    split
    · exact .same
    · split
      · exact .same
      · cases result with
        | data b bs =>
          dsimp only
          split
          · exact (ih _ _).cons
          · rintro r stop' calls' ⟨⟩
            simp only [delivered_pushBack, delivered_cons, RecvResult.payload, List.length_append,
              List.length_drop, List.length_cons]
            exact ⟨by omega, fun _ _ => by omega⟩
        | again => exact (ih _ _).cons
        | eintr => exact (ih _ _).cons
        | eof => cases ssl <;> cases stopSet <;> exact TakesOf.same.cons
        | fail reason => cases ssl <;> cases stopSet <;> exact TakesOf.same.cons

namespace Net.Takes

variable {α β : Type} {n : ℕ} {x : Net α} {f : α → Net β}

theorem pure (a : α) : Net.Takes 0 (Pure.pure a : Net α) := by
  rintro t r t' ⟨⟩
  exact ⟨le_rfl, fun _ _ => le_rfl⟩

theorem throw (e : MqttException) : Net.Takes n (MonadExcept.throw e : Net α) := by
  rintro t r t' ⟨⟩
  exact ⟨le_rfl, by simp⟩

theorem bind (hx : Net.Takes n x) (hf : ∀ a, Net.Takes 0 (f a)) : Net.Takes n (x >>= f) := by
  intro t r t' h
  rcases hr : x t with _ | ⟨e | a, t₁⟩
  · rw [Net.bind_none hr] at h
    contradiction
  · rw [Net.bind_error hr] at h
    obtain ⟨rfl, rfl⟩ := Prod.mk.inj (Option.some.inj h)
    exact ⟨(hx t _ _ hr).1, by simp⟩
  · rw [Net.bind_ok hr] at h
    have htook := (hx t _ _ hr).2 a rfl
    have hrest := (hf a t₁ r t' h).1
    exact ⟨by omega, fun _ _ => by omega⟩

theorem recvByte : Net.Takes 1 recvByte := by
  intro t r t' h
  obtain ⟨⟨r, stop, calls⟩, hloop, he⟩ := Option.map_eq_some_iff.mp h
  obtain ⟨rfl, rfl⟩ := Prod.mk.inj he
  exact recvByteLoop_takes _ _ _ _ _ _ hloop

theorem recvExact (n : ℕ) : Net.Takes 0 (recvExact n) := by
  intro t r t' h
  obtain ⟨⟨r, stop, calls⟩, hloop, he⟩ := Option.map_eq_some_iff.mp h
  obtain ⟨rfl, rfl⟩ := Prod.mk.inj he
  exact recvExactLoop_takes _ _ _ _ _ _ _ _ hloop

theorem mono (h : Net.Takes n x) : Net.Takes 0 x := fun t r t' hr =>
  ⟨(h t r t' hr).1, fun _ _ => (h t r t' hr).1⟩

theorem readRemainingLength (left : ℕ) (remaining multiplier : UInt32) :
    Net.Takes 0 (readRemainingLength left remaining multiplier) := by
  induction left generalizing remaining multiplier with
  | zero => exact pure _
  | succ left ih =>
    rw [MqttNativeSocket.readRemainingLength]
    refine bind recvByte.mono fun b => ?_
    dsimp only
    split
    · exact pure _
    · split
      · exact bind (throw _) fun _ => ih _ _
      · exact ih _ _

theorem readPacket : Net.Takes 1 readPacket := by
  refine bind recvByte fun b0 => bind (readRemainingLength 4 0 1) fun remaining => ?_
  dsimp only
  split
  · exact bind (recvExact _) fun body => pure _
  · exact bind (pure _) fun body => pure _

end Net.Takes

/--
Where the transport is asked to stop, a loop with rounds enough is left: at the top of a round or
after a read that fails, and by its loss path if its looks there do not find it asked to stop too.
-/
theorem recvLoop_stops {σ : Type} (handle : σ → IncomingPacket → σ) (lost : σ → σ)
    {t : Transport} {post : List RecvCall} (ht : t.StopsBefore post) (stops : ℕ → Bool) (s : σ)
    {n : ℕ} (hn : t.left < n) :
    ∃ (ps : List IncomingPacket) (t' : Transport),
      recvLoop handle lost stops n s t =
        (if stops (2 * ps.length) || stops (2 * ps.length + 1) then ps.foldl handle s
          else lost (ps.foldl handle s), t') ∧
      (∀ i < ps.length, stops (2 * i) = false) ∧ t'.StopsBefore post := by
  induction n generalizing t s stops with
  | zero => omega
  | succ n ih =>
    by_cases htop : stops 0 = true
    · exact ⟨[], t, by simp [recvLoop, htop], by simp, ht⟩
    have htop : stops 0 = false := by simpa using htop
    obtain ⟨r, t₁, hr, hstops⟩ := Net.Prompt.readPacket t ht
    cases r with
    | error e =>
      refine ⟨[], t₁, ?_, by simp, hstops⟩
      simp [recvLoop, htop, hr]
    | ok p =>
      have htook := (Net.Takes.readPacket t _ _ hr).2 p rfl
      obtain ⟨ps, t', hl, hlooks, hpost⟩ := ih hstops (fun i => stops (i + 2)) (handle s p)
        (show t₁.left < n by omega)
      refine ⟨p :: ps, t', ?_, ?_, hpost⟩
      · simp only [recvLoop, htop, hr, Bool.false_eq_true, if_false]
        exact hl
      · intro i hi
        cases i with
        | zero => exact htop
        | succ i => exact hlooks i (by simpa using hi)

/--
Where the transport's stop flag is set while or before some call of `recv` is made, none of the
calls after it is: a read of a packet returns without them, and so is the receive loop left,
whatever it makes of the packets that came before. It is left without its loss path if one of its
last two looks at its own stop token finds that asked for too, and by its loss path if not.
-/
theorem stop_ends_reading (t : Transport) (post : List RecvCall) (ht : t.StopsBefore post) :
    (∃ r t', readPacket t = some (r, t') ∧ post <:+ t'.recvs) ∧
    ∀ (σ : Type) (handle : σ → IncomingPacket → σ) (lost : σ → σ) (stops : ℕ → Bool) (s : σ)
      (n : ℕ), t.left < n → ∃ (ps : List IncomingPacket) (t' : Transport),
        recvLoop handle lost stops n s t =
          (if stops (2 * ps.length) || stops (2 * ps.length + 1) then ps.foldl handle s
            else lost (ps.foldl handle s), t') ∧
        (∀ i < ps.length, stops (2 * i) = false) ∧ post <:+ t'.recvs := by
  constructor
  · obtain ⟨r, t', hr, hstops⟩ := Net.Prompt.readPacket t ht
    exact ⟨r, t', hr, hstops.suffix⟩
  · intro σ handle lost stops s n hn
    obtain ⟨ps, t', hl, hlooks, hstops⟩ := recvLoop_stops handle lost ht stops s hn
    exact ⟨ps, t', hl, hlooks, hstops.suffix⟩

/--
The loop reads a PINGRESP; the transport's flag is set by the next call, and the token after it. It
does not make the last call, and does not take its loss path.
-/
theorem stop_ends_reading_afterPingresp :
    ∃ (ps : List IncomingPacket) (t' : Transport),
      recvLoop (fun s p => s ++ [p]) (fun _ => []) (fun i => decide (3 ≤ i)) 5 []
        { recvs := [⟨.data 0xD0 [0], false⟩, ⟨.again, true⟩, ⟨.data 0xD0 [0], false⟩] } =
          (if decide (3 ≤ 2 * ps.length) || decide (3 ≤ 2 * ps.length + 1) then
            ps.foldl (fun s p => s ++ [p]) [] else [], t') ∧
      (∀ i < ps.length, decide (3 ≤ 2 * i) = false) ∧
      [⟨.data 0xD0 [0], false⟩] <:+ t'.recvs := by
  obtain ⟨-, hloop⟩ := stop_ends_reading
    { recvs := [⟨.data 0xD0 [0], false⟩, ⟨.again, true⟩, ⟨.data 0xD0 [0], false⟩] }
    [⟨.data 0xD0 [0], false⟩] (.inr ⟨[⟨.data 0xD0 [0], false⟩], ⟨.again, true⟩, rfl, rfl⟩)
  exact hloop _ (fun s p => s ++ [p]) (fun _ => []) (fun i => decide (3 ≤ i)) [] 5 (by decide)

end MqttNativeSocket
