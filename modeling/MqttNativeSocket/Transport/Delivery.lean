import MqttNativeSocket.Transport.Socket

/-! # Delivery of a byte stream

A quiet script holds data segments and calls that are simply repeated. Whatever
the segmentation, the byte and block readers see only the concatenated stream,
and after the stream they do what they would do on the rest of the script. On
the sending side a quiet script moves exactly the given bytes to the wire.
-/

namespace MqttNativeSocket

/-- A receiving call that brings data or is repeated, with the stop flag untouched. -/
def RecvCall.Quiet (c : RecvCall) : Prop :=
  c.stopSet = false ∧
    match c.result with
    | .data _ _ => True
    | .again => True
    | .eintr => True
    | .eof => False
    | .fail _ => False

def RecvResult.payload : RecvResult → Bytes
  | .data b bs => b :: bs
  | _ => []

/-- The stream carried by a script. -/
def delivered (calls : List RecvCall) : Bytes := calls.flatMap fun c => c.result.payload

@[simp] theorem delivered_nil : delivered [] = [] := rfl

@[simp] theorem delivered_cons (c : RecvCall) (calls : List RecvCall) :
    delivered (c :: calls) = c.result.payload ++ delivered calls := rfl

@[simp] theorem delivered_pushBack (bs : Bytes) (calls : List RecvCall) :
    delivered (pushBack bs calls) = bs ++ delivered calls := by
  cases bs <;> rfl

@[simp] theorem pushBack_append (bs : Bytes) (calls calls' : List RecvCall) :
    pushBack bs calls ++ calls' = pushBack bs (calls ++ calls') := by
  cases bs <;> rfl

theorem quiet_pushBack (bs : Bytes) {calls : List RecvCall}
    (h : ∀ c ∈ calls, c.Quiet) : ∀ c ∈ pushBack bs calls, c.Quiet := by
  cases bs with
  | nil => exact h
  | cons b bs => exact List.forall_mem_cons.mpr ⟨⟨rfl, trivial⟩, h⟩

/-- The script of `t` first brings the stream `bs` quietly and goes on with `tail`. -/
structure Transport.Feeds (t : Transport) (bs : Bytes) (tail : List RecvCall) : Prop where
  running : t.stopFlag = false
  script : ∃ calls, t.recvs = calls ++ tail ∧ (∀ c ∈ calls, c.Quiet) ∧ delivered calls = bs

theorem recvByteLoop_quiet (ssl : Bool) {b : UInt8} {bs : Bytes} {calls : List RecvCall}
    (tail : List RecvCall) (hq : ∀ c ∈ calls, c.Quiet) (hd : delivered calls = b :: bs) :
    ∃ calls', recvByteLoop ssl false (calls ++ tail) = some (.ok b, false, calls' ++ tail) ∧
      (∀ c ∈ calls', c.Quiet) ∧ delivered calls' = bs := by
  induction calls with
  | nil => simp at hd
  | cons c calls ih =>
    obtain ⟨⟨hs, hc⟩, hq'⟩ := List.forall_mem_cons.mp hq
    obtain ⟨result, stop⟩ := c
    subst hs
    cases result with
    | data b' bs' =>
      simp only [delivered_cons, RecvResult.payload, List.cons_append, List.cons.injEq] at hd
      obtain ⟨rfl, rfl⟩ := hd
      refine ⟨pushBack bs' calls, ?_, quiet_pushBack bs' hq', delivered_pushBack _ _⟩
      rw [pushBack_append]
      cases ssl <;> rfl
    | again =>
      obtain ⟨calls', hr, h⟩ := ih hq' hd
      exact ⟨calls', by cases ssl <;> exact hr, h⟩
    | eintr =>
      obtain ⟨calls', hr, h⟩ := ih hq' hd
      exact ⟨calls', by cases ssl <;> exact hr, h⟩
    | eof => exact hc.elim
    | fail _ => exact hc.elim

theorem recvByteLoop_exhausted (ssl : Bool) {calls : List RecvCall}
    (tail : List RecvCall) (hq : ∀ c ∈ calls, c.Quiet) (hd : delivered calls = []) :
    recvByteLoop ssl false (calls ++ tail) = recvByteLoop ssl false tail := by
  induction calls with
  | nil => rfl
  | cons c calls ih =>
    obtain ⟨⟨hs, hc⟩, hq'⟩ := List.forall_mem_cons.mp hq
    obtain ⟨result, stop⟩ := c
    subst hs
    cases result with
    | data b' bs' => simp [RecvResult.payload] at hd
    | again => cases ssl <;> exact ih hq' hd
    | eintr => cases ssl <;> exact ih hq' hd
    | eof => exact hc.elim
    | fail _ => exact hc.elim

/-- The byte reader takes the first byte of the stream. -/
theorem recvByte_feeds {t : Transport} {b : UInt8} {bs : Bytes} {tail : List RecvCall}
    (h : t.Feeds (b :: bs) tail) :
    ∃ recvs, recvByte t = some (.ok b, { t with recvs := recvs }) ∧
      { t with recvs := recvs }.Feeds bs tail := by
  obtain ⟨hs, calls, hr, hq, hd⟩ := h
  obtain ⟨calls', hl, hq', hd'⟩ := recvByteLoop_quiet t.ssl tail hq hd
  refine ⟨calls' ++ tail, ?_, hs, calls', rfl, hq', hd'⟩
  simp only [recvByte, hs, hr, hl, Option.map_some]

/-- After the stream the byte reader reads on in the tail. -/
theorem recvByte_exhausted {t : Transport} {tail : List RecvCall} (h : t.Feeds [] tail) :
    recvByte t = recvByte { t with recvs := tail } := by
  obtain ⟨hs, calls, hr, hq, hd⟩ := h
  simp only [recvByte, hs, hr, recvByteLoop_exhausted t.ssl tail hq hd]

theorem recvExactLoop_quiet (ssl : Bool) {n : ℕ} {buf bs rest : Bytes} {calls : List RecvCall}
    (tail : List RecvCall) (hq : ∀ c ∈ calls, c.Quiet) (hd : delivered calls = bs ++ rest)
    (hn : buf.length + bs.length = n) :
    ∃ calls', recvExactLoop ssl n false buf (calls ++ tail) =
        some (.ok (buf ++ bs), false, calls' ++ tail) ∧
      (∀ c ∈ calls', c.Quiet) ∧ delivered calls' = rest := by
  induction calls generalizing buf bs with
  | nil =>
    simp only [delivered_nil, List.nil_eq, List.append_eq_nil_iff] at hd
    obtain ⟨rfl, rfl⟩ := hd
    refine ⟨[], ?_, hq, rfl⟩
    have hle : n ≤ buf.length := by simpa using hn.ge
    cases tail <;> simp [recvExactLoop, hle]
  | cons c calls ih =>
    obtain ⟨⟨hs, hc⟩, hq'⟩ := List.forall_mem_cons.mp hq
    obtain ⟨result, stop⟩ := c
    subst hs
    by_cases hfull : n ≤ buf.length
    · obtain rfl : bs = [] := List.eq_nil_of_length_eq_zero (by omega)
      exact ⟨_, by simp [recvExactLoop, hfull], hq, hd⟩
    · cases result with
      | data b bs' =>
        have hd' : (b :: bs') ++ delivered calls = bs ++ rest := hd
        by_cases hlen : (b :: bs').length ≤ n - buf.length
        · -- the whole segment is needed, and the loop goes on
          obtain ⟨more, rfl, hm⟩ : ∃ more, bs = (b :: bs') ++ more ∧
              delivered calls = more ++ rest := by
            have hp := List.prefix_of_prefix_length_le (List.prefix_append (b :: bs') _)
              (hd' ▸ List.prefix_append bs rest) (by omega)
            obtain ⟨more, rfl⟩ := hp
            exact ⟨more, rfl, by simpa using hd'⟩
          have hn' : (buf ++ b :: bs').length + more.length = n := by
            simp only [List.length_append, List.length_cons] at hn ⊢
            omega
          obtain ⟨calls', hl, h⟩ := ih hq' hm hn'
          refine ⟨calls', ?_, h⟩
          rw [List.append_assoc] at hl
          simp only [List.cons_append, recvExactLoop, hfull, if_false, Bool.false_eq_true,
            hlen, if_true]
          exact hl
        · -- the segment reaches past the block; its rest is read later
          have hsplit : (b :: bs').take (n - buf.length) ++
              ((b :: bs').drop (n - buf.length) ++ delivered calls) = bs ++ rest := by
            rw [← List.append_assoc, List.take_append_drop]
            exact hd'
          have hlength : ((b :: bs').take (n - buf.length)).length = bs.length := by
            rw [List.length_take]
            omega
          obtain ⟨hbs, hrest⟩ := List.append_inj hsplit hlength
          refine ⟨pushBack ((b :: bs').drop (n - buf.length)) calls, ?_,
            quiet_pushBack _ hq', by rw [delivered_pushBack, hrest]⟩
          simp only [List.cons_append, recvExactLoop, hfull, if_false, Bool.false_eq_true,
            hlen, hbs, pushBack_append]
      | again =>
        obtain ⟨calls', hl, h⟩ := ih hq' hd hn
        exact ⟨calls', by simpa [recvExactLoop, hfull] using hl, h⟩
      | eintr =>
        obtain ⟨calls', hl, h⟩ := ih hq' hd hn
        exact ⟨calls', by simpa [recvExactLoop, hfull] using hl, h⟩
      | eof => exact hc.elim
      | fail _ => exact hc.elim

/-- The block reader takes the next `bs.length` bytes of the stream, and no more. -/
theorem recvExact_feeds {t : Transport} {bs rest : Bytes} {tail : List RecvCall}
    (h : t.Feeds (bs ++ rest) tail) :
    ∃ recvs, recvExact bs.length t = some (.ok bs, { t with recvs := recvs }) ∧
      { t with recvs := recvs }.Feeds rest tail := by
  obtain ⟨hs, calls, hr, hq, hd⟩ := h
  have hn : ([] : Bytes).length + bs.length = bs.length := Nat.zero_add _
  obtain ⟨calls', hl, hq', hd'⟩ := recvExactLoop_quiet t.ssl tail hq hd hn
  refine ⟨calls' ++ tail, ?_, hs, calls', rfl, hq', hd'⟩
  simp only [recvExact, hs, hr, hl, Option.map_some, List.nil_append]

/-! ## The end of a stream -/

/-- The script is over, or its next call reports the end of the file or a failure. -/
def Ends : List RecvCall → Prop
  | [] => True
  | c :: _ => c.result = .eof ∨ ∃ reason, c.result = .fail reason

theorem recvByteLoop_ends {ssl : Bool} {tail : List RecvCall} (h : Ends tail)
    (b : UInt8) (rest : Bool × List RecvCall) :
    recvByteLoop ssl false tail ≠ some (.ok b, rest) := by
  cases tail with
  | nil => simp [recvByteLoop]
  | cons c tail =>
    obtain ⟨result, stop⟩ := c
    rcases h with rfl | ⟨reason, rfl⟩ <;> cases ssl <;> cases stop <;> simp [recvByteLoop]

theorem recvByte_ends {t : Transport} {tail : List RecvCall} (hs : t.stopFlag = false)
    (h : Ends tail) : Net.Fails recvByte { t with recvs := tail } := by
  intro b t' hr
  simp only [recvByte, hs] at hr
  obtain ⟨⟨r, rest⟩, hl, he⟩ := Option.map_eq_some_iff.mp hr
  simp only [Prod.mk.injEq] at he
  exact recvByteLoop_ends h b rest (he.1 ▸ hl)

theorem recvExactLoop_exhausted (ssl : Bool) {n : ℕ} {buf bs : Bytes} {calls : List RecvCall}
    (tail : List RecvCall) (hq : ∀ c ∈ calls, c.Quiet) (hd : delivered calls = bs)
    (hn : buf.length + bs.length < n) :
    recvExactLoop ssl n false buf (calls ++ tail) =
      recvExactLoop ssl n false (buf ++ bs) tail := by
  induction calls generalizing buf bs with
  | nil =>
    obtain rfl : [] = bs := hd
    rw [List.append_nil, List.nil_append]
  | cons c calls ih =>
    obtain ⟨⟨hs, hc⟩, hq'⟩ := List.forall_mem_cons.mp hq
    obtain ⟨result, stop⟩ := c
    subst hs
    have hlt : ¬ n ≤ buf.length := by omega
    cases result with
    | data b bs' =>
      rw [delivered_cons, RecvResult.payload] at hd
      have hl := congrArg List.length hd
      rw [List.length_append] at hl
      have hfit : (b :: bs').length ≤ n - buf.length := by omega
      have hn' : (buf ++ b :: bs').length + (delivered calls).length < n := by
        rw [List.length_append]
        omega
      have hnext := ih hq' rfl hn'
      rw [List.append_assoc, hd] at hnext
      simpa only [List.cons_append, recvExactLoop, hlt, if_false, Bool.false_eq_true, hfit,
        if_true] using hnext
    | again => simpa [recvExactLoop, hlt] using ih hq' hd hn
    | eintr => simpa [recvExactLoop, hlt] using ih hq' hd hn
    | eof => exact hc.elim
    | fail _ => exact hc.elim

/-- What is in the buffer stays in front of what comes. -/
theorem recvExactLoop_append (ssl : Bool) (n : ℕ) (stop : Bool) (pre buf : Bytes)
    (calls : List RecvCall) :
    recvExactLoop ssl (pre.length + n) stop (pre ++ buf) calls =
      (recvExactLoop ssl n stop buf calls).map fun r => (r.1.map (pre ++ ·), r.2) := by
  have hfull (buf : Bytes) : pre.length + n ≤ (pre ++ buf).length ↔ n ≤ buf.length := by
    rw [List.length_append, Nat.add_le_add_iff_left]
  have hmissing (buf : Bytes) : pre.length + n - (pre ++ buf).length = n - buf.length := by
    rw [List.length_append, Nat.add_sub_add_left]
  induction calls generalizing stop buf with
  | nil =>
    simp only [recvExactLoop, hfull]
    split
    · rfl
    · cases stop <;> rfl
  | cons c calls ih =>
    simp only [recvExactLoop, hfull, hmissing, List.append_assoc]
    split
    · rfl
    · cases stop with
      | true => rfl
      | false =>
        obtain ⟨result, stop⟩ := c
        cases result with
        | data b bs =>
          simp only [Bool.false_eq_true, if_false]
          split
          · exact ih stop (buf ++ b :: bs)
          · rfl
        | again => exact ih stop buf
        | eintr => exact ih stop buf
        | eof => cases ssl <;> cases stop <;> rfl
        | fail reason => cases ssl <;> cases stop <;> rfl

/-- Past the end of the stream the block reader waits for what is still missing. -/
theorem recvExact_exhausted {t : Transport} {bs : Bytes} {tail : List RecvCall} {n : ℕ}
    (hf : t.Feeds bs tail) (hn : bs.length < n) :
    recvExact n t = (recvExact (n - bs.length) >>= fun more => pure (bs ++ more))
      { t with recvs := tail } := by
  obtain ⟨hs, calls, hr, hq, hd⟩ := hf
  have hn' : bs.length + (n - bs.length) = n := Nat.add_sub_cancel' hn.le
  have happend := recvExactLoop_append t.ssl (n - bs.length) false bs [] tail
  rw [List.append_nil, hn'] at happend
  have hshort : ([] : Bytes).length + bs.length < n := by simpa using hn
  have hloop := recvExactLoop_exhausted t.ssl tail hq hd hshort
  rw [List.nil_append, happend] at hloop
  simp only [recvExact, hs, hr, hloop]
  change _ = ((recvExactLoop t.ssl (n - bs.length) false [] tail).map _).bind _
  rcases recvExactLoop t.ssl (n - bs.length) false [] tail with _ | ⟨_ | _, _⟩ <;> rfl

theorem recvExact_ends {t : Transport} {tail : List RecvCall} {n : ℕ} (hs : t.stopFlag = false)
    (h : Ends tail) (hn : 0 < n) : Net.Fails (recvExact n) { t with recvs := tail } := by
  intro out t' hr
  have hlt : ¬ n ≤ 0 := by omega
  simp only [recvExact, hs] at hr
  cases tail with
  | nil => simp [recvExactLoop, hlt] at hr
  | cons c tail =>
    obtain ⟨result, stop⟩ := c
    rcases h with rfl | ⟨reason, rfl⟩ <;> cases hssl : t.ssl <;> cases stop <;>
      simp [recvExactLoop, hlt, hssl] at hr

/-! ## Sending -/

/-- A sending call that takes some bytes or is interrupted. -/
def SendResult.Proceeds : SendResult → Prop
  | .accept _ => True
  | .eintr => True
  | .zero => False
  | .fail _ => False

def SendResult.accepts : SendResult → Bool
  | .accept _ => true
  | _ => false

/-- The lengths still to write once a call has taken up to `k + 1` bytes of the first message. -/
def takeFrom (k : ℕ) : List ℕ → List ℕ
  | [] => []
  | n :: ns => if n ≤ k + 1 then ns else (n - (k + 1)) :: ns

/-- Of the calls that write messages of these lengths, one is interrupted. -/
def interrupted : List ℕ → List SendResult → Bool
  | ns, .accept k :: calls => interrupted (takeFrom k ns) calls
  | ns, .eintr :: _ => !ns.isEmpty
  | _, _ => false

theorem interrupted_nil (calls : List SendResult) : interrupted [] calls = false := by
  induction calls with
  | nil => rfl
  | cons c calls ih =>
    cases c with
    | accept k => exact ih
    | eintr => rfl
    | zero => rfl
    | fail _ => rfl

theorem toInt_of_lt {n : ℕ} (h : n < 2 ^ 31) : toInt n = n := by
  exact Int.bmod_eq_of_le (by omega) (by omega)

/-- Such a call takes between one byte and all of them. -/
theorem sendOnce_accept {ssl : Bool} {data : Bytes} (hd : 0 < data.length)
    (hl : data.length < 2 ^ 31) (k : ℕ) :
    sendOnce ssl data (.accept k) = .ok (some (min (k + 1) data.length)) := by
  cases ssl with
  | false => rfl
  | true => simp [sendOnce, toInt_of_lt hl, List.length_pos_iff.mp hd]

/-- How the loop ends: with all bytes on the wire, or under TLS at the first interrupt. -/
theorem sendAllLoop_proceeds {ssl : Bool} {calls calls' : List SendResult}
    {data wire wire' : Bytes} {r : Result Unit} (hc : ∀ c ∈ calls, c.Proceeds)
    (hl : data.length < 2 ^ 31) (hd : 0 < data.length) (ns : List ℕ)
    (h : sendAllLoop ssl calls data wire = some (r, calls', wire')) :
    calls' <:+ calls ∧
    ((r = .ok () ∧ wire' = wire ++ data ∧
        (ssl = true → interrupted (data.length :: ns) calls = interrupted ns calls')) ∨
      (ssl = true ∧ interrupted (data.length :: ns) calls = true ∧ (∃ e, r = .error e) ∧
        ∃ j < data.length, wire' = wire ++ data.take j)) := by
  induction calls generalizing data wire with
  | nil =>
    obtain ⟨d, ds, rfl⟩ := List.exists_cons_of_length_pos hd
    simp [sendAllLoop] at h
  | cons c calls ih =>
    obtain ⟨hc₁, hc'⟩ := List.forall_mem_cons.mp hc
    obtain ⟨d, ds, rfl⟩ := List.exists_cons_of_length_pos hd
    cases c with
    | accept k =>
      rw [sendAllLoop, sendOnce_accept hd hl] at h
      simp only at h
      by_cases hk : (d :: ds).length ≤ k + 1
      · -- the last of the bytes
        rw [min_eq_right hk, List.drop_length, List.take_length] at h
        simp only [sendAllLoop, Option.some.injEq, Prod.mk.injEq] at h
        obtain ⟨rfl, rfl, rfl⟩ := h
        refine ⟨List.suffix_cons .., .inl ⟨rfl, rfl, fun _ => ?_⟩⟩
        rw [interrupted, takeFrom, if_pos hk]
      · rw [min_eq_left (by omega)] at h
        have hdrop : ((d :: ds).drop (k + 1)).length = (d :: ds).length - (k + 1) :=
          List.length_drop
        have hnext : interrupted ((d :: ds).length :: ns) (.accept k :: calls) =
            interrupted (((d :: ds).drop (k + 1)).length :: ns) calls := by
          rw [interrupted, takeFrom, if_neg hk, hdrop]
        have htake : wire ++ (d :: ds).take (k + 1) ++ (d :: ds).drop (k + 1) =
            wire ++ d :: ds := by
          rw [List.append_assoc, List.take_append_drop]
        obtain ⟨hsuffix, hcases⟩ := ih hc' (by omega) (by omega) h
        refine ⟨hsuffix.trans (List.suffix_cons ..), ?_⟩
        rw [hnext]
        rcases hcases with ⟨hr, hw, hi⟩ | ⟨hssl, hi, hr, j, hj, hw⟩
        · exact .inl ⟨hr, hw.trans htake, hi⟩
        · refine .inr ⟨hssl, hi, hr, k + 1 + j, by omega, ?_⟩
          rw [hw, List.append_assoc, ← List.take_add]
    | eintr =>
      cases ssl with
      | false =>
        obtain ⟨hsuffix, hcases⟩ := ih hc' hl hd (show sendAllLoop false calls _ _ = _ from h)
        refine ⟨hsuffix.trans (List.suffix_cons ..), .inl ?_⟩
        obtain ⟨hr, hw, -⟩ | ⟨hssl, -⟩ := hcases
        · exact ⟨hr, hw, by simp⟩
        · contradiction
      | true =>
        simp only [sendAllLoop, sendOnce, if_true, Option.some.injEq, Prod.mk.injEq] at h
        obtain ⟨rfl, rfl, rfl⟩ := h
        exact ⟨List.suffix_cons .., .inr ⟨rfl, rfl, ⟨_, rfl⟩, 0, hd, by simp⟩⟩
    | zero => exact hc₁.elim
    | fail _ => exact hc₁.elim

/-- Under TLS the loop does not wait behind an interrupt. -/
theorem sendAllLoop_of_interrupted {calls : List SendResult} {data : Bytes} (wire : Bytes)
    (hl : data.length < 2 ^ 31) (hd : 0 < data.length) (ns : List ℕ)
    (hnone : sendAllLoop true calls data wire = none) :
    interrupted (data.length :: ns) calls = false := by
  induction calls generalizing data wire with
  | nil => rfl
  | cons c calls ih =>
    obtain ⟨d, ds, rfl⟩ := List.exists_cons_of_length_pos hd
    cases c with
    | accept k =>
      rw [sendAllLoop, sendOnce_accept hd hl] at hnone
      simp only at hnone
      by_cases hk : (d :: ds).length ≤ k + 1
      · rw [min_eq_right hk, List.drop_length, List.take_length] at hnone
        simp [sendAllLoop] at hnone
      · rw [min_eq_left (by omega)] at hnone
        have hdrop : ((d :: ds).drop (k + 1)).length = (d :: ds).length - (k + 1) :=
          List.length_drop
        rw [interrupted, takeFrom, if_neg hk, ← hdrop]
        exact ih _ (by omega) (by omega) hnone
    | eintr => simp [sendAllLoop, sendOnce] at hnone
    | zero => rfl
    | fail _ => rfl

/-- One accepting call for each byte is always enough. -/
theorem sendAllLoop_returns {ssl : Bool} {calls : List SendResult} {data : Bytes} (wire : Bytes)
    (hc : ∀ c ∈ calls, c.Proceeds) (hl : data.length < 2 ^ 31)
    (hn : data.length ≤ calls.countP SendResult.accepts) :
    ∃ r calls' wire', sendAllLoop ssl calls data wire = some (r, calls', wire') ∧
      (r = .ok () →
        calls.countP SendResult.accepts ≤ calls'.countP SendResult.accepts + data.length) := by
  induction calls generalizing data wire with
  | nil =>
    obtain rfl : data = [] := List.eq_nil_of_length_eq_zero (by simpa using hn)
    exact ⟨_, _, _, rfl, by simp⟩
  | cons c calls ih =>
    obtain ⟨hc₁, hc'⟩ := List.forall_mem_cons.mp hc
    cases data with
    | nil => exact ⟨_, _, _, by rw [sendAllLoop], by simp⟩
    | cons d ds =>
      cases c with
      | accept k =>
        rw [List.countP_cons_of_pos (by rfl)] at hn
        simp only [List.length_cons] at hn hl
        have hleft : ((d :: ds).drop (min (k + 1) (d :: ds).length)).length < 2 ^ 31 := by
          simp only [List.length_drop, List.length_cons]
          omega
        have henough : ((d :: ds).drop (min (k + 1) (d :: ds).length)).length ≤
            calls.countP SendResult.accepts := by
          simp only [List.length_drop, List.length_cons]
          omega
        obtain ⟨r, calls', wire', h, hk⟩ :=
          ih (wire ++ (d :: ds).take (min (k + 1) (d :: ds).length)) hc' hleft henough
        refine ⟨r, calls', wire', ?_, fun hr => ?_⟩
        · rw [sendAllLoop, sendOnce_accept (by simp) (by simpa using hl)]
          exact h
        · have := hk hr
          rw [List.countP_cons_of_pos (by rfl)]
          simp only [List.length_drop, List.length_cons] at this ⊢
          omega
      | eintr =>
        cases ssl with
        | false =>
          obtain ⟨r, calls', wire', h, hk⟩ :=
            ih wire hc' hl (by simpa [SendResult.accepts] using hn)
          exact ⟨r, calls', wire', h, by simpa [SendResult.accepts] using hk⟩
        | true => exact ⟨_, _, _, rfl, by simp⟩
      | zero => exact hc₁.elim
      | fail _ => exact hc₁.elim

/-! ## Errors of the sending side -/

/-- The texts with which `sendAll` fails. -/
def SendText (text : Bytes) : Prop := ascii "send: " <+: text ∨ ascii "SSL_write: " <+: text

theorem sendOnce_text {ssl : Bool} {data : Bytes} {c : SendResult} {e : MqttException}
    (h : sendOnce ssl data c = .error e) : SendText e.message := by
  have hssl : SendText (ascii "SSL_write: unknown SSL error") := .inr (by decide)
  cases c with
  | accept k =>
    simp only [sendOnce] at h
    split at h
    · split at h
      · simp at h
      · obtain rfl := Except.error.inj h
        exact hssl
    · simp at h
  | eintr =>
    cases ssl with
    | true =>
      obtain rfl := Except.error.inj h
      exact hssl
    | false => simp [sendOnce] at h
  | zero =>
    cases ssl with
    | true =>
      obtain rfl := Except.error.inj h
      exact hssl
    | false =>
      obtain rfl := Except.error.inj h
      exact .inl (by decide)
  | fail reason =>
    obtain rfl := Except.error.inj h
    cases ssl with
    | true => exact .inr (List.prefix_append ..)
    | false => exact .inl (List.prefix_append ..)

theorem sendAll_text {data : Bytes} {tx tx' : Transport} {e : MqttException}
    (h : sendAll data tx = some (.error e, tx')) : SendText e.message := by
  have hloop : ∀ {calls calls' : List SendResult} {data wire wire' : Bytes},
      sendAllLoop tx.ssl calls data wire = some (.error e, calls', wire') →
        SendText e.message := by
    intro calls calls' data wire wire' h
    induction calls generalizing data wire with
    | nil => cases data <;> simp [sendAllLoop] at h
    | cons c calls ih =>
      cases data with
      | nil => simp [sendAllLoop] at h
      | cons d ds =>
        rw [sendAllLoop] at h
        split at h
        · next e' he =>
          obtain ⟨h, -⟩ := Prod.mk.inj (Option.some.inj h)
          exact Except.error.inj h ▸ sendOnce_text he
        · exact ih h
        · exact ih h
  obtain ⟨⟨r, sends, wire⟩, hsend, he⟩ := Option.map_eq_some_iff.mp h
  obtain ⟨rfl, -⟩ := Prod.mk.inj he
  exact hloop hsend

end MqttNativeSocket
