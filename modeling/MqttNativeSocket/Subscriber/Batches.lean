import MqttNativeSocket.Subscriber.Identifiers

/-! # Requests for several topics

`subscribe` and `unsubscribe` of a vector make one request after the other, and
leave at the first that fails. The requests before it stand, those after it are
never made, and nothing is taken back.
-/

namespace MqttNativeSocket

variable {κ : Type} {s s' : SubscribeState κ} {c d : ℕ} {req : SubscribeRequest κ}
  {table table' : AList fun _ : Bytes => TopicSub κ}

/-- How a request has ended, if it has. -/
def SubscribeCall.completion (k : SubscribeCall κ) : Option (Completion Unit) :=
  match k.pc with
  | .done => some (.returned (.ok ()))
  | .failed cause => some (k.req.failure cause)
  | _ => none

/-- The request is on its way to fail for this cause, or has failed. -/
def SubscribePc.cause : SubscribePc → Option FailureCause
  | .eraseEntry cause => some cause
  | .eraseTopic cause => some cause
  | .failed cause => some cause
  | _ => none

/-- Where a thread stands in its loop over the topics. -/
inductive BatchPc where
  | head | inside
  | left (r : Completion Unit)

/-- `todo` begins with the request that is being made, as call number `call`, or is made next. -/
structure BatchState (κ : Type) where
  shared : SubscribeState κ
  call : ℕ
  todo : List (SubscribeRequest κ)
  pc : BatchPc := .head

inductive BatchLabel (κ : Type) where
  | next
  /-- A step of the request, or of the receive loop. -/
  | inner (l : SubscribeLabel κ)
  | look

/-- The steps of the thread itself. -/
def BatchLabel.own : BatchLabel κ → Bool
  | inner l => l.call.isSome
  | _ => true

/-- `for (const auto& t : topics) if (auto r = ...; !r) return r;`, and an exception leaves too. -/
def batchStep (b : BatchState κ) : BatchLabel κ → Option (BatchState κ)
  | .next =>
    match b.pc, b.todo with
    | .head, [] => some { b with pc := .left (.returned (.ok ())) }
    | .head, req :: _ =>
      (subscribeStep b.shared (.begin b.call req)).map fun s =>
        { b with shared := s, pc := .inside }
    | _, _ => none
  | .inner l =>
    match l.call, b.pc with
    | none, _ => (subscribeStep b.shared l).map fun s => { b with shared := s }
    | some c, .inside =>
      if c = b.call then (subscribeStep b.shared l).map fun s => { b with shared := s } else none
    | some _, _ => none
  | .look =>
    match b.pc, (b.shared.calls b.call).completion with
    | .inside, some (.returned (.ok ())) =>
      some { b with call := b.call + 1, todo := b.todo.tail, pc := .head }
    | .inside, some r => some { b with pc := .left r }
    | _, _ => none

/-- A call of `subscribe` or `unsubscribe` with a vector of topics. -/
inductive VectorRequest (κ : Type) where
  | subscribe (topics : List Bytes) (qos : ℤ) (callback : κ)
  | unsubscribe (topics : List Bytes)

namespace VectorRequest

def topics : VectorRequest κ → List Bytes
  | subscribe topics _ _ => topics
  | unsubscribe topics => topics

/-- The request for one of the topics. -/
def each : VectorRequest κ → Bytes → SubscribeRequest κ
  | subscribe _ qos callback => fun t => .subscribe t qos callback
  | unsubscribe _ => .unsubscribe

/-- The loop before its first topic; its requests are numbered from `c` on. -/
def start (v : VectorRequest κ) (s : SubscribeState κ) (c : ℕ) : BatchState κ :=
  { shared := s, call := c, todo := v.topics.map v.each }

theorem topic_each (v : VectorRequest κ) (t : Bytes) : (v.each t).topic = t := by
  cases v <;> rfl

end VectorRequest

/-! ## What a step leaves alone -/

/-- No pending acknowledgement belongs to the call. -/
def SubscribeState.NoEntry (s : SubscribeState κ) (c : ℕ) : Prop :=
  ∀ id, s.pendingSubacks id ≠ some c ∧ s.pendingUnsubacks id ≠ some c

/-- Only the call itself makes an entry. -/
theorem SubscribeState.NoEntry.step (h : s.NoEntry c) {l : SubscribeLabel κ}
    (hl : l.call ≠ some c) (hs : subscribeStep s l = some s') : s'.NoEntry c := by
  cases SubscribeStep.of_eq hs with
  | register d hpc =>
    have hne : c ≠ d := by
      rintro rfl
      exact hl rfl
    intro id
    change (s.register d).pendingSubacks id ≠ some c ∧ (s.register d).pendingUnsubacks id ≠ some c
    unfold SubscribeState.register
    split
    · exact ⟨fun hid => (Pending.of_put hid).elim (fun he => hne he.2) (h id).1, (h id).2⟩
    · exact ⟨(h id).1, fun hid => (Pending.of_put hid).elim (fun he => hne he.2) (h id).2⟩
  | eraseEntry d cause hpc =>
    intro id
    change (s.eraseEntry d).pendingSubacks id ≠ some c ∧
      (s.eraseEntry d).pendingUnsubacks id ≠ some c
    unfold SubscribeState.eraseEntry
    split
    · exact ⟨fun hid => (h id).1 (Pending.of_remove hid), (h id).2⟩
    · exact ⟨(h id).1, fun hid => (h id).2 (Pending.of_remove hid)⟩
  | suback body =>
    intro id
    unfold SubscribeState.handleSuback
    split
    · exact h id
    · exact ⟨fun hid => (h id).1 (Pending.of_remove hid), (h id).2⟩
  | unsuback body => exact fun id => ⟨(h id).1, fun hid => (h id).2 (Pending.of_remove hid)⟩
  | failAllAcks => exact fun id => ⟨(Option.some_ne_none c).symm, (Option.some_ne_none c).symm⟩
  | _ => exact h

/-- A call that has not been made is made by itself only. -/
theorem SubscribeState.calls_of_other {l : SubscribeLabel κ} (hl : l.call ≠ some c)
    (hs : subscribeStep s l = some s') : s'.calls c = s.calls c := by
  cases hcall : l.call with
  | none => rw [subscribeStep_calls_of_recv hcall hs]
  | some d =>
    refine subscribeStep_calls_of_ne hcall hs ?_
    rintro rfl
    exact hl hcall

theorem SubscribeState.subscriptions_of_recv {l : SubscribeLabel κ} (hl : l.call = none)
    (hs : subscribeStep s l = some s') : s'.subscriptions = s.subscriptions := by
  cases SubscribeStep.of_eq hs with
  | suback body =>
    unfold SubscribeState.handleSuback
    split <;> rfl
  | unsuback body => rfl
  | failAllAcks => rfl
  | _ => contradiction

/-! ## The table -/

/-- The table after the requests are applied to it one after the other. -/
def applyAll (table : AList fun _ : Bytes => TopicSub κ) (reqs : List (SubscribeRequest κ)) :
    AList fun _ : Bytes => TopicSub κ :=
  reqs.foldl (fun t r => r.apply t) table

theorem lookup_apply_congr (h : ∀ t, table.lookup t = table'.lookup t) (t : Bytes) :
    (req.apply table).lookup t = (req.apply table').lookup t := by
  by_cases ht : t = req.topic
  · rw [ht, req.lookup_apply, req.lookup_apply]
  · rw [req.lookup_apply_ne ht, req.lookup_apply_ne ht, h]

theorem applyAll_concat (reqs : List (SubscribeRequest κ)) :
    applyAll table (reqs ++ [req]) = req.apply (applyAll table reqs) := by
  simp [applyAll]

theorem VectorRequest.lookup_each (v : VectorRequest κ) (t : Bytes) :
    ((v.each t).apply table).lookup t = (v.each t).entry := by
  cases v with
  | subscribe topics qos callback => exact AList.lookup_insert table
  | unsubscribe topics => exact AList.lookup_erase t table

theorem VectorRequest.lookup_applyAll (v : VectorRequest κ) (topics : List Bytes) (t : Bytes) :
    (applyAll table (topics.map v.each)).lookup t =
      if t ∈ topics then (v.each t).entry else table.lookup t := by
  induction topics using List.reverseRecOn with
  | nil => rfl
  | append_singleton topics u ih =>
    rw [List.map_append, List.map_singleton, applyAll_concat]
    by_cases ht : t = u
    · subst ht
      simp [v.lookup_each]
    · rw [SubscribeRequest.lookup_apply_ne _ (by rwa [v.topic_each]), ih]
      simp [ht]

namespace AloneInv

/-- A request that has ended well is applied. -/
theorem lookup_done (hi : AloneInv table req c s) (hpc : (s.calls c).pc = .done) (t : Bytes) :
    s.subscriptions.lookup t = (req.apply table).lookup t := by
  by_cases ht : t = req.topic
  · rw [ht, hi.own, hpc, req.lookup_apply]
    rfl
  · rw [hi.others t ht, req.lookup_apply_ne ht]

/-- A request that has failed is applied, or its topic is taken out. -/
theorem lookup_failed (hi : AloneInv table req c s) {cause : FailureCause}
    (hpc : (s.calls c).pc = .failed cause) (t : Bytes) :
    s.subscriptions.lookup t =
      if t = req.topic ∧ req.undoes cause = true then none else (req.apply table).lookup t := by
  by_cases ht : t = req.topic
  · rw [ht, hi.own, hpc, req.lookup_apply, SubscribeRequest.entryAt]
    simp
  · rw [if_neg (fun h => ht h.1), hi.others t ht, req.lookup_apply_ne ht]

end AloneInv

/-! ## The loop -/

/-- What each step asks of the state, and what it makes of it. -/
inductive BatchStep (b : BatchState κ) : BatchLabel κ → BatchState κ → Prop
  | finish (hpc : b.pc = .head) (htodo : b.todo = []) :
      BatchStep b .next { b with pc := .left (.returned (.ok ())) }
  | begin (req : SubscribeRequest κ) (rest : List (SubscribeRequest κ)) (hpc : b.pc = .head)
      (htodo : b.todo = req :: rest) (hborn : (b.shared.calls b.call).pc = .unborn) :
      BatchStep b .next { b with
        shared := b.shared.setCall b.call { req := req, pc := .table }, pc := .inside }
  | recv (l : SubscribeLabel κ) (s : SubscribeState κ) (hl : l.call = none)
      (hs : subscribeStep b.shared l = some s) : BatchStep b (.inner l) { b with shared := s }
  | call (l : SubscribeLabel κ) (s : SubscribeState κ) (hpc : b.pc = .inside)
      (hl : l.call = some b.call) (hs : subscribeStep b.shared l = some s) :
      BatchStep b (.inner l) { b with shared := s }
  | again (hpc : b.pc = .inside)
      (hdone : (b.shared.calls b.call).completion = some (.returned (.ok ()))) :
      BatchStep b .look { b with call := b.call + 1, todo := b.todo.tail, pc := .head }
  | leave (r : Completion Unit) (hpc : b.pc = .inside)
      (hr : (b.shared.calls b.call).completion = some r) (hne : r ≠ .returned (.ok ())) :
      BatchStep b .look { b with pc := .left r }

theorem BatchStep.of_eq {b b' : BatchState κ} {l : BatchLabel κ} (h : batchStep b l = some b') :
    BatchStep b l b' := by
  cases l with
  | next =>
    simp only [batchStep] at h
    split at h
    · next hpc htodo =>
      obtain rfl := Option.some.inj h
      exact .finish hpc htodo
    · next req rest hpc htodo =>
      obtain ⟨s, hs, rfl⟩ := Option.map_eq_some_iff.mp h
      simp only [subscribeStep, Option.ite_none_right_eq_some, Option.some.injEq] at hs
      obtain ⟨hborn, rfl⟩ := hs
      exact .begin req rest hpc htodo hborn
    · contradiction
  | inner l =>
    simp only [batchStep] at h
    split at h
    · next hl =>
      obtain ⟨s, hs, rfl⟩ := Option.map_eq_some_iff.mp h
      exact .recv l s hl hs
    · next c hl hpc =>
      rw [Option.ite_none_right_eq_some] at h
      obtain ⟨rfl, h⟩ := h
      obtain ⟨s, hs, rfl⟩ := Option.map_eq_some_iff.mp h
      exact .call l s hpc hl hs
    · contradiction
  | look =>
    simp only [batchStep] at h
    split at h
    · next hpc hdone =>
      obtain rfl := Option.some.inj h
      exact .again hpc hdone
    · next r hne hpc hr =>
      obtain rfl := Option.some.inj h
      exact .leave r hpc hr fun he => hne he
    · contradiction

/-- What a loop over `reqs`, begun on `table` with call number `c`, leaves behind in `s`. -/
inductive BatchOutcome (table : AList fun _ : Bytes => TopicSub κ) (c : ℕ)
    (reqs : List (SubscribeRequest κ)) (s : SubscribeState κ) : Completion Unit → Prop
  /-- All the requests are made, and applied in order. -/
  | all (htable : ∀ t, s.subscriptions.lookup t = (applyAll table reqs).lookup t) :
      BatchOutcome table c reqs s (.returned (.ok ()))
  /-- One fails. Those before it are applied, and those after it not made. -/
  | failed (made : List (SubscribeRequest κ)) (req : SubscribeRequest κ)
      (rest : List (SubscribeRequest κ)) (cause : FailureCause) (hreqs : reqs = made ++ req :: rest)
      (hne : req.failure cause ≠ .returned (.ok ()))
      (hunborn : ∀ d, c + made.length < d → (s.calls d).pc = .unborn)
      (htable : ∀ t, s.subscriptions.lookup t =
        if t = req.topic ∧ req.undoes cause = true then none
        else (applyAll table (made ++ [req])).lookup t) :
      BatchOutcome table c reqs s (req.failure cause)

/-- `made` are the requests that have been made. -/
inductive BatchInv (table : AList fun _ : Bytes => TopicSub κ) (c : ℕ)
    (reqs : List (SubscribeRequest κ)) : BatchState κ → Prop
  | head {s : SubscribeState κ} {made todo : List (SubscribeRequest κ)}
      (hreqs : reqs = made ++ todo) (hentries : ∀ d, c ≤ d → s.NoEntry d)
      (hunborn : ∀ d, c + made.length ≤ d → (s.calls d).pc = .unborn)
      (htable : ∀ t, s.subscriptions.lookup t = (applyAll table made).lookup t) :
      BatchInv table c reqs ⟨s, c + made.length, todo, .head⟩
  | inside {s : SubscribeState κ} {before : AList fun _ : Bytes => TopicSub κ}
      {made rest : List (SubscribeRequest κ)} {req : SubscribeRequest κ}
      (hreqs : reqs = made ++ req :: rest)
      (hentries : ∀ d, c ≤ d → d ≠ c + made.length → s.NoEntry d)
      (hunborn : ∀ d, c + made.length < d → (s.calls d).pc = .unborn)
      (htable : ∀ t, before.lookup t = (applyAll table made).lookup t)
      (hi : AloneInv before req (c + made.length) s) :
      BatchInv table c reqs ⟨s, c + made.length, req :: rest, .inside⟩
  | left {s : SubscribeState κ} {call : ℕ} {todo : List (SubscribeRequest κ)}
      {r : Completion Unit} (hentries : ∀ d, c ≤ d → s.NoEntry d)
      (houtcome : BatchOutcome table c reqs s r) : BatchInv table c reqs ⟨s, call, todo, .left r⟩

/-- The receive loop changes neither the table nor the calls. -/
theorem BatchOutcome.recv {reqs : List (SubscribeRequest κ)} {r : Completion Unit}
    (h : BatchOutcome table c reqs s r) {l : SubscribeLabel κ} (hl : l.call = none)
    (hs : subscribeStep s l = some s') : BatchOutcome table c reqs s' r := by
  have hsubs := SubscribeState.subscriptions_of_recv hl hs
  have hcalls := subscribeStep_calls_of_recv hl hs
  cases h with
  | all htable => exact .all (by rwa [hsubs])
  | failed made req rest cause hreqs hne hunborn htable =>
    exact .failed made req rest cause hreqs hne (by rwa [hcalls]) (by rwa [hsubs])

/-- A request that has ended has no entry. -/
theorem AloneInv.noEntry (hi : AloneInv table req c s) (hended : (s.calls c).pc.ended = true) :
    s.NoEntry c := by
  have houtcome : RequestOutcome { s with subscriptions := table } s c req := hi.outcome hended
  exact houtcome.entries

theorem AloneInv.completion_of_ended (hi : AloneInv table req c s)
    (hended : (s.calls c).pc.ended = true) : ∃ r, (s.calls c).completion = some r := by
  unfold SubscribeCall.completion
  cases hpc : (s.calls c).pc <;> simp [hpc, SubscribePc.ended] at hended
  · exact ⟨_, rfl⟩
  · exact ⟨_, rfl⟩
  · exact (hi.born.2 hpc).elim

/-- A request ends as done, or with a failure that is no success. -/
theorem AloneInv.completion_cases (hi : AloneInv table req c s) {r : Completion Unit}
    (h : (s.calls c).completion = some r) :
    (s.calls c).pc = .done ∧ r = .returned (.ok ()) ∨
      ∃ cause, (s.calls c).pc = .failed cause ∧ r = req.failure cause ∧
        r ≠ .returned (.ok ()) := by
  unfold SubscribeCall.completion at h
  split at h
  · next hpc => exact .inl ⟨hpc, (Option.some.inj h).symm⟩
  · next cause hpc =>
    obtain rfl := Option.some.inj h
    refine .inr ⟨cause, hpc, by rw [hi.req_eq], ?_⟩
    rw [hi.req_eq]
    rcases req.failure_cases (hi.erasing cause (.inr hpc)) with ⟨e, he⟩ | ⟨-, -, he⟩ <;> simp [he]
  · contradiction

theorem BatchInv.step {reqs : List (SubscribeRequest κ)} {b b' : BatchState κ}
    {l : BatchLabel κ} (hb : BatchInv table c reqs b) (h : batchStep b l = some b') :
    BatchInv table c reqs b' := by
  cases BatchStep.of_eq h with
  | finish hpc htodo =>
    cases hb with
    | head hreqs hentries hunborn htable =>
      obtain rfl : _ = [] := htodo
      rw [List.append_nil] at hreqs
      subst hreqs
      exact .left hentries (.all htable)
    | inside => contradiction
    | left => contradiction
  | begin req rest hpc htodo hborn =>
    cases hb with
    | @head s made todo hreqs hentries hunborn htable =>
      obtain rfl : todo = req :: rest := htodo
      have hfresh : s.Fresh (c + made.length) :=
        ⟨hborn, fun id => (hentries _ (by omega) id).1, fun id => (hentries _ (by omega) id).2⟩
      refine .inside hreqs (fun d hd _ => hentries d hd) (fun d hd => ?_) htable (.begin hfresh)
      have hne : d ≠ c + made.length := by omega
      exact (congrArg SubscribeCall.pc (Function.update_of_ne hne ..)).trans (hunborn d (by omega))
    | inside => contradiction
    | left => contradiction
  | recv l s' hl hs =>
    have hother : ∀ d, l.call ≠ some d := by simp [hl]
    cases hb with
    | head hreqs hentries hunborn htable =>
      refine .head hreqs (fun d hd => (hentries d hd).step (hother d) hs) (fun d hd => ?_) ?_
      · rw [SubscribeState.calls_of_other (hother d) hs]
        exact hunborn d hd
      · rwa [SubscribeState.subscriptions_of_recv hl hs]
    | inside hreqs hentries hunborn htable hi =>
      refine .inside hreqs (fun d hd hne => (hentries d hd hne).step (hother d) hs)
        (fun d hd => ?_) htable (hi.step (.inr hl) hs)
      rw [SubscribeState.calls_of_other (hother d) hs]
      exact hunborn d hd
    | left hentries houtcome =>
      exact .left (fun d hd => (hentries d hd).step (hother d) hs) (houtcome.recv hl hs)
  | call l s' hpc hl hs =>
    cases hb with
    | head => contradiction
    | @inside s before made rest req hreqs hentries hunborn htable hi =>
      have hother : ∀ d, d ≠ c + made.length → l.call ≠ some d := by
        rintro d hne hd
        exact hne (Option.some.inj (hd.symm.trans hl))
      refine .inside hreqs (fun d hd hne => (hentries d hd hne).step (hother d hne) hs)
        (fun d hd => ?_) htable (hi.step (.inl hl) hs)
      rw [SubscribeState.calls_of_other (hother d (by omega)) hs]
      exact hunborn d hd
    | left => contradiction
  | again hpc hdone =>
    cases hb with
    | head => contradiction
    | @inside s before made rest req hreqs hentries hunborn htable hi =>
      rcases hi.completion_cases hdone with ⟨hpc', -⟩ | ⟨cause, -, -, hne⟩
      · have hentry := hi.noEntry (by rw [hpc']; rfl)
        have hhead : BatchInv table c reqs
            ⟨s, c + (made ++ [req]).length, rest, .head⟩ := by
          refine .head (by simp [hreqs]) (fun d hd => ?_) (fun d hd => ?_) (fun t => ?_)
          · by_cases hne : d = c + made.length
            · exact hne ▸ hentry
            · exact hentries d hd hne
          · rw [List.length_append, List.length_singleton] at hd
            exact hunborn d (by omega)
          · rw [applyAll_concat, hi.lookup_done hpc', lookup_apply_congr htable]
        rwa [List.length_append, List.length_singleton] at hhead
      · exact (hne rfl).elim
    | left => contradiction
  | leave r hpc hr hne =>
    cases hb with
    | head => contradiction
    | @inside s before made rest req hreqs hentries hunborn htable hi =>
      rcases hi.completion_cases hr with ⟨-, he⟩ | ⟨cause, hpc', rfl, -⟩
      · exact (hne he).elim
      · have hentry := hi.noEntry (by rw [hpc']; rfl)
        refine .left (fun d hd => ?_)
          (.failed made req rest cause hreqs hne hunborn fun t => ?_)
        · by_cases hd' : d = c + made.length
          · exact hd' ▸ hentry
          · exact hentries d hd hd'
        · rw [applyAll_concat, hi.lookup_failed hpc', lookup_apply_congr htable]
    | left => contradiction

/-! ## A whole run -/

/-- How far the loop has come; a request takes eleven steps at most. -/
def BatchState.progress (n : ℕ) (b : BatchState κ) : ℕ :=
  match b.pc with
  | .head => 11 * (n - b.todo.length)
  | .inside => 11 * (n - b.todo.length) + (b.shared.calls b.call).pc.stage
  | .left _ => 11 * n + 1

/-- Each step of the thread brings the loop further. -/
theorem BatchInv.progress_step {reqs : List (SubscribeRequest κ)} {b b' : BatchState κ}
    {l : BatchLabel κ} (hb : BatchInv table c reqs b) (h : batchStep b l = some b') :
    b.progress reqs.length + (if l.own then 1 else 0) ≤ b'.progress reqs.length := by
  cases BatchStep.of_eq h with
  | finish hpc htodo => simp [BatchState.progress, hpc, htodo, BatchLabel.own]
  | begin req rest hpc htodo hborn =>
    simp [BatchState.progress, hpc, BatchLabel.own, SubscribePc.stage]
  | recv l s hl hs =>
    simp [BatchState.progress, BatchLabel.own, hl, subscribeStep_calls_of_recv hl hs]
  | call l s hpc hl hs =>
    have := stage_lt_step hl hs
    simp only [BatchState.progress, hpc, BatchLabel.own, hl, Option.isSome_some, if_true]
    omega
  | again hpc hdone =>
    cases hb with
    | head => contradiction
    | @inside s before made rest req hreqs hentries hunborn htable hi =>
      have hlast := ((s.calls (c + made.length)).pc).stage_le
      simp only [BatchState.progress, BatchLabel.own, hreqs, List.length_append, List.length_cons,
        List.tail_cons, if_true]
      omega
    | left => contradiction
  | leave r hpc hr hne =>
    cases hb with
    | head => contradiction
    | @inside s before made rest req hreqs hentries hunborn htable hi =>
      have hlast := ((s.calls (c + made.length)).pc).stage_le
      simp only [BatchState.progress, BatchLabel.own, hreqs, List.length_append, List.length_cons,
        if_true]
      omega
    | left => contradiction

theorem BatchInv.progress_le {reqs : List (SubscribeRequest κ)} {b : BatchState κ}
    (hb : BatchInv table c reqs b) : b.progress reqs.length ≤ 11 * reqs.length + 1 := by
  cases hb with
  | head hreqs =>
    simp only [BatchState.progress, hreqs, List.length_append]
    omega
  | @inside s before made rest req hreqs hentries hunborn htable hi =>
    have hstage := ((s.calls (c + made.length)).pc).stage_le
    simp only [BatchState.progress, hreqs, List.length_append, List.length_cons]
    omega
  | left => exact le_rfl

/-- A loop that has not been left can go on. -/
theorem BatchInv.not_stuck {reqs : List (SubscribeRequest κ)} {b : BatchState κ}
    (hb : BatchInv table c reqs b) (h : ∀ r, b.pc ≠ .left r) :
    ∃ l b', BatchLabel.own l = true ∧ batchStep b l = some b' := by
  cases hb with
  | @head s made todo hreqs hentries hunborn htable =>
    cases todo with
    | nil => exact ⟨.next, _, rfl, rfl⟩
    | cons req rest =>
      have hbegin : subscribeStep s (.begin (c + made.length) req) = some _ :=
        if_pos (hunborn _ le_rfl)
      exact ⟨.next, _, rfl, by simp only [batchStep, hbegin]; rfl⟩
  | @inside s before made rest req hreqs hentries hunborn htable hi =>
    cases hended : (s.calls (c + made.length)).pc.ended with
    | false =>
      obtain ⟨l, s', hl, hs⟩ := hi.not_stuck hended
      exact ⟨.inner l, _, by simp [BatchLabel.own, hl],
        by simp only [batchStep, hl, if_true, hs]; rfl⟩
    | true =>
      obtain ⟨r, hr⟩ := hi.completion_of_ended hended
      rcases hi.completion_cases hr with ⟨-, rfl⟩ | ⟨cause, -, rfl, hne⟩
      · exact ⟨.look, _, rfl, by simp only [batchStep, hr]; rfl⟩
      · refine ⟨.look, ⟨s, c + made.length, req :: rest, .left (req.failure cause)⟩, rfl, ?_⟩
        simp only [batchStep, hr]
  | left => exact (h _ rfl).elim

/-- What is left of a loop over requests with no other call at work. -/
theorem batch_outcome {s₀ : SubscribeState κ} {reqs : List (SubscribeRequest κ)}
    {ls : List (BatchLabel κ)} {b : BatchState κ} (hfresh : ∀ d, c ≤ d → s₀.Fresh d)
    (h : Runs.exec batchStep { shared := s₀, call := c, todo := reqs } ls = some b) :
    ls.countP BatchLabel.own ≤ 11 * reqs.length + 1 ∧ BatchInv s₀.subscriptions c reqs b := by
  have h₀ : BatchInv s₀.subscriptions c reqs { shared := s₀, call := c, todo := reqs } := by
    refine @BatchInv.head _ _ _ _ s₀ [] reqs rfl (fun d hd id => ?_) (fun d hd => ?_) fun t => rfl
    · exact ⟨(hfresh d hd).suback id, (hfresh d hd).unsuback id⟩
    · exact (hfresh d hd).unborn
  have hstep : ∀ b l b', BatchInv s₀.subscriptions c reqs b → batchStep b l = some b' →
      BatchInv s₀.subscriptions c reqs b' := fun _ _ _ hb hs => hb.step hs
  have hb : BatchInv s₀.subscriptions c reqs b := Runs.always h h₀ hstep
  refine ⟨?_, hb⟩
  have hrank : (⟨s₀, c, reqs, .head⟩ : BatchState κ).progress reqs.length +
      ls.countP BatchLabel.own ≤ b.progress reqs.length :=
    Runs.rank_add_countP_le h (Runs.along_of_invariant h₀ hstep) fun _ _ _ hb hs =>
      BatchInv.progress_step hb hs
  exact (Nat.le_add_left _ _).trans (hrank.trans hb.progress_le)

/--
`subscribe` or `unsubscribe` of a vector, with the receive loop but no other request at work. The
call ends after at most eleven steps for each topic and one more, and is not stuck before. Either
it succeeds with every topic, or one request fails and ends it. The topics before that one are in
the table or out of it as asked for, its own is out of it unless a SUBACK timed out, those after
it are as they were, and no acknowledgement is pending.
-/
theorem vector_stops_at_failure (v : VectorRequest κ) (s₀ : SubscribeState κ) (c : ℕ)
    (ls : List (BatchLabel κ)) (b : BatchState κ) (hfresh : ∀ d, c ≤ d → s₀.Fresh d)
    (h : Runs.exec batchStep (v.start s₀ c) ls = some b) :
    ls.countP BatchLabel.own ≤ 11 * v.topics.length + 1 ∧
    ((∀ r, b.pc ≠ .left r) → ∃ l b', BatchLabel.own l = true ∧ batchStep b l = some b') ∧
    ∀ r, b.pc = .left r → (∀ d, c ≤ d → b.shared.NoEntry d) ∧
      (r = .returned (.ok ()) ∧ (∀ t, b.shared.subscriptions.lookup t =
          if t ∈ v.topics then (v.each t).entry else s₀.subscriptions.lookup t) ∨
        ∃ made topic rest cause, v.topics = made ++ topic :: rest ∧
          r = (v.each topic).failure cause ∧ r ≠ .returned (.ok ()) ∧
          (∀ d, c + made.length < d → (b.shared.calls d).pc = .unborn) ∧
          ∀ t, b.shared.subscriptions.lookup t =
            if t = topic ∧ (v.each topic).undoes cause = true then none
            else if t ∈ made ++ [topic] then (v.each t).entry
            else s₀.subscriptions.lookup t) := by
  obtain ⟨hcount, hb⟩ := batch_outcome hfresh h
  rw [List.length_map] at hcount
  refine ⟨hcount, hb.not_stuck, fun r hr => ?_⟩
  cases hb with
  | head => contradiction
  | inside => contradiction
  | left hentries houtcome =>
    obtain rfl := BatchPc.left.inj hr
    refine ⟨hentries, ?_⟩
    cases houtcome with
    | all htable => exact .inl ⟨rfl, fun t => (htable t).trans (v.lookup_applyAll _ t)⟩
    | failed made req rest cause hreqs hne hunborn htable =>
      obtain ⟨made, tail, hsplit, rfl, htail⟩ := List.map_eq_append_iff.mp hreqs
      obtain ⟨topic, rest, rfl, rfl, rfl⟩ := List.map_eq_cons_iff.mp htail
      rw [List.length_map] at hunborn
      refine .inr ⟨made, topic, rest, cause, hsplit, rfl, hne, hunborn, fun t => ?_⟩
      rw [htable, v.topic_each, ← List.map_singleton, ← List.map_append, v.lookup_applyAll]

def BatchPc.isLeft : BatchPc → Bool
  | left _ => true
  | _ => false

/-- Of three topics the broker takes the first and rejects the second. -/
def secondRejected : List (BatchLabel Unit) :=
  .next :: [.table 0, .check 0 true, .fetch 0, .register 0, .send 0 none, .suback [0, 1, 1],
    .get 0].map .inner ++ .look :: .next :: [.table 1, .check 1 true, .fetch 1, .register 1,
    .send 1 none, .suback [0, 2, 0x80], .get 1, .eraseTopic 1].map .inner ++ [.look]

/-- The first topic stands, and the third is never asked for. -/
theorem vector_stops_at_failure_secondRejected :
    ∃ b : BatchState Unit, Runs.exec batchStep
        ((VectorRequest.subscribe [ascii "a", ascii "b", ascii "c"] 1 ()).start
          SubscribeState.initial 0) secondRejected = some b ∧
      b.pc.isLeft = true ∧ (∀ d, b.shared.NoEntry d) ∧
      (b.shared.subscriptions.lookup (ascii "a")).isSome = true ∧
      (b.shared.subscriptions.lookup (ascii "b")).isSome = false ∧
      (b.shared.subscriptions.lookup (ascii "c")).isSome = false := by
  have hrun : (Runs.exec batchStep
      ((VectorRequest.subscribe [ascii "a", ascii "b", ascii "c"] 1 ()).start
        SubscribeState.initial 0) secondRejected).map (fun b => (b.pc.isLeft,
          (b.shared.subscriptions.lookup (ascii "a")).isSome,
          (b.shared.subscriptions.lookup (ascii "b")).isSome,
          (b.shared.subscriptions.lookup (ascii "c")).isSome)) =
      some (true, true, false, false) := by
    decide +kernel
  obtain ⟨b, hb, hv⟩ := Option.map_eq_some_iff.mp hrun
  simp only [Prod.mk.injEq] at hv
  obtain ⟨hleft, htable⟩ := hv
  obtain ⟨-, -, hend⟩ := vector_stops_at_failure _ _ _ _ b (fun d _ => fresh_initial d) hb
  refine ⟨b, hb, hleft, fun d => ?_, htable⟩
  cases hpc : b.pc with
  | head => simp [hpc, BatchPc.isLeft] at hleft
  | inside => simp [hpc, BatchPc.isLeft] at hleft
  | left r => exact (hend r hpc).1 d (Nat.zero_le d)

end MqttNativeSocket
