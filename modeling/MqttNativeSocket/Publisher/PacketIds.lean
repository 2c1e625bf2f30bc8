import MqttNativeSocket.Publisher.Requests

/-! # Packet identifiers in use

`allocPacketId` is a wrapping counter that never looks at `pendingPubacks`. It
gives fresh identifiers as long as no identifier stays in use while the counter
goes around.
-/

namespace MqttNativeSocket

variable {s s' : PublishState} {c c' : ℕ} {id : UInt16}

/-- The points of a call that hold an identifier not settled yet. -/
def PublishPc.holdsId : PublishPc → Bool
  | .register | .spawn | .send | .wait | .erase _ => true
  | _ => false

/--
A request above QoS 0 whose identifier is in use: its call is still at work on it, or its PUBLISH
is unacknowledged on this connection, or it has an entry.
-/
def PublishState.InUse (s : PublishState) (c : ℕ) : Prop :=
  0 < (s.calls c).req.qos ∧
    ((s.calls c).pc.holdsId = true ∨ c ∈ s.outstanding ∨ ∃ id, s.pendingPubacks id = some c)

/-- An identifier in use, or skipped by the same `allocPacketId`, is less than one round old. -/
def FewFetches (s : PublishState) : PublishLabel → Prop
  | .fetch c => ∀ c' f, s.InUse c' ∨ c' = c → (s.calls c').fetchedAt = some f →
      s.fetches < f + 65536
  | _ => True

/--
A PUBACK answers a PUBLISH of this connection that was not acknowledged before, by its
identifier, or its body is too short to hold one.
-/
def HonestBroker (s : PublishState) : PublishLabel → Prop
  | .puback (some c) id => c ∈ s.outstanding ∧ id = (s.calls c).id
  | .puback none id => id = 0
  | _ => True

structure IdsSound (s : PublishState) : Prop where
  /-- `allocPacketId` has never returned 0. -/
  nonzero : ∀ c, (s.calls c).fetchedAt ≠ none → (s.calls c).pc ≠ .refetch → (s.calls c).id ≠ 0
  unique : ∀ c c', s.InUse c → s.InUse c' → (s.calls c).id = (s.calls c').id → c = c'
  unreplaced : s.replaced = false
  /-- A PUBACK only completes the request it answers. -/
  answered : ∀ p ∈ s.completed, p.1 = some p.2

/-! ## The invariant -/

/-- The identifier that fetch number `f` gives. -/
def idOfFetch (f : ℕ) : UInt16 := UInt16.ofNat (f + 1)

theorem idOfFetch_eq_iff {f g : ℕ} : idOfFetch f = idOfFetch g ↔ f % 65536 = g % 65536 := by
  rw [idOfFetch, idOfFetch, UInt16.ofNat_eq_iff_mod_eq_toNat, UInt16.toNat_ofNat']
  omega

theorem idOfFetch_ne {f g : ℕ} (hlt : f < g) (hlt' : g < f + 65536) :
    idOfFetch g ≠ idOfFetch f := by
  rw [Ne, idOfFetch_eq_iff]
  omega

/-- A call that goes on from `k` to `k'` and keeps its identifier. -/
structure PublishCall.Continues (k k' : PublishCall) : Prop where
  req : k'.req = k.req
  id : k'.id = k.id
  fetchedAt : k'.fetchedAt = k.fetchedAt
  stage : k.pc.stage ≤ k'.pc.stage
  refetch : k'.pc = .refetch ↔ k.pc = .refetch
  holdsId : 0 < k.req.qos → k'.pc.holdsId = true → k.pc.holdsId = true

structure IdInv (s : PublishState) : Prop where
  next : s.nextPacketId = idOfFetch s.fetches
  fetched : ∀ c f, (s.calls c).fetchedAt = some f →
    f < s.fetches ∧ (s.calls c).id = idOfFetch f
  zero : ∀ c, (s.calls c).pc = .refetch → (s.calls c).fetchedAt ≠ none ∧ (s.calls c).id = 0
  nonzero : ∀ c, (s.calls c).fetchedAt ≠ none → (s.calls c).pc ≠ .refetch → (s.calls c).id ≠ 0
  owned : ∀ c, s.InUse c → (s.calls c).fetchedAt ≠ none
  sent : ∀ c ∈ s.outstanding, 0 < (s.calls c).req.qos ∧ 6 < (s.calls c).pc.stage
  unique : ∀ c c', s.InUse c → s.InUse c' → (s.calls c).id = (s.calls c').id → c = c'
  unreplaced : s.replaced = false

theorem IdInv.initial : IdInv PublishState.initial where
  next := rfl
  fetched := by simp [PublishState.initial]
  zero := by simp [PublishState.initial]
  nonzero := by simp [PublishState.initial]
  owned := by simp [PublishState.initial, PublishState.InUse, PublishPc.holdsId]
  sent := by simp [PublishState.initial]
  unique := by simp [PublishState.initial, PublishState.InUse, PublishPc.holdsId]
  unreplaced := rfl

theorem PublishPc.ne_refetch_of_stage {pc : PublishPc} (h : 3 < pc.stage) : pc ≠ .refetch := by
  rintro rfl
  simp [stage] at h

/-- A call that comes to its send, or further, holds its identifier until then. -/
theorem PublishCall.Continues.of_holdsId {k k' : PublishCall} {pc pc' : PublishPc}
    (hpc : k.pc = pc) (hpc' : k'.pc = pc') (hreq : k'.req = k.req) (hid : k'.id = k.id)
    (hf : k'.fetchedAt = k.fetchedAt) (hh : pc.holdsId = true) (hstage : pc.stage ≤ pc'.stage) :
    k.Continues k' := by
  subst hpc hpc'
  have hpc : 3 < k.pc.stage := by
    cases h : k.pc <;> simp_all [PublishPc.holdsId, PublishPc.stage]
  exact ⟨hreq, hid, hf, hstage, iff_of_false (PublishPc.ne_refetch_of_stage (hpc.trans_le hstage))
    (PublishPc.ne_refetch_of_stage hpc), fun _ _ => hh⟩

namespace IdInv

/-- Nothing but the map, the acknowledgements and the metrics change, and the first two shrink. -/
theorem shrink (hi : IdInv s) (hcalls : s'.calls = s.calls)
    (hnext : s'.nextPacketId = s.nextPacketId) (hfetches : s'.fetches = s.fetches)
    (hpend : ∀ id c, s'.pendingPubacks id = some c → s.pendingPubacks id = some c)
    (hsent : ∀ c ∈ s'.outstanding, c ∈ s.outstanding) (hrep : s'.replaced = s.replaced) :
    IdInv s' := by
  have huse : ∀ c, s'.InUse c → s.InUse c := by
    rintro c ⟨hq, h⟩
    rw [hcalls] at hq h
    exact ⟨hq, h.imp_right (Or.imp (hsent c) fun ⟨id, hid⟩ => ⟨id, hpend id c hid⟩)⟩
  refine ⟨by rw [hnext, hfetches, hi.next], ?_, ?_, ?_, ?_, ?_, ?_, by rw [hrep, hi.unreplaced]⟩
  · rw [hcalls, hfetches]
    exact hi.fetched
  · rw [hcalls]
    exact hi.zero
  · rw [hcalls]
    exact hi.nonzero
  · rw [hcalls]
    exact fun c h => hi.owned c (huse c h)
  · rw [hcalls]
    exact fun c h => hi.sent c (hsent c h)
  · rw [hcalls]
    exact fun c c' h h' => hi.unique c c' (huse c h) (huse c' h')

/-- A call goes on with its identifier; its PUBLISH may have been sent. -/
theorem continues (hi : IdInv s) {k : PublishCall} {published failed : ℕ} {sent : List ℕ}
    (hk : (s.calls c).Continues k)
    (hsent : ∀ c' ∈ sent, c' ∈ s.outstanding ∨
      c' = c ∧ 0 < k.req.qos ∧ (s.calls c).pc = .send ∧ 6 < k.pc.stage) :
    IdInv { s with
      calls := Function.update s.calls c k
      messagesPublished := published
      publishFailures := failed
      outstanding := sent } := by
  set s' : PublishState := { s with
    calls := Function.update s.calls c k
    messagesPublished := published
    publishFailures := failed
    outstanding := sent } with hs'
  have hself : s'.calls c = k := Function.update_self ..
  have hother : ∀ {c'}, c' ≠ c → s'.calls c' = s.calls c' := fun h => Function.update_of_ne h ..
  have hcall : ∀ c', (s'.calls c').req = (s.calls c').req ∧ (s'.calls c').id = (s.calls c').id ∧
      (s'.calls c').fetchedAt = (s.calls c').fetchedAt ∧
      (s.calls c').pc.stage ≤ (s'.calls c').pc.stage ∧
      ((s'.calls c').pc = .refetch ↔ (s.calls c').pc = .refetch) := by
    intro c'
    by_cases hc : c' = c
    · subst hc
      rw [hself]
      exact ⟨hk.req, hk.id, hk.fetchedAt, hk.stage, hk.refetch⟩
    · simp [hother hc]
  have huse : ∀ c', s'.InUse c' → s.InUse c' := by
    rintro c' ⟨hq, h⟩
    refine ⟨(hcall c').1 ▸ hq, ?_⟩
    rcases h with h | h | h
    · by_cases hc : c' = c
      · subst hc
        rw [hself] at hq h
        exact .inl (hk.holdsId (hk.req ▸ hq) h)
      · exact .inl (hother hc ▸ h)
    · rcases hsent c' h with h | ⟨rfl, -, hpc, -⟩
      · exact .inr (.inl h)
      · exact .inl (by rw [hpc]; rfl)
    · exact .inr (.inr h)
  refine ⟨hi.next, fun c' f h => ?_, fun c' h => ?_, fun c' h h' => ?_, fun c' h => ?_,
    fun c' h => ?_, fun c₁ c₂ h₁ h₂ he => ?_, hi.unreplaced⟩
  · obtain ⟨-, hid', hf', -⟩ := hcall c'
    rw [hid']
    exact hi.fetched c' f (hf' ▸ h)
  · obtain ⟨-, hid', hf', -, href⟩ := hcall c'
    rw [hid', hf']
    exact hi.zero c' (href.mp h)
  · obtain ⟨-, hid', hf', -, href⟩ := hcall c'
    rw [hid']
    exact hi.nonzero c' (hf' ▸ h) fun h => h' (href.mpr h)
  · rw [(hcall c').2.2.1]
    exact hi.owned c' (huse c' h)
  · rcases hsent c' h with h | ⟨rfl, hq, -, hst⟩
    · obtain ⟨hreq', -, -, hst, -⟩ := hcall c'
      rw [hreq']
      obtain ⟨h₁, h₂⟩ := hi.sent c' h
      exact ⟨h₁, h₂.trans_le hst⟩
    · rw [hself]
      exact ⟨hq, hst⟩
  · rw [(hcall c₁).2.1, (hcall c₂).2.1] at he
    exact hi.unique c₁ c₂ (huse c₁ h₁) (huse c₂ h₂) he

/-- A new call replaces one that was never made. -/
theorem begin (hi : IdInv s) (he : EntriesFit s) {k : PublishCall} (hpc : (s.calls c).pc = .unborn)
    (hk : k.pc = .check) (hf : k.fetchedAt = none) : IdInv (s.setCall c k) := by
  have hcase : ∀ c', c' = c ∨ (s.setCall c k).calls c' = s.calls c' := fun c' =>
    or_iff_not_imp_left.mpr fun h => PublishState.setCall_of_ne s c k h
  have hpend := he.not_pending (c := c) (by rw [hpc]; decide)
  have hsent : c ∉ s.outstanding := by
    intro h
    have := (hi.sent c h).2
    rw [hpc] at this
    simp [PublishPc.stage] at this
  have huse : ∀ c', (s.setCall c k).InUse c' →
      s.InUse c' ∧ (s.setCall c k).calls c' = s.calls c' := by
    rintro c' ⟨hq, h⟩
    have hne : c' ≠ c := by
      rintro rfl
      rw [PublishState.setCall_self, hk] at h
      rcases h with hh | hh | ⟨id, hh⟩
      · simp [PublishPc.holdsId] at hh
      · exact hsent hh
      · exact hpend id hh
    have he := PublishState.setCall_of_ne s c k hne
    exact ⟨⟨he ▸ hq, he ▸ h⟩, he⟩
  refine ⟨hi.next, fun c' f h => ?_, fun c' h => ?_, fun c' h h' => ?_, fun c' h => ?_,
    fun c' h => ?_, fun c₁ c₂ h₁ h₂ he => ?_, hi.unreplaced⟩
  · rcases hcase c' with rfl | he
    · simp [hf] at h
    · rw [he] at h ⊢
      exact hi.fetched c' f h
  · rcases hcase c' with rfl | he
    · simp [hk] at h
    · rw [he] at h ⊢
      exact hi.zero c' h
  · rcases hcase c' with rfl | he
    · simp [hf] at h
    · rw [he] at h h' ⊢
      exact hi.nonzero c' h h'
  · rw [(huse c' h).2]
    exact hi.owned c' (huse c' h).1
  · rw [PublishState.setCall_of_ne s c k fun hc => hsent (hc ▸ h)]
    exact hi.sent c' h
  · obtain ⟨hu₁, he₁⟩ := huse c₁ h₁
    obtain ⟨hu₂, he₂⟩ := huse c₂ h₂
    rw [he₁, he₂] at he
    exact hi.unique c₁ c₂ hu₁ hu₂ he

/-- No identifier in use is fetched again. -/
theorem fetched_fresh (hi : IdInv s) (hfew : FewFetches s (.fetch c)) (hu : s.InUse c') :
    (s.calls c').id ≠ s.nextPacketId := by
  obtain ⟨f, hf⟩ := Option.ne_none_iff_exists'.mp (hi.owned c' hu)
  obtain ⟨hlt, hid⟩ := hi.fetched c' f hf
  rw [hid, hi.next]
  exact (idOfFetch_ne hlt (hfew c' f (.inl hu) hf)).symm

/-- The second `fetch_add` of `allocPacketId` does not give 0 again. -/
theorem refetch_ne_zero (hi : IdInv s) (hfew : FewFetches s (.fetch c))
    (hpc : (s.calls c).pc = .refetch) : s.nextPacketId ≠ 0 := by
  obtain ⟨hsome, hzero⟩ := hi.zero c hpc
  obtain ⟨f, hf⟩ := Option.ne_none_iff_exists'.mp hsome
  obtain ⟨hlt, hid⟩ := hi.fetched c f hf
  rw [← hzero, hid, hi.next]
  exact idOfFetch_ne hlt (hfew c f (.inr rfl) hf)

theorem fetch (hi : IdInv s) {next : UInt16 → PublishPc} (hfew : FewFetches s (.fetch c))
    (hstage : (s.calls c).pc.stage ≤ 3)
    (hzero : s.nextPacketId = 0 ↔ next s.nextPacketId = .refetch) :
    IdInv (s.fetch c next) := by
  have hcase : ∀ c', c' = c ∨ (s.fetch c next).calls c' = s.calls c' := fun c' =>
    or_iff_not_imp_left.mpr fun h => PublishState.setCall_of_ne s c _ h
  have hself : (s.fetch c next).calls c = { s.calls c with
      id := s.nextPacketId, fetchedAt := some s.fetches, pc := next s.nextPacketId } :=
    PublishState.setCall_self ..
  have hsent : c ∉ s.outstanding := fun h => by
    have := (hi.sent c h).2
    omega
  have huse : ∀ c', c' ≠ c → (s.fetch c next).InUse c' →
      s.InUse c' ∧ (s.fetch c next).calls c' = s.calls c' := by
    rintro c' hne ⟨hq, h⟩
    have he := (hcase c').resolve_left hne
    exact ⟨⟨he ▸ hq, he ▸ h⟩, he⟩
  refine ⟨?_, fun c' f h => ?_, fun c' h => ?_, fun c' h h' => ?_, fun c' h => ?_,
    fun c' h => ?_, fun c₁ c₂ h₁ h₂ he => ?_, hi.unreplaced⟩
  · show s.nextPacketId + 1 = idOfFetch (s.fetches + 1)
    rw [hi.next, idOfFetch, idOfFetch, UInt16.ofNat_add (s.fetches + 1) 1]
    rfl
  · show f < s.fetches + 1 ∧ _
    rcases hcase c' with rfl | he
    · rw [hself] at h ⊢
      obtain rfl : s.fetches = f := Option.some.inj h
      exact ⟨Nat.lt_succ_self _, hi.next⟩
    · rw [he] at h ⊢
      exact ⟨(hi.fetched c' f h).1.trans (Nat.lt_succ_self _), (hi.fetched c' f h).2⟩
  · rcases hcase c' with rfl | he
    · rw [hself] at h ⊢
      exact ⟨Option.some_ne_none _, hzero.mpr h⟩
    · rw [he] at h ⊢
      exact hi.zero c' h
  · rcases hcase c' with rfl | he
    · rw [hself] at h' ⊢
      exact fun h₀ => h' (hzero.mp h₀)
    · rw [he] at h h' ⊢
      exact hi.nonzero c' h h'
  · by_cases hc : c' = c
    · rw [hc, hself]
      exact Option.some_ne_none _
    · rw [(huse c' hc h).2]
      exact hi.owned c' (huse c' hc h).1
  · rw [(hcase c').resolve_left fun hc => hsent (hc ▸ h)]
    exact hi.sent c' h
  · by_cases hc₁ : c₁ = c
    · by_cases hc₂ : c₂ = c
      · rw [hc₁, hc₂]
      · obtain ⟨hu₂, he₂⟩ := huse c₂ hc₂ h₂
        rw [hc₁, hself, he₂] at he
        exact (hi.fetched_fresh hfew hu₂ he.symm).elim
    · obtain ⟨hu₁, he₁⟩ := huse c₁ hc₁ h₁
      by_cases hc₂ : c₂ = c
      · rw [hc₂, hself, he₁] at he
        exact (hi.fetched_fresh hfew hu₁ he).elim
      · obtain ⟨hu₂, he₂⟩ := huse c₂ hc₂ h₂
        rw [he₁, he₂] at he
        exact hi.unique c₁ c₂ hu₁ hu₂ he

/-- The entry that a registration would replace belongs to a request with the same identifier. -/
theorem register_free (hi : IdInv s) (he : EntriesFit s) (hq : 0 < (s.calls c).req.qos)
    (hpc : (s.calls c).pc = .register) : s.pendingPubacks (s.calls c).id = none := by
  by_contra h
  obtain ⟨o, ho⟩ := Option.ne_none_iff_exists'.mp h
  obtain ⟨hid, htracked, -⟩ := he _ o ho
  have hu : s.InUse c := ⟨hq, .inl (by rw [hpc]; rfl)⟩
  have huo : s.InUse o := ⟨PublishRequest.qos_pos htracked, .inr (.inr ⟨_, ho⟩)⟩
  obtain rfl := hi.unique o c huo hu hid
  exact he.not_pending (by rw [hpc]; decide) _ ho

theorem register (hi : IdInv s) (he : EntriesFit s) {k : PublishCall}
    (hq : 0 < (s.calls c).req.qos) (hpc : (s.calls c).pc = .register)
    (hreq : k.req = (s.calls c).req) (hid : k.id = (s.calls c).id)
    (hf : k.fetchedAt = (s.calls c).fetchedAt) (hstage : 4 < k.pc.stage) :
    IdInv ((s.register c).setCall c k) := by
  have hk : k.pc ≠ .refetch := PublishPc.ne_refetch_of_stage (by omega)
  have hu : s.InUse c := ⟨hq, .inl (by rw [hpc]; rfl)⟩
  have hi' : IdInv (s.setCall c k) :=
    hi.continues ⟨hreq, hid, hf, by rw [hpc]; exact hstage.le, iff_of_false hk (by simp [hpc]),
      fun _ _ => by rw [hpc]; rfl⟩ fun _ h => .inl h
  have hids : ∀ c', ((s.setCall c k).calls c').id = (s.calls c').id := by
    intro c'
    by_cases hc : c' = c
    · rw [hc, PublishState.setCall_self, hid]
    · rw [PublishState.setCall_of_ne s c k hc]
  -- the new entry puts no other identifier in use
  have huse : ∀ c', ((s.register c).setCall c k).InUse c' → s.InUse c' := by
    rintro c' ⟨hq', h⟩
    by_cases hc : c' = c
    · exact hc ▸ hu
    · rw [PublishState.setCall_of_ne _ c k hc] at hq' h
      refine ⟨hq', h.imp_right (Or.imp_right ?_)⟩
      rintro ⟨id, hid⟩
      exact ⟨id, (Pending.of_put hid).resolve_left fun h => hc h.2⟩
  refine ⟨hi'.next, hi'.fetched, hi'.zero, hi'.nonzero, fun c' h => ?_, hi'.sent,
    fun c₁ c₂ h₁ h₂ he => ?_, ?_⟩
  · show ((s.setCall c k).calls c').fetchedAt ≠ none
    by_cases hc : c' = c
    · rw [hc, PublishState.setCall_self, hf]
      exact hi.owned c hu
    · rw [PublishState.setCall_of_ne _ c k hc]
      exact hi.owned c' (huse c' h)
  · exact hi.unique c₁ c₂ (huse c₁ h₁) (huse c₂ h₂)
      ((hids c₁).symm.trans (he.trans (hids c₂)))
  · show (s.replaced || (s.pendingPubacks (s.calls c).id).isSome) = false
    rw [hi.register_free he hq hpc, hi.unreplaced]
    rfl

/-- Most steps move one call on. -/
theorem advance (hi : IdInv s) {k : PublishCall} {pc : PublishPc}
    (hk : (s.calls c).Continues { k with pc := pc }) : IdInv (s.advance c k pc) :=
  hi.continues hk fun _ h => .inl h

theorem step (hi : IdInv s) (hfit : CallsFit s) (he : EntriesFit s) {offlineBuffering : Bool}
    {l : PublishLabel} (hfew : FewFetches s l)
    (h : publishStep offlineBuffering s l = some s') : IdInv s' := by
  cases PublishStep.of_eq h with
  | begin c req hpc => exact hi.begin he hpc rfl rfl
  | check c connected hpc =>
    refine hi.continues ⟨rfl, rfl, rfl, ?_, ?_, fun hq hh => ?_⟩ fun _ h => .inl h
    all_goals
      rcases (s.calls c).req.afterCheck_cases offlineBuffering connected with
        ⟨h, -⟩ | ⟨h, ha⟩ | h
    -- without `allocPacketId`, only a PUBLISH at QoS 0 is sent
    all_goals simp_all [PublishPc.stage, PublishPc.holdsId, PublishRequest.allocates]
  | fetch c hpc =>
    refine hi.fetch hfew (by rw [hpc]; decide) ?_
    by_cases hz : s.nextPacketId = 0
    · simp [hz]
    · rcases (s.calls c).req.afterAlloc_cases with ⟨h, -⟩ | ⟨h, -⟩ <;> simp [hz, h]
  | refetch c hpc =>
    refine hi.fetch hfew (by rw [hpc]; decide) (iff_of_false (hi.refetch_ne_zero hfew hpc) ?_)
    rcases (s.calls c).req.afterAlloc_cases with ⟨h, -⟩ | ⟨h, -⟩ <;> simp [h]
  | register c hpc =>
    have htracked := hfit c
    rw [hpc] at htracked
    refine hi.register he (PublishRequest.qos_pos htracked) hpc rfl rfl rfl ?_
    dsimp only
    split <;> decide
  | spawn c stays hpc =>
    exact hi.continues (.of_holdsId hpc rfl rfl rfl rfl rfl (by simp [PublishPc.stage]))
      fun _ h => .inl h
  | send c ok hpc =>
    have hstage := (s.calls c).req.stage_afterSend ok
    refine hi.continues (k := { s.calls c with pc := (s.calls c).req.afterSend ok })
      (.of_holdsId hpc rfl rfl rfl rfl rfl (by rw [hstage]; decide)) fun c' hc' => ?_
    split at hc'
    · next hsent =>
      rw [Bool.and_eq_true, decide_eq_true_eq] at hsent
      refine (List.mem_cons.mp hc').symm.imp_right fun hc => ⟨hc, hsent.2, hpc, ?_⟩
      rw [hstage]
      decide
    · exact .inl hc'
  | erase c ec hpc =>
    have hi' : IdInv (s.eraseEntry (s.calls c).id) :=
      hi.shrink rfl rfl rfl (fun _ _ => Pending.of_remove) (fun _ h => h) rfl
    exact hi'.advance (.of_holdsId hpc rfl rfl rfl rfl rfl le_rfl)
  | report c hpc =>
    refine hi.advance ⟨rfl, rfl, rfl, ?_, by simp [hpc], fun _ hh => ?_⟩
    · rw [hpc]
      exact le_rfl
    · simp [PublishPc.holdsId] at hh
  | timeout c hpc hp => exact hi.advance (.of_holdsId hpc rfl rfl rfl rfl rfl le_rfl)
  | get c r hpc hget =>
    cases r <;> exact hi.advance (.of_holdsId hpc rfl rfl rfl rfl rfl le_rfl)
  | deliver c r hthread hget =>
    exact hi.continues ⟨rfl, rfl, rfl, le_rfl, Iff.rfl, fun _ hh => hh⟩ fun _ h => .inl h
  | puback answered id =>
    exact hi.shrink rfl rfl rfl (fun _ _ => Pending.of_remove)
      (fun _ h => (List.mem_filter.mp h).1) rfl
  | loseConnection => exact hi.shrink rfl rfl rfl (fun _ _ h => h) (by simp) rfl
  | failAllPending =>
    exact hi.shrink rfl rfl rfl (by simp [PublishState.failAllPending]) (fun _ h => h) rfl

end IdInv

/-! ## Runs -/

theorem publishStep_completed {offlineBuffering : Bool} {l : PublishLabel}
    (h : publishStep offlineBuffering s l = some s') :
    s'.completed = s.completed ∨
      ∃ answered id, l = .puback answered id ∧ s' = s.handlePuback answered id := by
  cases PublishStep.of_eq h with
  | puback answered id => exact .inr ⟨answered, id, rfl, rfl⟩
  | _ => exact .inl rfl

/-- An honest PUBACK completes its own request or none. -/
theorem IdInv.puback_answered (hi : IdInv s) (he : EntriesFit s) {answered : Option ℕ}
    (hid : s.pendingPubacks id = some c) (hb : HonestBroker s (.puback answered id)) :
    answered = some c := by
  obtain ⟨hown, htracked, hstage, -⟩ := he id c hid
  have hu : s.InUse c := ⟨PublishRequest.qos_pos htracked, .inr (.inr ⟨id, hid⟩)⟩
  cases answered with
  | none =>
    refine (hi.nonzero c (hi.owned c hu) (PublishPc.ne_refetch_of_stage (by omega)) ?_).elim
    rw [hown]
    exact hb
  | some c' =>
    obtain ⟨hsent, hid'⟩ := hb
    have hu' : s.InUse c' := ⟨(hi.sent c' hsent).1, .inr (.inl hsent)⟩
    rw [hi.unique c' c hu' hu (hid'.symm.trans hown.symm)]

/-- What holds in every state of a run whose identifiers are never a round old. -/
structure PublishInv (s : PublishState) : Prop where
  ids : IdInv s
  fit : CallsFit s
  entries : EntriesFit s

theorem PublishInv.initial : PublishInv PublishState.initial := ⟨.initial, .initial, .initial⟩

theorem PublishInv.step (hi : PublishInv s) {offlineBuffering : Bool} {l : PublishLabel}
    (hfew : FewFetches s l) (h : publishStep offlineBuffering s l = some s') : PublishInv s' :=
  ⟨hi.ids.step hi.fit hi.entries hfew h, hi.fit.step h, hi.entries.step hi.fit h⟩

/--
While every identifier in use is less than one round of the counter old, `allocPacketId` gives no
identifier twice that is in use, and no 0; no entry is replaced, and the PUBACKs of a broker that
answers PUBLISHes complete the requests they answer.
-/
theorem packetIds_sound (offlineBuffering : Bool) (ls : List PublishLabel) (s : PublishState)
    (hc : Runs.Along (publishStep offlineBuffering) (fun s l => FewFetches s l ∧ HonestBroker s l)
      PublishState.initial ls)
    (h : Runs.exec (publishStep offlineBuffering) PublishState.initial ls = some s) :
    IdsSound s ∧ ∀ c s', FewFetches s (.fetch c) →
      publishStep offlineBuffering s (.fetch c) = some s' → (s'.calls c).pc ≠ .refetch →
      (s'.calls c).id ≠ 0 ∧ ∀ c', s.InUse c' → (s'.calls c).id ≠ (s.calls c').id := by
  obtain ⟨hi, hcompleted⟩ : PublishInv s ∧ ∀ p ∈ s.completed, p.1 = some p.2 := by
    refine Runs.invariant (I := fun s => PublishInv s ∧ ∀ p ∈ s.completed, p.1 = some p.2)
      h hc ⟨.initial, by simp [PublishState.initial]⟩ ?_
    rintro s l s' ⟨hi, hcompleted⟩ ⟨hfew, hbroker⟩ hs
    refine ⟨hi.step hfew hs, ?_⟩
    rcases publishStep_completed hs with he | ⟨answered, id, rfl, rfl⟩
    · rwa [he]
    · intro p hp
      rcases List.mem_append.mp hp with hp | hp
      · exact hcompleted p hp
      · obtain ⟨c, hid, rfl⟩ := List.mem_map.mp hp
        exact hi.ids.puback_answered hi.entries (Option.mem_toList.mp hid) hbroker
  refine ⟨⟨hi.ids.nonzero, hi.ids.unique, hi.ids.unreplaced, hcompleted⟩, ?_⟩
  intro c s' hfew hs hpc
  have hi' := hi.step hfew hs
  have hid : (s'.calls c).id = s.nextPacketId ∧ (s'.calls c).fetchedAt ≠ none := by
    cases PublishStep.of_eq hs <;> simp [PublishState.fetch]
  refine ⟨hi'.ids.nonzero c hid.2 hpc, fun c' hu => ?_⟩
  rw [hid.1]
  exact (hi.ids.fetched_fresh hfew hu).symm

/-- A call of `publish` at QoS 1 up to its send. -/
def sentPublish (c : ℕ) : List PublishLabel :=
  [.begin c { sync := true, msgQos := 1 }, .check c true, .fetch c, .register c, .send c true]

/-- Two calls wait at once, and are acknowledged in the other order. -/
def acknowledgedPublish : List PublishLabel :=
  sentPublish 0 ++ sentPublish 1 ++
    [.puback (some 1) 2, .puback (some 0) 1, .get 0, .get 1]

/-- A computable form of the conditions for the first round of the counter. -/
def firstRound (s : PublishState) : PublishLabel → Bool
  | .fetch _ => decide (s.fetches < 65536)
  | .puback (some c) id => decide (c ∈ s.outstanding) && decide (id = (s.calls c).id)
  | .puback none id => decide (id = 0)
  | _ => true

theorem conditions_of_firstRound (s : PublishState) (l : PublishLabel) (h : firstRound s l = true) :
    FewFetches s l ∧ HonestBroker s l := by
  cases l with
  | fetch c =>
    rw [firstRound, decide_eq_true_eq] at h
    exact ⟨fun c' f _ _ => by omega, trivial⟩
  | puback answered id =>
    refine ⟨trivial, ?_⟩
    cases answered with
    | none => simpa [firstRound, HonestBroker] using h
    | some c => simpa [firstRound, HonestBroker] using h
  | _ => exact ⟨trivial, trivial⟩

/-- Each PUBACK of that run completes the request that it answers. -/
theorem packetIds_sound_acknowledgedPublish :
    ∃ s, Runs.exec (publishStep false) PublishState.initial acknowledgedPublish = some s ∧
      s.completed = [(some 1, 1), (some 0, 0)] ∧ (s.calls 0).pc = .done .ok ∧
      (s.calls 1).pc = .done .ok ∧ IdsSound s := by
  have hrun : (Runs.exec (publishStep false) PublishState.initial acknowledgedPublish).map
      (fun s => (s.completed, (s.calls 0).pc, (s.calls 1).pc)) =
        some ([(some 1, 1), (some 0, 0)], .done .ok, .done .ok) := by
    decide +kernel
  obtain ⟨s, hs, hv⟩ := Option.map_eq_some_iff.mp hrun
  simp only [Prod.mk.injEq] at hv
  refine ⟨s, hs, hv.1, hv.2.1, hv.2.2, (packetIds_sound false acknowledgedPublish s ?_ hs).1⟩
  exact Runs.along_of_check (I := fun _ => True) (c := firstRound) (by decide +kernel) trivial
    (fun s l _ h => conditions_of_firstRound s l h) fun _ _ _ _ _ _ => trivial

/-! ## A full round -/

/-- A `publishAsync` at QoS 0 takes an identifier all the same. -/
def quietPublish (c : ℕ) : List PublishLabel :=
  [.begin c { sync := false, msgQos := 0 }, .check c true, .fetch c, .send c true]

theorem exec_quietPublish (offlineBuffering : Bool) (hpc : (s.calls c).pc = .unborn)
    (hn : s.nextPacketId ≠ 0) :
    ∃ s', Runs.exec (publishStep offlineBuffering) s (quietPublish c) = some s' ∧
      s'.nextPacketId = s.nextPacketId + 1 ∧ s'.pendingPubacks = s.pendingPubacks := by
  simp [quietPublish, Runs.exec, publishStep, hpc, hn, PublishRequest.afterCheck,
    PublishRequest.allocates, PublishRequest.afterAlloc, PublishRequest.tracked,
    PublishRequest.qos, PublishRequest.afterSend, PublishState.fetch, PublishState.advance,
    PublishState.setCall]

theorem exec_quietPublishes (offlineBuffering : Bool) (n : ℕ) :
    ∀ (s : PublishState) (k m : ℕ), s.nextPacketId = UInt16.ofNat m → 0 < m → m + n ≤ 65536 →
      (∀ c ≥ k, (s.calls c).pc = .unborn) →
      ∃ s', Runs.exec (publishStep offlineBuffering) s
          ((List.range' k n).flatMap quietPublish) = some s' ∧
        s'.nextPacketId = UInt16.ofNat (m + n) ∧ s'.pendingPubacks = s.pendingPubacks ∧
        ∀ c ≥ k + n, (s'.calls c).pc = .unborn := by
  induction n with
  | zero => exact fun s k m hm _ _ hborn => ⟨s, rfl, hm, rfl, hborn⟩
  | succ n ih =>
    intro s k m hm hpos hle hborn
    have hn : s.nextPacketId ≠ 0 := by
      rw [hm, Ne, UInt16.ofNat_eq_iff_mod_eq_toNat, UInt16.toNat_zero]
      omega
    obtain ⟨t, ht, hnext, hpend⟩ :=
      exec_quietPublish offlineBuffering (hborn k le_rfl) hn
    have hnext' : t.nextPacketId = UInt16.ofNat (m + 1) := by
      rw [hnext, hm, UInt16.ofNat_add]
      rfl
    have hborn' : ∀ c ≥ k + 1, (t.calls c).pc = .unborn := by
      intro c hc
      have hne : k ≠ c := by omega
      rw [exec_calls_of_ne (by simp [quietPublish, PublishLabel.call, hne]) ht]
      exact hborn c (by omega)
    obtain ⟨s', hs', hnext'', hpend', hborn''⟩ :=
      ih t (k + 1) (m + 1) hnext' (by omega) (by omega) hborn'
    refine ⟨s', ?_, by rw [hnext'', Nat.add_right_comm, Nat.add_assoc], hpend'.trans hpend,
      fun c hc => hborn'' c (by omega)⟩
    rw [List.range'_succ, List.flatMap_cons, Runs.exec_append, ht]
    exact hs'

/-- Call `c` asks for an acknowledgement by a callback. -/
def trackedPublish (c : ℕ) : List PublishLabel :=
  [.begin c { sync := false, msgQos := 1, callback := true }, .check c true, .fetch c]

/-- Call 0 goes on to wait for its PUBACK. -/
def firstPublish : List PublishLabel :=
  trackedPublish 0 ++ [.register 0, .spawn 0 false, .send 0 true]

/-- The counter goes around with 65534 calls at QoS 0, and call 65535 skips the zero. -/
def fullRound : List PublishLabel :=
  firstPublish ++ ((List.range' 1 65534).flatMap quietPublish ++
    (trackedPublish 65535 ++ [.fetch 65535, .register 65535]))

theorem exec_lastPublish (offlineBuffering : Bool) (hpc : (s.calls c).pc = .unborn)
    (hn : s.nextPacketId = 0) (hp : (s.pendingPubacks 1).isSome = true) :
    ∃ s', Runs.exec (publishStep offlineBuffering) s
        (trackedPublish c ++ [.fetch c, .register c]) = some s' ∧ s'.replaced = true := by
  simp [trackedPublish, Runs.exec, publishStep, hpc, hn, hp, PublishRequest.afterCheck,
    PublishRequest.allocates, PublishRequest.afterAlloc, PublishRequest.tracked,
    PublishRequest.qos, PublishState.fetch, PublishState.register, PublishState.setCall]

theorem exec_firstPublish :
    ∃ s, Runs.exec (publishStep false) PublishState.initial firstPublish = some s ∧
      s.nextPacketId = 2 ∧ s.pendingPubacks 1 = some 0 ∧ ∀ c ≥ 1, (s.calls c).pc = .unborn := by
  have hrun : (Runs.exec (publishStep false) PublishState.initial firstPublish).map
      (fun s => (s.nextPacketId, s.pendingPubacks 1)) = some (2, some 0) := by
    decide +kernel
  obtain ⟨s, hs, hv⟩ := Option.map_eq_some_iff.mp hrun
  simp only [Prod.mk.injEq] at hv
  refine ⟨s, hs, hv.1, hv.2, fun c hc => ?_⟩
  have hne : 0 ≠ c := by omega
  rw [exec_calls_of_ne (by simp [firstPublish, trackedPublish, PublishLabel.call, hne]) hs]
  rfl

theorem honest_fullRound : ∀ l ∈ fullRound, ∀ s, HonestBroker s l := by
  intro l h s
  cases l with
  | puback answered id =>
    simp [fullRound, firstPublish, trackedPublish, quietPublish] at h
  | _ => trivial

/-- The identifier of call 0 is given to call 65535, whose registration replaces the entry. -/
theorem packetId_reused :
    ∃ ls s, Runs.exec (publishStep false) PublishState.initial ls = some s ∧
      Runs.Along (publishStep false) HonestBroker PublishState.initial ls ∧ ¬ IdsSound s := by
  obtain ⟨s₁, hs₁, hnext₁, hpend₁, hborn₁⟩ := exec_firstPublish
  obtain ⟨s₂, hs₂, hnext₂, hpend₂, hborn₂⟩ := exec_quietPublishes false
    65534 s₁ 1 2 hnext₁ (by decide) (by decide) hborn₁
  obtain ⟨s₃, hs₃, hreplaced⟩ := exec_lastPublish false
    (hborn₂ 65535 (by decide)) (hnext₂.trans (by decide)) (by rw [hpend₂, hpend₁]; rfl)
  refine ⟨fullRound, s₃, ?_, ?_, fun h => ?_⟩
  · rw [fullRound, Runs.exec_append, hs₁, Option.bind_some, Runs.exec_append, hs₂,
      Option.bind_some, hs₃]
  · exact Runs.along_of_forall honest_fullRound
  · rw [h.unreplaced] at hreplaced
    contradiction

end MqttNativeSocket
