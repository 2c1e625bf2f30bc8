import MqttNativeSocket.Publisher.Acknowledgement

/-! # Identifiers of the calls under way

As long as fewer than 65535 identifiers are allocated during any one call, no two
calls under way have the same one. `allocPacketId` skips 0, so a call sees at most
65535 fetches for 65534 identifiers.
-/

namespace MqttNativeSocket

variable {s s' : AckState} {c c' : ℕ}

/-- How many of the first `n` fetches give a nonzero value. -/
def idsOf (n : ℕ) : ℕ := n - n / 65536

/-- Fewer than 65535 identifiers are allocated during any one call. -/
def FewIds (s : AckState) : AckLabel → Prop
  | .fetch c => ((s.calls c).pc = .fetch → s.nextPacketId ≠ 0) →
      ∀ c', (s.calls c').pc.running = true → s.allocated + 1 < (s.calls c').begunAt + 65535
  | _ => True

structure Allocation (s : AckState) : Prop where
  next : s.nextPacketId = idOfFetch s.fetches
  fetched : ∀ c f, (s.calls c).fetchedAt = some f →
    f < s.fetches ∧ (s.calls c).id = idOfFetch f ∧ (s.calls c).begunFetches ≤ f
  distinct : ∀ c c' f, (s.calls c).fetchedAt = some f → (s.calls c').fetchedAt = some f → c = c'
  begun : ∀ c, (s.calls c).pc.running = true →
    (s.calls c).begunFetches ≤ s.fetches ∧ s.allocated < (s.calls c).begunAt + 65535 ∧
      idsOf s.fetches + (s.calls c).begunAt ≤ s.allocated + idsOf (s.calls c).begunFetches

theorem idOfFetch_eq_zero_iff {f : ℕ} : idOfFetch f = 0 ↔ f % 65536 = 65535 := by
  have hz : (0 : UInt16) = idOfFetch 65535 := by decide
  rw [hz, idOfFetch_eq_iff]

theorem Allocation.few_fetches (hs : Allocation s) (hc : (s.calls c).pc.running = true) :
    s.fetches < (s.calls c).begunFetches + 65536 := by
  obtain ⟨-, hfew, hids⟩ := hs.begun c hc
  rw [idsOf, idsOf] at hids
  omega

/-- Calls under way have different identifiers. -/
theorem Allocation.unique (hs : Allocation s) (hc : (s.calls c).pc.running = true)
    (hc' : (s.calls c').pc.running = true) (hf : (s.calls c).fetchedAt ≠ none)
    (hf' : (s.calls c').fetchedAt ≠ none) (hid : (s.calls c).id = (s.calls c').id) : c = c' := by
  obtain ⟨f, hf⟩ := Option.ne_none_iff_exists'.mp hf
  obtain ⟨f', hf'⟩ := Option.ne_none_iff_exists'.mp hf'
  obtain ⟨hlt, hidf, hge⟩ := hs.fetched c f hf
  obtain ⟨hlt', hidf', hge'⟩ := hs.fetched c' f' hf'
  have hfew := hs.few_fetches hc
  have hfew' := hs.few_fetches hc'
  rw [hidf, hidf'] at hid
  rcases lt_trichotomy f f' with h | rfl | h
  · exact absurd hid.symm (idOfFetch_ne h (by omega))
  · exact hs.distinct c c' f hf hf'
  · exact absurd hid (idOfFetch_ne h (by omega))

/-- Only the points of the calls change, and none comes under way that was not. -/
theorem Allocation.frame (hs : Allocation s) (hnext : s'.nextPacketId = s.nextPacketId)
    (hfetches : s'.fetches = s.fetches) (halloc : s'.allocated = s.allocated)
    (hcalls : ∀ c, s'.calls c = { s.calls c with pc := (s'.calls c).pc })
    (hrun : ∀ c, (s'.calls c).pc.running = true → (s.calls c).pc.running = true) :
    Allocation s' := by
  have hf : ∀ c, (s'.calls c).fetchedAt = (s.calls c).fetchedAt := fun c => by rw [hcalls c]
  have hid : ∀ c, (s'.calls c).id = (s.calls c).id := fun c => by rw [hcalls c]
  have hb : ∀ c, (s'.calls c).begunFetches = (s.calls c).begunFetches := fun c => by rw [hcalls c]
  have ha : ∀ c, (s'.calls c).begunAt = (s.calls c).begunAt := fun c => by rw [hcalls c]
  constructor
  · rw [hnext, hfetches, hs.next]
  · intro c f hcf
    rw [hf] at hcf
    rw [hfetches, hid, hb]
    exact hs.fetched c f hcf
  · intro c c' f hcf hcf'
    rw [hf] at hcf hcf'
    exact hs.distinct c c' f hcf hcf'
  · intro c hc
    rw [hfetches, halloc, ha, hb]
    exact hs.begun c (hrun c hc)

theorem Allocation.setPc (hs : Allocation s) {pc : SyncPc}
    (hrun : pc.running = true → (s.calls c).pc.running = true) : Allocation (s.setPc c pc) := by
  refine hs.frame rfl rfl rfl (fun c' => ?_) fun c' hc' => ?_
  · by_cases hc : c' = c
    · subst hc; simp [AckState.setPc]
    · simp [AckState.setPc, Function.update_of_ne hc]
  · by_cases hc : c' = c
    · subst hc
      exact hrun (by simpa [AckState.setPc] using hc')
    · simpa [AckState.setPc, Function.update_of_ne hc] using hc'

theorem Allocation.begin (hs : Allocation s) {qos : ℤ} (hpc : (s.calls c).pc = .unborn) :
    Allocation (s.begin c qos) := by
  have hself : (s.begin c qos).calls c =
      { qos := qos, pc := .check, begunAt := s.allocated, begunFetches := s.fetches } :=
    Function.update_self ..
  have hother : ∀ c', c' ≠ c → (s.begin c qos).calls c' = s.calls c' := fun c' hc =>
    Function.update_of_ne hc ..
  constructor
  · exact hs.next
  · intro c' f hf
    by_cases hc : c' = c
    · subst hc
      simp [hself] at hf
    · rw [hother c' hc] at hf ⊢
      exact hs.fetched c' f hf
  · intro c₁ c₂ f h₁ h₂
    have hne : ∀ c', ((s.begin c qos).calls c').fetchedAt = some f → c' ≠ c := by
      rintro c' hf rfl
      simp [hself] at hf
    rw [hother c₁ (hne c₁ h₁)] at h₁
    rw [hother c₂ (hne c₂ h₂)] at h₂
    exact hs.distinct c₁ c₂ f h₁ h₂
  · intro c' hrun
    by_cases hc : c' = c
    · subst hc
      rw [hself]
      exact ⟨le_rfl, by simp [AckState.begin], by simp [AckState.begin, Nat.add_comm]⟩
    · rw [hother c' hc] at hrun ⊢
      exact hs.begun c' hrun

/-- A fetch with a nonzero value is the last of its allocation. -/
theorem Allocation.fetch (hs : Allocation s) {final : Bool} (hfew : FewIds s (.fetch c))
    (hpc : (s.calls c).pc = .fetch ∧ final = decide (s.nextPacketId ≠ 0) ∨
      (s.calls c).pc = .refetch ∧ final = true) : Allocation (s.fetch c final) := by
  have hself : (s.fetch c final).calls c = { s.calls c with
      id := s.nextPacketId
      fetchedAt := some s.fetches
      pc := if final then .registerLock else .refetch } := Function.update_self ..
  have hother : ∀ c', c' ≠ c → (s.fetch c final).calls c' = s.calls c' := fun c' hc =>
    Function.update_of_ne hc ..
  have hrunning : (s.calls c).pc.running = true := by
    rcases hpc with ⟨h, -⟩ | ⟨h, -⟩ <;> rw [h] <;> rfl
  -- what a call under way has seen of the counters
  have hbegun : ∀ c', (s.calls c').pc.running = true →
      (s.calls c').begunFetches ≤ s.fetches + 1 ∧
        (s.fetch c final).allocated < (s.calls c').begunAt + 65535 ∧
        idsOf (s.fetches + 1) + (s.calls c').begunAt ≤
          (s.fetch c final).allocated + idsOf (s.calls c').begunFetches := by
    intro c' hrun
    obtain ⟨hle, halloc, hids⟩ := hs.begun c' hrun
    cases final with
    | true =>
      have hlt := hfew (fun h => by
        rcases hpc with ⟨-, hnz⟩ | ⟨h', -⟩
        · simpa using hnz.symm
        · simp [h] at h') c' hrun
      refine ⟨by omega, hlt, ?_⟩
      change idsOf (s.fetches + 1) + _ ≤ s.allocated + 1 + _
      unfold idsOf at *
      omega
    | false =>
      have hzero : s.fetches % 65536 = 65535 := by
        rcases hpc with ⟨-, hz⟩ | ⟨-, h⟩
        · rw [← idOfFetch_eq_zero_iff, ← hs.next]
          simpa using hz.symm
        · simp at h
      refine ⟨by omega, halloc, ?_⟩
      change idsOf (s.fetches + 1) + _ ≤ s.allocated + _
      unfold idsOf at *
      omega
  constructor
  · change s.nextPacketId + 1 = idOfFetch (s.fetches + 1)
    rw [hs.next]
    exact (UInt16.ofNat_add (s.fetches + 1) 1).symm
  · intro c' f hf
    by_cases hc : c' = c
    · subst hc
      rw [hself] at hf ⊢
      obtain rfl := Option.some.inj hf
      exact ⟨Nat.lt_succ_self _, hs.next, (hs.begun c' hrunning).1⟩
    · rw [hother c' hc] at hf ⊢
      obtain ⟨hlt, hid, hge⟩ := hs.fetched c' f hf
      exact ⟨Nat.lt_succ_of_lt hlt, hid, hge⟩
  · have hnew : ∀ c₁ c₂ f, c₁ = c → c₂ ≠ c → ((s.fetch c final).calls c₁).fetchedAt = some f →
        ((s.fetch c final).calls c₂).fetchedAt ≠ some f := by
      rintro c₁ c₂ f rfl h₂ hf hf'
      rw [hself] at hf
      rw [hother c₂ h₂] at hf'
      obtain rfl := Option.some.inj hf
      exact absurd (hs.fetched c₂ _ hf').1 (lt_irrefl _)
    intro c₁ c₂ f h₁ h₂
    by_cases hc₁ : c₁ = c
    · by_cases hc₂ : c₂ = c
      · rw [hc₁, hc₂]
      · exact absurd h₂ (hnew c₁ c₂ f hc₁ hc₂ h₁)
    · by_cases hc₂ : c₂ = c
      · exact absurd h₁ (hnew c₂ c₁ f hc₂ hc₁ h₂)
      · rw [hother c₁ hc₁] at h₁
        rw [hother c₂ hc₂] at h₂
        exact hs.distinct c₁ c₂ f h₁ h₂
  · intro c' hrun
    by_cases hc : c' = c
    · subst hc
      rw [hself]
      exact hbegun c' hrunning
    · rw [hother c' hc] at hrun ⊢
      exact hbegun c' hrun

end MqttNativeSocket
