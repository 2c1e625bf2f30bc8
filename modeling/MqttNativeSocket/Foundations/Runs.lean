import Mathlib.Tactic

/-! # Runs of a labelled step function

A system is a partial step function. A run is a list of labels; it may be asked
to meet a condition at each of its steps, which may look at the state before the
step. An invariant is proved from one step and then holds along whole runs.
-/

namespace Runs

variable {σ α : Type*}

/-- The state after a list of labels, if every one of them is enabled in turn. -/
def exec (step : σ → α → Option σ) : σ → List α → Option σ
  | s, [] => some s
  | s, a :: as => (step s a).bind fun s' => exec step s' as

/-- Every step of the run meets the condition `C` in the state it is taken from. -/
def Along (step : σ → α → Option σ) (C : σ → α → Prop) : σ → List α → Prop
  | _, [] => True
  | s, a :: as => C s a ∧ ∀ s', step s a = some s' → Along step C s' as

variable {step : σ → α → Option σ} {C : σ → α → Prop} {s s' : σ} {a : α} {as bs : List α}

@[simp] theorem exec_nil : exec step s [] = some s := rfl

theorem exec_cons_eq_some :
    exec step s (a :: as) = some s' ↔ ∃ t, step s a = some t ∧ exec step t as = some s' :=
  Option.bind_eq_some_iff

theorem exec_append :
    exec step s (as ++ bs) = (exec step s as).bind fun t => exec step t bs := by
  induction as generalizing s with
  | nil => rfl
  | cons a as ih =>
    rw [List.cons_append, exec, exec, Option.bind_assoc]
    exact congrArg _ (funext fun t => ih)

/-- What maps steps to steps maps runs to runs. -/
theorem exec_map {τ : Type*} {step' : τ → α → Option τ} {f : σ → τ}
    (hf : ∀ s a, (step s a).map f = step' (f s) a) :
    (exec step s as).map f = exec step' (f s) as := by
  induction as generalizing s with
  | nil => rfl
  | cons a as ih =>
    calc (exec step s (a :: as)).map f
        = (step s a).bind fun t => (exec step t as).map f := Option.map_bind ..
      _ = (step s a).bind fun t => exec step' (f t) as := congrArg _ (funext fun t => ih)
      _ = ((step s a).map f).bind fun t => exec step' t as := by rw [Option.bind_map]; rfl
      _ = exec step' (f s) (a :: as) := by rw [hf, exec]

/-- An invariant of the steps that meet the condition holds after every run that meets it. -/
theorem invariant {I : σ → Prop} (h : exec step s as = some s') (hc : Along step C s as)
    (h₀ : I s) (hstep : ∀ s a s', I s → C s a → step s a = some s' → I s') : I s' := by
  induction as generalizing s with
  | nil =>
    obtain rfl : s = s' := by simpa using h
    exact h₀
  | cons a as ih =>
    obtain ⟨t, ht, hrest⟩ := exec_cons_eq_some.mp h
    exact ih hrest (hc.2 t ht) (hstep s a t h₀ hc.1 ht)

/--
If a step keeps the property exactly when it meets the condition, the property holds after every
initial part of a run just when all its steps meet the condition.
-/
theorem forall_prefix_iff_along {I P : σ → Prop} (h₀ : I s) (hP : ∀ s, I s → P s)
    (hstep : ∀ s a s', I s → step s a = some s' → (P s' ↔ C s a))
    (hI : ∀ s a s', I s → C s a → step s a = some s' → I s') :
    (∀ bs, bs <+: as → ∀ s', exec step s bs = some s' → P s') ↔
      Along step (fun s a => (step s a).isSome → C s a) s as := by
  induction as generalizing s with
  | nil =>
    constructor
    · exact fun _ => trivial
    · rintro - bs hbs s' h
      obtain rfl := List.prefix_nil.mp hbs
      obtain rfl : s = s' := by simpa using h
      exact hP s h₀
  | cons a as ih =>
    constructor
    · intro h
      have hC : ∀ t, step s a = some t → C s a := fun t ht =>
        (hstep s a t h₀ ht).mp (h [a] (by simp) t (exec_cons_eq_some.mpr ⟨t, ht, rfl⟩))
      constructor
      · intro hs
        obtain ⟨t, ht⟩ := Option.isSome_iff_exists.mp hs
        exact hC t ht
      · intro t ht
        refine (ih (hI s a t h₀ (hC t ht) ht)).mp fun bs hbs s' hs' => ?_
        exact h (a :: bs) (List.cons_prefix_cons.mpr ⟨rfl, hbs⟩) s'
          (exec_cons_eq_some.mpr ⟨t, ht, hs'⟩)
    · rintro ⟨hC, hrest⟩ bs hbs s' hs'
      cases bs with
      | nil =>
        obtain rfl : s = s' := by simpa using hs'
        exact hP s h₀
      | cons b bs =>
        obtain ⟨rfl, hpre⟩ := List.cons_prefix_cons.mp hbs
        obtain ⟨t, ht, hs'⟩ := exec_cons_eq_some.mp hs'
        have hCa := hC (Option.isSome_iff_exists.mpr ⟨t, ht⟩)
        exact (ih (hI s b t h₀ hCa ht)).mpr (hrest t ht) bs hpre s' hs'

/-- The labels that raise a rank are few in a run where the rank stays small. -/
theorem rank_add_countP_le {m : σ → ℕ} {p : α → Bool} (h : exec step s as = some s')
    (hc : Along step C s as)
    (hstep : ∀ s a s', C s a → step s a = some s' → m s + (if p a then 1 else 0) ≤ m s') :
    m s + as.countP p ≤ m s' := by
  induction as generalizing s with
  | nil =>
    obtain rfl : s = s' := by simpa using h
    exact le_rfl
  | cons a as ih =>
    obtain ⟨t, ht, hrest⟩ := exec_cons_eq_some.mp h
    calc m s + (a :: as).countP p
        = m s + (if p a then 1 else 0) + as.countP p := by rw [List.countP_cons]; omega
      _ ≤ m t + as.countP p := Nat.add_le_add_right (hstep s a t hc.1 ht) _
      _ ≤ m s' := ih hrest (hc.2 t ht)

/-- Where each step of kind `p` lowers a rank that the others may raise, such steps are few. -/
theorem countP_add_rank_le {m : σ → ℕ} {p : α → Bool} {gain : α → ℕ}
    (h : exec step s as = some s') (hc : Along step C s as)
    (hstep : ∀ s a s', C s a → step s a = some s' →
      (if p a then 1 else 0) + m s' ≤ m s + gain a) :
    as.countP p + m s' ≤ m s + (as.map gain).sum := by
  induction as generalizing s with
  | nil =>
    obtain rfl : s = s' := by simpa using h
    simp
  | cons a as ih =>
    obtain ⟨t, ht, hrest⟩ := exec_cons_eq_some.mp h
    have hfirst := hstep s a t hc.1 ht
    have htail := ih hrest (hc.2 t ht)
    rw [List.countP_cons, List.map_cons, List.sum_cons]
    omega

/-- A condition that holds of the labels in every state. -/
theorem along_of_forall (h : ∀ a ∈ as, ∀ s, C s a) : Along step C s as := by
  induction as generalizing s with
  | nil => trivial
  | cons a as ih =>
    obtain ⟨ha, has⟩ := List.forall_mem_cons.mp h
    exact ⟨ha s, fun t _ => ih has⟩

/-- An invariant of every step holds after every run. -/
theorem always {I : σ → Prop} (h : exec step s as = some s') (h₀ : I s)
    (hstep : ∀ s a s', I s → step s a = some s' → I s') : I s' :=
  invariant (C := fun _ _ => True) h (along_of_forall fun _ _ _ => trivial) h₀
    fun s a s' hi _ hs => hstep s a s' hi hs

/-- Along a run the invariant holds before each step. -/
theorem along_of_invariant {I : σ → Prop} (h₀ : I s)
    (hstep : ∀ s a s', I s → step s a = some s' → I s') : Along step (fun s _ => I s) s as := by
  induction as generalizing s with
  | nil => trivial
  | cons a as ih => exact ⟨h₀, fun t ht => ih (hstep s a t h₀ ht)⟩

/-- A computable test of a condition along a run. -/
def check (step : σ → α → Option σ) (c : σ → α → Bool) : σ → List α → Bool
  | _, [] => true
  | s, a :: as => c s a && (step s a).all fun s' => check step c s' as

/-- The test may rely on an invariant of the steps that pass it. -/
theorem along_of_check {I : σ → Prop} {c : σ → α → Bool} (h : check step c s as = true) (h₀ : I s)
    (hc : ∀ s a, I s → c s a = true → C s a)
    (hI : ∀ s a s', I s → c s a = true → step s a = some s' → I s') : Along step C s as := by
  induction as generalizing s with
  | nil => trivial
  | cons a as ih =>
    rw [check, Bool.and_eq_true] at h
    exact ⟨hc s a h₀ h.1, fun t ht => ih (by simpa [ht] using h.2) (hI s a t h₀ h.1 ht)⟩

end Runs
