import Mathlib.Data.Finset.Basic
import Mathlib.Logic.Relation
import Mathlib.Tactic

/-! # Threads and locks

Threads run one program and share locks that are held exclusively by one of them
or in shared mode by several. A point of the program says which locks a thread
holds there, and the steps of a `LockProgram` agree with that. A cycle of threads
that wait for each other needs a thread that asks for a lock out of order.
-/

namespace Locks

inductive Mode where
  | shared | exclusive
  deriving DecidableEq, Repr

/-- Two holds of one lock that exclude each other. -/
def Mode.Conflicts (m m' : Mode) : Prop := m = .exclusive ∨ m' = .exclusive

inductive Op (Λ : Type*) where
  | skip
  | lock (ℓ : Λ) (m : Mode)
  | unlock (ℓ : Λ)
  deriving DecidableEq, Repr

/-- Who holds one lock. -/
inductive Hold (τ : Type*) where
  | free
  | shared (readers : Finset τ)
  | exclusive (owner : τ)

namespace Hold

variable {τ : Type*} [DecidableEq τ] {h h' : Hold τ} {t t' : τ} {m m' : Mode}

/-- The mode in which a thread holds the lock. -/
def heldBy (t : τ) : Hold τ → Option Mode
  | .free => none
  | .shared readers => if t ∈ readers then some .shared else none
  | .exclusive owner => if t = owner then some .exclusive else none

/-- Thread `t` takes the lock, if the others let it. -/
def acquire (t : τ) : Mode → Hold τ → Option (Hold τ)
  | .exclusive, .free => some (.exclusive t)
  | .shared, .free => some (.shared {t})
  | .shared, .shared readers => some (.shared (insert t readers))
  | .exclusive, .shared _ => none
  | .shared, .exclusive _ => none
  | .exclusive, .exclusive _ => none

def release (t : τ) : Hold τ → Hold τ
  | .free => .free
  | .shared readers =>
    if readers.erase t = ∅ then .free else .shared (readers.erase t)
  | .exclusive owner => if t = owner then .free else .exclusive owner

@[simp] theorem heldBy_free : heldBy t .free = none := rfl

/-- Taking a lock changes nothing for the other threads. -/
theorem heldBy_acquire (ha : acquire t m h = some h') (t' : τ) :
    heldBy t' h' = if t' = t then some m else heldBy t' h := by
  cases h with
  | free =>
    cases m with
    | shared =>
      obtain rfl := Option.some.inj ha
      simp [heldBy]
    | exclusive =>
      obtain rfl := Option.some.inj ha
      simp [heldBy]
  | shared readers =>
    cases m with
    | shared =>
      obtain rfl := Option.some.inj ha
      by_cases ht : t' = t
      · simp [heldBy, ht]
      · simp [heldBy, ht]
    | exclusive => simp [acquire] at ha
  | exclusive owner => cases m <;> simp [acquire] at ha

theorem heldBy_release (t t' : τ) (h : Hold τ) :
    heldBy t' (release t h) = if t' = t then none else heldBy t' h := by
  cases h with
  | free => simp [release]
  | shared readers =>
    rw [release]
    split
    · next hempty =>
      by_cases ht : t' = t
      · simp [ht]
      · have hno : t' ∉ readers := by
          intro hmem
          simpa [hempty] using Finset.mem_erase.mpr ⟨ht, hmem⟩
        simp [ht, heldBy, hno]
    · by_cases ht : t' = t <;> simp [heldBy, ht]
  | exclusive owner =>
    rw [release]
    by_cases howner : t = owner
    · by_cases ht : t' = t <;> simp_all [heldBy]
    · by_cases ht : t' = t <;> simp_all [heldBy]

/-- An exclusive hold is the only one. -/
theorem eq_of_conflicts (h₁ : heldBy t h = some m) (h₂ : heldBy t' h = some m')
    (hc : m.Conflicts m') : t = t' := by
  cases h with
  | free => simp at h₁
  | shared readers =>
    simp only [heldBy, Option.ite_none_right_eq_some, Option.some.injEq] at h₁ h₂
    rcases hc with rfl | rfl
    · exact absurd h₁.2 (by simp)
    · exact absurd h₂.2 (by simp)
  | exclusive owner =>
    simp only [heldBy, Option.ite_none_right_eq_some] at h₁ h₂
    rw [h₁.1, h₂.1]

/-- A lock that is held is not to be had in a mode that conflicts. -/
theorem acquire_eq_none (hh : heldBy t h = some m') (hc : m.Conflicts m') (t' : τ) :
    acquire t' m h = none := by
  cases h with
  | free => simp at hh
  | shared readers =>
    simp only [heldBy, Option.ite_none_right_eq_some, Option.some.injEq] at hh
    rcases hc with rfl | rfl
    · rfl
    · exact absurd hh.2 (by simp)
  | exclusive owner => cases m <;> rfl

end Hold

/--
A program with points `π`, choices `χ` and locks `Λ`. `holds p` are the locks held at point `p`,
and every step takes only locks that are not held and gives back only locks that are.
-/
structure LockProgram (π χ Λ : Type*) [DecidableEq Λ] where
  next : π → χ → Option (Op Λ × π)
  holds : π → Λ → Option Mode
  holds_skip : ∀ {p c q}, next p c = some (.skip, q) → holds q = holds p
  holds_lock : ∀ {p c q ℓ m}, next p c = some (.lock ℓ m, q) →
    holds q = Function.update (holds p) ℓ (some m)
  holds_unlock : ∀ {p c q ℓ}, next p c = some (.unlock ℓ, q) →
    holds q = Function.update (holds p) ℓ none

namespace LockProgram

variable {π χ Λ : Type*} [DecidableEq Λ]

/-- What an operation makes of the locks held. -/
def after (op : Op Λ) (held : Λ → Option Mode) : Λ → Option Mode :=
  match op with
  | .skip => held
  | .lock ℓ m => Function.update held ℓ (some m)
  | .unlock ℓ => Function.update held ℓ none

/-- A program in which what is held at each point follows from the operations. -/
def ofAfter (next : π → χ → Option (Op Λ × π)) (holds : π → Λ → Option Mode)
    (h : ∀ {p c op q}, next p c = some (op, q) → holds q = after op (holds p)) :
    LockProgram π χ Λ where
  next := next
  holds := holds
  holds_skip := h
  holds_lock := h
  holds_unlock := h

end LockProgram

structure State (τ π Λ : Type*) where
  pc : τ → π
  locks : Λ → Hold τ

variable {τ π χ Λ : Type*} [DecidableEq τ] [DecidableEq Λ]

/-- A step of thread `t`, if the lock it asks for is to be had. -/
def step (P : LockProgram π χ Λ) (s : State τ π Λ) (l : τ × χ) : Option (State τ π Λ) :=
  match P.next (s.pc l.1) l.2 with
  | none => none
  | some (.skip, q) => some { s with pc := Function.update s.pc l.1 q }
  | some (.lock ℓ m, q) =>
    ((s.locks ℓ).acquire l.1 m).map fun h =>
      ⟨Function.update s.pc l.1 q, Function.update s.locks ℓ h⟩
  | some (.unlock ℓ, q) =>
    some ⟨Function.update s.pc l.1 q, Function.update s.locks ℓ ((s.locks ℓ).release l.1)⟩

/-- The next operation at a point is to take this lock. -/
def Wants (P : LockProgram π χ Λ) (p : π) (ℓ : Λ) (m : Mode) : Prop :=
  ∃ c q, P.next p c = some (.lock ℓ m, q)

/-- The locks are held by the threads at points that hold them. -/
def Agrees (P : LockProgram π χ Λ) (s : State τ π Λ) : Prop :=
  ∀ t ℓ, (s.locks ℓ).heldBy t = P.holds (s.pc t) ℓ

/-- Thread `t` wants a lock that `t'` holds. -/
def WaitsFor (P : LockProgram π χ Λ) (s : State τ π Λ) (t t' : τ) : Prop :=
  ∃ ℓ m m', Wants P (s.pc t) ℓ m ∧ (s.locks ℓ).heldBy t' = some m' ∧ m.Conflicts m'

/-- Some threads wait for each other in a cycle. -/
def Deadlocked (P : LockProgram π χ Λ) (s : State τ π Λ) : Prop :=
  ∃ t, Relation.TransGen (WaitsFor P s) t t

variable {P : LockProgram π χ Λ} {s s' : State τ π Λ} {l : τ × χ} {t t' : τ} {p : π}

/-- What a step can do. -/
theorem step_pc (h : step P s l = some s') : ∃ op q, P.next (s.pc l.1) l.2 = some (op, q) ∧
    s'.pc = Function.update s.pc l.1 q := by
  rw [step] at h
  split at h
  · simp at h
  · next q hq =>
    obtain rfl := Option.some.inj h
    exact ⟨_, q, hq, rfl⟩
  · next ℓ m q hq =>
    obtain ⟨k, -, rfl⟩ := Option.map_eq_some_iff.mp h
    exact ⟨_, q, hq, rfl⟩
  · next ℓ q hq =>
    obtain rfl := Option.some.inj h
    exact ⟨_, q, hq, rfl⟩

theorem Agrees.step (hs : Agrees P s) (h : step P s l = some s') : Agrees P s' := by
  obtain ⟨t, c⟩ := l
  intro t' ℓ'
  rw [Locks.step] at h
  split at h
  · simp at h
  · next q hq =>
    obtain rfl := Option.some.inj h
    by_cases ht : t' = t
    · subst ht
      simp [hs t' ℓ', P.holds_skip hq]
    · simp [Function.update_of_ne ht, hs t' ℓ']
  · next ℓ m q hq =>
    obtain ⟨k, hk, rfl⟩ := Option.map_eq_some_iff.mp h
    by_cases hℓ : ℓ' = ℓ
    · subst hℓ
      by_cases ht : t' = t
      · subst ht
        simp [Hold.heldBy_acquire hk, P.holds_lock hq]
      · simp [Hold.heldBy_acquire hk, ht, hs t' ℓ']
    · by_cases ht : t' = t
      · subst ht
        simp [Function.update_of_ne hℓ, hs t' ℓ', P.holds_lock hq]
      · simp [Function.update_of_ne hℓ, Function.update_of_ne ht, hs t' ℓ']
  · next ℓ q hq =>
    obtain rfl := Option.some.inj h
    by_cases hℓ : ℓ' = ℓ
    · subst hℓ
      by_cases ht : t' = t
      · subst ht
        simp [Hold.heldBy_release, P.holds_unlock hq]
      · simp [Hold.heldBy_release, ht, hs t' ℓ']
    · by_cases ht : t' = t
      · subst ht
        simp [Function.update_of_ne hℓ, hs t' ℓ', P.holds_unlock hq]
      · simp [Function.update_of_ne hℓ, Function.update_of_ne ht, hs t' ℓ']

/-- Two threads at points that hold one lock in conflicting modes are the same. -/
theorem Agrees.eq_of_holds (hs : Agrees P s) {ℓ : Λ} {m m' : Mode}
    (h : P.holds (s.pc t) ℓ = some m) (h' : P.holds (s.pc t') ℓ = some m')
    (hc : m.Conflicts m') : t = t' :=
  Hold.eq_of_conflicts ((hs t ℓ).trans h) ((hs t' ℓ).trans h') hc

/--
On a cycle some thread wants a lock that does not come after all those it holds, whatever the order.
-/
theorem exists_unordered (rank : Λ → ℕ) (hs : Agrees P s)
    (h : Relation.TransGen (WaitsFor P s) t t) :
    ∃ u ℓ m ℓ', Relation.TransGen (WaitsFor P s) u u ∧ Wants P (s.pc u) ℓ m ∧
      P.holds (s.pc u) ℓ' ≠ none ∧ rank ℓ ≤ rank ℓ' := by
  by_contra hno
  have hord : ∀ u ℓ m ℓ', Relation.TransGen (WaitsFor P s) u u → Wants P (s.pc u) ℓ m →
      P.holds (s.pc u) ℓ' ≠ none → rank ℓ' < rank ℓ := by
    intro u ℓ m ℓ' hu hw hh
    by_contra hle
    exact hno ⟨u, ℓ, m, ℓ', hu, hw, hh, not_lt.mp hle⟩
  -- from `t` on along the cycle, the locks held come ever later
  have hrise : ∀ v, Relation.TransGen (WaitsFor P s) t v →
      Relation.ReflTransGen (WaitsFor P s) v t →
      ∃ ℓ m ℓ', Wants P (s.pc t) ℓ m ∧ P.holds (s.pc v) ℓ' ≠ none ∧ rank ℓ ≤ rank ℓ' := by
    intro v hv
    induction hv with
    | single hedge =>
      rintro -
      obtain ⟨ℓ, m, m', hw, hh, -⟩ := hedge
      rw [hs] at hh
      exact ⟨ℓ, m, ℓ, hw, by simp [hh], le_rfl⟩
    | tail hv hedge ih =>
      intro hback
      obtain ⟨ℓ, m, ℓ₁, hw, hh, hle⟩ := ih (.head hedge hback)
      have hcycle := (Relation.TransGen.head' hedge hback).trans hv
      obtain ⟨ℓ₂, m₂, m', hw₂, hh₂, -⟩ := hedge
      rw [hs] at hh₂
      exact ⟨ℓ, m, ℓ₂, hw, by simp [hh₂], hle.trans (hord _ _ _ _ hcycle hw₂ hh).le⟩
  obtain ⟨ℓ, m, ℓ', hw, hh, hle⟩ := hrise t h .refl
  exact hno ⟨t, ℓ, m, ℓ', h, hw, hh, hle⟩

/-- A thread that wants a lock which it holds itself waits for itself. -/
theorem deadlocked_of_held (hs : Agrees P s) {ℓ : Λ} {m m' : Mode} (hw : Wants P (s.pc t) ℓ m)
    (hh : P.holds (s.pc t) ℓ = some m') (hc : m.Conflicts m') : Deadlocked P s :=
  ⟨t, .single ⟨ℓ, m, m', hw, (hs t ℓ).trans hh, hc⟩⟩

/-- A lock that some thread holds is not given to one that excludes it. -/
theorem step_eq_none (hs : Agrees P s) {ℓ : Λ} {m m' : Mode} {q : π}
    (hnext : P.next (s.pc l.1) l.2 = some (.lock ℓ m, q)) (hh : P.holds (s.pc t) ℓ = some m')
    (hc : m.Conflicts m') : step P s l = none := by
  rw [step, hnext]
  dsimp only
  rw [Hold.acquire_eq_none ((hs t ℓ).trans hh) hc]
  rfl

end Locks
