import Mathlib.Data.Finset.Basic

/-! # A set changed through a queue

The holder of a set gets insertions and removals through a queue, and may refuse
some of them. The expected set is the one it will hold once the queue is empty, if
it refuses nothing more.
-/

namespace Replica

variable {K : Type*} [DecidableEq K] {s s' : Finset K} {q : List (K × Bool)} {p : K × Bool}
  {x : K}

/-- A change names an element, to be inserted or to be removed. -/
def apply (s : Finset K) (p : K × Bool) : Finset K := if p.2 then insert p.1 s else s.erase p.1

def expected (s : Finset K) (q : List (K × Bool)) : Finset K := q.foldl apply s

@[simp] theorem expected_nil : expected s [] = s := rfl

/-- A change that is taken leaves what is expected. -/
theorem expected_cons : expected s (p :: q) = expected (apply s p) q := rfl

theorem mem_apply_self : p.1 ∈ apply s p ↔ p.2 = true := by
  unfold apply
  split_ifs with h <;> simp [h]

theorem mem_apply_of_ne (h : x ≠ p.1) : x ∈ apply s p ↔ x ∈ s := by
  unfold apply
  split_ifs <;> simp [h]

/-- The last change decides. -/
theorem mem_expected_append_self : p.1 ∈ expected s (q ++ [p]) ↔ p.2 = true := by
  rw [expected, List.foldl_append]
  exact mem_apply_self

theorem mem_expected_append_of_ne (h : x ≠ p.1) :
    x ∈ expected s (q ++ [p]) ↔ x ∈ expected s q := by
  rw [expected, List.foldl_append]
  exact mem_apply_of_ne h

theorem mem_expected_mono (h : x ∈ s → x ∈ s') (hx : x ∈ expected s q) : x ∈ expected s' q := by
  induction q generalizing s s' with
  | nil => exact h hx
  | cons p q ih =>
    refine ih (fun hx => ?_) hx
    by_cases hp : x = p.1
    · subst hp
      rw [mem_apply_self] at hx ⊢
      exact hx
    · rw [mem_apply_of_ne hp] at hx ⊢
      exact h hx

theorem mem_expected_congr (h : x ∈ s ↔ x ∈ s') : x ∈ expected s q ↔ x ∈ expected s' q :=
  ⟨mem_expected_mono h.mp, mem_expected_mono h.mpr⟩

/-- An insertion that is refused adds nothing to what is expected. -/
theorem mem_expected_of_refuse (hp : p.2 = true) (hx : x ∈ expected s q) :
    x ∈ expected s (p :: q) := by
  rw [expected_cons]
  refine mem_expected_mono (fun h => ?_) hx
  rw [apply, if_pos hp]
  exact Finset.mem_insert_of_mem h

/-- A change that is refused concerns its own element only. -/
theorem mem_expected_refuse (h : x ≠ p.1) : x ∈ expected s q ↔ x ∈ expected s (p :: q) :=
  mem_expected_congr (mem_apply_of_ne h).symm

end Replica
