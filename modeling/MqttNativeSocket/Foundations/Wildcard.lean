import Mathlib.Data.List.Count
import Mathlib.Tactic

/-! # Instances of a pattern with wildcards

In a pattern, `one` stands for any string without `sep`, and `many` ends the pattern and
stands for any string at all. Every other letter stands for itself.
-/

namespace Wildcard

variable {α : Type*}

/--
The string is the pattern with each `one` before the first `many` replaced by a string without
`sep`, and the first `many` and all that follows it replaced by some suffix.
-/
inductive Instance (sep one many : α) : List α → List α → Prop where

  | nil : Instance sep one many [] []

  | many (rest suffix : List α) : Instance sep one many (many :: rest) suffix

  | one {pattern string : List α} (level : List α) : sep ∉ level →
      Instance sep one many pattern string →
      Instance sep one many (one :: pattern) (level ++ string)

  | letter {pattern string : List α} (c : α) : c ≠ many → c ≠ one →
      Instance sep one many pattern string → Instance sep one many (c :: pattern) (c :: string)

variable {sep one many : α} {pattern string : List α}

/-- Without `many`, the instances have as many separators as the pattern. -/
theorem Instance.count_sep [DecidableEq α] (hsep : sep ≠ one)
    (h : Instance sep one many pattern string) (hmany : many ∉ pattern) :
    string.count sep = pattern.count sep := by
  induction h with
  | nil => rfl
  | many rest suffix => exact absurd List.mem_cons_self hmany
  | one level hlevel _ ih =>
    rw [List.count_append, List.count_eq_zero.mpr hlevel, Nat.zero_add,
      List.count_cons_of_ne hsep.symm, ih (fun h => hmany (List.mem_cons_of_mem _ h))]
  | letter c _ _ _ ih =>
    have hrest := ih fun h => hmany (List.mem_cons_of_mem _ h)
    rw [List.count_cons, List.count_cons, hrest]

end Wildcard
