import Mathlib.Tactic

/-! # Splitting at the first and at the last separator

A list is cut around the first place where a pattern stands, or around the last
occurrence of a letter. Searches that return a position find the same places.
-/

namespace Split

variable {α : Type*} [DecidableEq α]

/-- What comes before and after the first place where `pat` stands. -/
def first (pat : List α) : List α → Option (List α × List α)
  | [] => if pat = [] then some ([], []) else none
  | a :: s =>
    if pat.isPrefixOf (a :: s) then some ([], (a :: s).drop pat.length)
    else (first pat s).map fun p => (a :: p.1, p.2)

/-- What comes before and after the last occurrence of `c`. -/
def last (c : α) : List α → Option (List α × List α)
  | [] => none
  | a :: s =>
    match last c s with
    | some p => some (a :: p.1, p.2)
    | none => if a = c then some ([], s) else none

variable {c : α} {pat s pre post : List α}

theorem eq_append_of_first (h : first pat s = some (pre, post)) : s = pre ++ (pat ++ post) := by
  induction s generalizing pre with
  | nil =>
    simp only [first, Option.ite_none_right_eq_some, Option.some.injEq, Prod.mk.injEq] at h
    obtain ⟨rfl, rfl, rfl⟩ := h
    rfl
  | cons a s ih =>
    rw [first] at h
    split at h
    · next hp =>
      obtain ⟨rest, hrest⟩ := List.isPrefixOf_iff_prefix.mp hp
      simp only [← hrest, List.drop_left, Option.some.injEq, Prod.mk.injEq] at h
      obtain ⟨rfl, rfl⟩ := h
      exact hrest.symm
    · simp only [Option.map_eq_some_iff, Prod.mk.injEq, Prod.exists] at h
      obtain ⟨pre, post, hs, rfl, rfl⟩ := h
      rw [ih hs, List.cons_append]

/-- Where the first letter of the pattern is not in `pre`, nothing of it starts there. -/
theorem first_append (hc : c ∉ pre) :
    first (c :: pat) (pre ++ c :: (pat ++ post)) = some (pre, post) := by
  induction pre with
  | nil => simp [first]
  | cons a pre ih =>
    rw [List.mem_cons, not_or] at hc
    have hp : (c :: pat).isPrefixOf (a :: (pre ++ c :: (pat ++ post))) = false := by
      simp [List.isPrefixOf, hc.1]
    rw [List.cons_append, first, hp, ih hc.2]
    rfl

theorem findIdx?_tails_eq_first :
    (s.tails.findIdx? fun t => pat.isPrefixOf t) = (first pat s).map fun p => p.1.length := by
  induction s with
  | nil =>
    cases pat with
    | nil => rfl
    | cons c pat => rfl
  | cons a s ih =>
    rw [List.tails_cons, List.findIdx?_cons, ih, first]
    split
    · rfl
    · simp only [Option.map_map]
      rfl

theorem last_eq_none_iff : last c s = none ↔ c ∉ s := by
  induction s with
  | nil => simp [last]
  | cons a s ih =>
    rw [last, List.mem_cons, not_or, ← ih]
    cases last c s with
    | none => simp [eq_comm]
    | some p => simp

theorem last_append (hc : c ∉ post) : last c (pre ++ c :: post) = some (pre, post) := by
  induction pre with
  | nil => simp [last, last_eq_none_iff.mpr hc]
  | cons a pre ih => rw [List.cons_append, last, ih]

theorem eq_append_of_last (h : last c s = some (pre, post)) :
    s = pre ++ c :: post ∧ c ∉ post := by
  induction s generalizing pre with
  | nil => simp [last] at h
  | cons a s ih =>
    rw [last] at h
    split at h
    · next p hp =>
      obtain ⟨rfl, rfl⟩ := Prod.mk.inj (Option.some.inj h)
      obtain ⟨hs, hpost⟩ := ih hp
      exact ⟨by rw [hs, List.cons_append], hpost⟩
    · next hnone =>
      simp only [Option.ite_none_right_eq_some, Option.some.injEq, Prod.mk.injEq] at h
      obtain ⟨rfl, rfl, rfl⟩ := h
      exact ⟨rfl, last_eq_none_iff.mp hnone⟩

theorem findIdx?_beq_eq_none (hc : c ∉ s) : s.findIdx? (· == c) = none := by
  rw [List.findIdx?_eq_none_iff]
  intro a ha
  exact beq_false_of_ne fun hac => hc (hac ▸ ha)

theorem findIdx?_reverse_eq_last :
    ((s.reverse.findIdx? (· == c)).map fun i => s.length - 1 - i) =
      (last c s).map fun p => p.1.length := by
  cases hlast : last c s with
  | none =>
    have hc := last_eq_none_iff.mp hlast
    rw [findIdx?_beq_eq_none (mt List.mem_reverse.mp hc)]
    rfl
  | some p =>
    obtain ⟨rfl, hpost⟩ := eq_append_of_last hlast
    have hfound : (p.1 ++ c :: p.2).reverse.findIdx? (· == c) = some p.2.length := by
      rw [List.reverse_append, List.reverse_cons, List.append_assoc, List.findIdx?_append,
        findIdx?_beq_eq_none (mt List.mem_reverse.mp hpost)]
      simp [List.findIdx?_cons]
    rw [hfound]
    simp only [Option.map_some, List.length_append, List.length_cons, Option.some.injEq]
    omega

end Split
