import Mathlib.Data.List.Perm.Basic
import Mathlib.Tactic

/-! # First matches

What a search for the first match finds in a list whose order is not known.
-/

namespace FirstMatch

variable {α β : Type*}

/-- What `f` gives for the first match of `p`, else `d`. -/
def pick (p : α → Bool) (f : α → β) (d : β) (l : List α) : β := ((l.find? p).map f).getD d

variable {p : α → Bool} {f : α → β} {d : β} {l : List α}

theorem pick_cons_of_pos {a : α} (h : p a = true) : pick p f d (a :: l) = f a := by
  rw [pick, List.find?_cons_of_pos h]
  rfl

/-- Some match, or the default if nothing matches. -/
theorem pick_cases (p : α → Bool) (f : α → β) (d : β) (l : List α) :
    (∃ a ∈ l, p a = true ∧ pick p f d l = f a) ∨
      ((∀ a ∈ l, p a = false) ∧ pick p f d l = d) := by
  cases hfind : l.find? p with
  | some a =>
    exact .inl ⟨a, List.mem_of_find?_eq_some hfind, List.find?_some hfind, by rw [pick, hfind]; rfl⟩
  | none =>
    refine .inr ⟨fun a ha => ?_, by rw [pick, hfind]; rfl⟩
    simpa using List.find?_eq_none.mp hfind a ha

/-- Any match may be the first one. -/
theorem exists_perm_pick {a : α} (ha : a ∈ l) (hp : p a = true) :
    ∃ l', l'.Perm l ∧ pick p f d l' = f a := by
  obtain ⟨xs, ys, rfl⟩ := List.mem_iff_append.mp ha
  exact ⟨a :: (xs ++ ys), List.perm_middle.symm, pick_cons_of_pos hp⟩

/-- The order does not matter exactly if all matches are worth the same. -/
theorem pick_perm_iff : (∀ l', l'.Perm l → pick p f d l' = pick p f d l) ↔
    ∀ a ∈ l, ∀ b ∈ l, p a = true → p b = true → f a = f b := by
  constructor
  · intro h a ha b hb hpa hpb
    obtain ⟨l₁, hperm₁, hpick₁⟩ := exists_perm_pick (f := f) (d := d) ha hpa
    obtain ⟨l₂, hperm₂, hpick₂⟩ := exists_perm_pick (f := f) (d := d) hb hpb
    rw [← hpick₁, ← hpick₂, h l₁ hperm₁, h l₂ hperm₂]
  · intro h l' hperm
    obtain ⟨a, ha, hpa, hpick⟩ | ⟨hnone, hpick⟩ := pick_cases p f d l'
    · obtain ⟨b, hb, hpb, hpick'⟩ | ⟨hnone, -⟩ := pick_cases p f d l
      · rw [hpick, hpick', h a (hperm.mem_iff.mp ha) b hb hpa hpb]
      · rw [hnone a (hperm.mem_iff.mp ha)] at hpa
        cases hpa
    · obtain ⟨b, hb, hpb, -⟩ | ⟨-, hpick'⟩ := pick_cases p f d l
      · rw [hnone b (hperm.mem_iff.mpr hb)] at hpb
        cases hpb
      · rw [hpick, hpick']

end FirstMatch
