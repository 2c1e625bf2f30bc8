import Mathlib.Logic.Function.Basic

/-! # Tables of pending promises

A table maps keys to the owners of the promises kept in it. The promises
themselves are found by owner, as the futures that wait for them are.
-/

namespace Pending

variable {κ ι P : Type*}

/-- The promises after `f` is applied to the one at key `k`, if there is one. -/
def resolve [DecidableEq ι] (entries : κ → Option ι) (promises : ι → P) (k : κ) (f : P → P) :
    ι → P :=
  fun i => if entries k = some i then f (promises i) else promises i

variable {entries : κ → Option ι} {promises : ι → P} {k k' : κ} {i i' : ι} {f : P → P}

section Resolve

variable [DecidableEq ι]

/-- Only the owner of the entry is concerned. -/
theorem resolve_of_ne (h : entries k ≠ some i) : resolve entries promises k f i = promises i :=
  if_neg h

theorem resolve_owner (h : entries k = some i) :
    resolve entries promises k f i = f (promises i) :=
  if_pos h

theorem resolve_of_none (h : entries k = none) : resolve entries promises k f = promises :=
  funext fun i => resolve_of_ne (by simp [h])

end Resolve

variable [DecidableEq κ]

theorem of_remove (h : Function.update entries k none k' = some i) : entries k' = some i := by
  by_cases hk : k' = k
  · rw [hk, Function.update_self] at h
    contradiction
  · rwa [Function.update_of_ne hk] at h

/-- Removing an entry of which the owner has no other takes away that owner, and nothing else. -/
theorem remove_iff (hkey : ∀ k, entries k = some i → k = k')
    (hown : ∀ j, entries k' = some j → j = i) {j : ι} {x : κ} :
    Function.update entries k' none x = some j ↔ j ≠ i ∧ entries x = some j := by
  constructor
  · intro h
    have hold := of_remove h
    refine ⟨?_, hold⟩
    rintro rfl
    rw [hkey x hold, Function.update_self] at h
    contradiction
  · rintro ⟨hne, hold⟩
    rw [Function.update_of_ne, hold]
    rintro rfl
    exact hne (hown j hold)

/-- A new entry is the only one that was not there before. -/
theorem of_put (h : Function.update entries k (some i) k' = some i') :
    k' = k ∧ i' = i ∨ entries k' = some i' := by
  by_cases hk : k' = k
  · rw [hk, Function.update_self] at h
    exact .inl ⟨hk, (Option.some.inj h).symm⟩
  · rw [Function.update_of_ne hk] at h
    exact .inr h

/--
An entry that is overwritten takes the promise of its owner along, who then has none left; for all
others nothing happens.
-/
theorem overwrite_cases [DecidableEq ι] {x : Option ι} (hx : x ≠ some i)
    (hkey : ∀ k, entries k = some i → k = k') :
    (entries k = some i ∧ resolve entries promises k f i = f (promises i) ∧
        ∀ y, Function.update entries k x y ≠ some i) ∨
      (resolve entries promises k f i = promises i ∧
        ∀ y, Function.update entries k x y = some i → entries y = some i) := by
  have hold : ∀ y, Function.update entries k x y = some i → y ≠ k ∧ entries y = some i := by
    intro y hy
    by_cases hyk : y = k
    · rw [hyk, Function.update_self] at hy
      exact (hx hy).elim
    · rw [Function.update_of_ne hyk] at hy
      exact ⟨hyk, hy⟩
  by_cases hk : entries k = some i
  · refine .inl ⟨hk, resolve_owner hk, fun y hy => ?_⟩
    obtain ⟨hne, hy⟩ := hold y hy
    exact hne ((hkey y hy).trans (hkey k hk).symm)
  · exact .inr ⟨resolve_of_ne hk, fun y hy => (hold y hy).2⟩

end Pending
