import Mathlib.Data.Finset.Basic
import Mathlib.Tactic

/-! # A field that owns an object

A holder is a field that refers to an object obtained from outside, together with
the set of the objects obtained through it and not given back. Assigning to the
field drops what it held: an object that is open and not held is lost.
-/

/-- Objects are numbered in the order of their creation. -/
structure Holder where
  held : Option ℕ := none
  opened : Finset ℕ := ∅
  next : ℕ := 0
  fresh : ∀ x ∈ opened, x < next := by simp
  opened_of_held : ∀ x, held = some x → x ∈ opened := by simp

namespace Holder

variable {s : Holder}

/-- A new object is created and assigned to the field. -/
def acquire (s : Holder) : Holder where
  held := some s.next
  opened := insert s.next s.opened
  next := s.next + 1
  fresh := by
    intro x hx
    rcases Finset.mem_insert.mp hx with rfl | hx
    · exact Nat.lt_succ_self _
    · exact Nat.lt_succ_of_lt (s.fresh x hx)
  opened_of_held := by
    rintro x ⟨⟩
    exact Finset.mem_insert_self _ _

/-- The field is set to null. -/
def clear (s : Holder) : Holder := { s with held := none, opened_of_held := by simp }

/-- The object the field holds, if any, is given back, and the field set to null. -/
def release (s : Holder) : Holder where
  held := none
  opened := s.held.elim s.opened s.opened.erase
  next := s.next
  fresh := by
    intro x hx
    cases h : s.held with
    | none => exact s.fresh x (by simpa [h] using hx)
    | some y => exact s.fresh x (Finset.mem_of_mem_erase (by simpa [h] using hx))
  opened_of_held := by simp

/-- Every open object is the one held. -/
def Accounted (s : Holder) : Prop := ∀ x ∈ s.opened, s.held = some x

/-- Nothing is open. -/
def Vacant (s : Holder) : Prop := s.opened = ∅

instance : Decidable s.Accounted := inferInstanceAs (Decidable (∀ x ∈ s.opened, s.held = some x))

instance : Decidable s.Vacant := inferInstanceAs (Decidable (s.opened = ∅))

@[simp] theorem release_held : s.release.held = none := rfl

@[simp] theorem clear_held : s.clear.held = none := rfl

@[simp] theorem acquire_held : s.acquire.held = some s.next := rfl

theorem Vacant.held (h : s.Vacant) : s.held = none := by
  cases hx : s.held with
  | none => rfl
  | some x => exact absurd (s.opened_of_held x hx) (by simp [show s.opened = ∅ from h])

theorem Vacant.accounted (h : s.Vacant) : s.Accounted := by
  intro x hx
  rw [show s.opened = ∅ from h] at hx
  exact absurd hx (Finset.notMem_empty x)

/-- A field that holds nothing accounts for its objects just when there are none. -/
theorem accounted_iff_vacant (h : s.held = none) : s.Accounted ↔ s.Vacant := by
  constructor
  · intro hs
    refine Finset.eq_empty_of_forall_notMem fun x hx => ?_
    simpa [h] using hs x hx
  · exact Vacant.accounted

@[simp] theorem acquire_not_vacant : ¬ s.acquire.Vacant := Finset.insert_ne_empty _ _

/-- A new object accounts for all just when nothing was open before. -/
@[simp] theorem acquire_accounted_iff : s.acquire.Accounted ↔ s.Vacant := by
  constructor
  · intro h
    refine Finset.eq_empty_of_forall_notMem fun x hx => ?_
    have hnext : s.next = x := Option.some.inj (h x (Finset.mem_insert_of_mem hx))
    exact absurd (s.fresh x hx) (by omega)
  · intro h x hx
    rcases Finset.mem_insert.mp hx with rfl | hx
    · rfl
    · rw [show s.opened = ∅ from h] at hx
      exact absurd hx (Finset.notMem_empty x)

@[simp] theorem clear_vacant_iff : s.clear.Vacant ↔ s.Vacant := Iff.rfl

@[simp] theorem clear_accounted_iff : s.clear.Accounted ↔ s.Vacant :=
  accounted_iff_vacant rfl

/-- Giving back the object just created leaves what was open before it. -/
@[simp] theorem acquire_release_opened : s.acquire.release.opened = s.opened := by
  refine Finset.erase_insert fun h => ?_
  exact absurd (s.fresh _ h) (lt_irrefl _)

@[simp] theorem acquire_release_vacant_iff : s.acquire.release.Vacant ↔ s.Vacant := by
  rw [Vacant, acquire_release_opened, Vacant]

/-- Giving back what is held leaves nothing open just when all was accounted for. -/
theorem release_vacant_iff : s.release.Vacant ↔ s.Accounted := by
  cases h : s.held with
  | none => simp [Vacant, release, h, accounted_iff_vacant h]
  | some x =>
    constructor
    · intro hs y hy
      by_contra hne
      have hy' : y ∈ s.release.opened := by
        simp only [release, h, Option.elim_some, Finset.mem_erase]
        exact ⟨fun hyx => hne (by rw [h, hyx]), hy⟩
      rw [show s.release.opened = ∅ from hs] at hy'
      exact Finset.notMem_empty y hy'
    · intro hs
      refine Finset.eq_empty_of_forall_notMem fun y hy => ?_
      simp only [release, h, Option.elim_some, Finset.mem_erase] at hy
      exact hy.1 (Option.some.inj ((hs y hy.2).symm.trans h))

@[simp] theorem release_accounted_iff : s.release.Accounted ↔ s.Accounted :=
  (accounted_iff_vacant rfl).trans release_vacant_iff

end Holder
