import Mathlib.Data.Nat.Digits.Lemmas
import Mathlib.Tactic

/-! # Marked digit strings

A natural number is written in base `b`, least significant digit first, and
every digit but the last is marked by adding `b`. A bounded scanner reads one
such string off the front of an arbitrary stream: it finishes on an unmarked
digit, gives up after `k` marked ones, or runs out of input.
-/

namespace VarLen

variable {b : ℕ}

/-- Mark every digit but the last; the empty digit string stands for zero. -/
def mark (b : ℕ) : List ℕ → List ℕ
  | [] => [0]
  | [d] => [d]
  | d :: e :: ds => (d + b) :: mark b (e :: ds)

/-- The marked base-`b` digits of a number. -/
def groups (b n : ℕ) : List ℕ := mark b (Nat.digits b n)

theorem length_mark (ds : List ℕ) : (mark b ds).length = max 1 ds.length := by
  induction ds with
  | nil => rfl
  | cons d ds ih =>
    cases ds with
    | nil => rfl
    | cons e ds => simp only [mark, List.length_cons] at ih ⊢; omega

theorem length_groups (n : ℕ) : (groups b n).length = max 1 (Nat.digits b n).length :=
  length_mark _

theorem groups_of_lt {n : ℕ} (h : n < b) : groups b n = [n] := by
  rcases Nat.eq_zero_or_pos n with rfl | hn
  · simp [groups, mark]
  · rw [groups, Nat.digits_of_lt b n hn.ne' h, mark]

theorem groups_of_le {n : ℕ} (hb : 1 < b) (h : b ≤ n) :
    groups b n = (n % b + b) :: groups b (n / b) := by
  have hn : 0 < n := by omega
  have hq : 0 < n / b := Nat.div_pos h (by omega)
  rw [groups, groups, Nat.digits_def' hb hn, Nat.digits_def' hb hq, mark]

/-- At most `k` digits are needed exactly below `b ^ k`. -/
theorem length_groups_le_iff (hb : 1 < b) {k : ℕ} (hk : 0 < k) (n : ℕ) :
    (groups b n).length ≤ k ↔ n < b ^ k := by
  rw [length_groups, ← Nat.digits_length_le_iff hb]
  omega

/-- What a bounded scanner finds at the front of a stream. -/
inductive Scan (α : Type*) where
  | done (value : ℕ) (rest : List α)
  | overlong (rest : List α)
  | truncated
  deriving DecidableEq, Repr

variable {α : Type*} {val : α → ℕ}

/-- Put one marked digit in front of what the rest of the scan found. -/
def Scan.push (b d : ℕ) : Scan α → Scan α
  | .done v rest => .done (d % b + b * v) rest
  | .overlong rest => .overlong rest
  | .truncated => .truncated

/-- Read at most `k` digits of a stream whose elements stand for the numbers `val`. -/
def scan (b : ℕ) (val : α → ℕ) : ℕ → List α → Scan α
  | 0, ds => .overlong ds
  | _ + 1, [] => .truncated
  | k + 1, d :: ds => if val d < b then .done (val d) ds else (scan b val k ds).push b (val d)

theorem scan_groups_append (hb : 1 < b) {k n : ℕ} {gs : List α} (hg : gs.map val = groups b n)
    (rest : List α) (h : gs.length ≤ k) : scan b val k (gs ++ rest) = .done n rest := by
  induction k generalizing n gs with
  | zero =>
    have hl := congrArg List.length hg
    rw [List.length_map, length_groups] at hl
    omega
  | succ k ih =>
    rcases Nat.lt_or_ge n b with hlt | hge
    · rw [groups_of_lt hlt, List.map_eq_singleton_iff] at hg
      obtain ⟨g, rfl, rfl⟩ := hg
      simp [scan, hlt]
    · rw [groups_of_le hb hge, List.map_eq_cons_iff] at hg
      obtain ⟨g, gs', rfl, hv, hg⟩ := hg
      have hm : ¬ n % b + b < b := by omega
      have hs := ih hg (by simpa using h)
      simp only [List.cons_append, scan, hv, hm, if_false, hs, Scan.push, Nat.add_mod_right,
        Nat.mod_mod, Nat.mod_add_div]

theorem scan_groups_overlong (hb : 1 < b) {k n : ℕ} {gs : List α} (hg : gs.map val = groups b n)
    (rest : List α) (h : k < gs.length) :
    scan b val k (gs ++ rest) = .overlong (gs.drop k ++ rest) := by
  induction k generalizing n gs with
  | zero => rfl
  | succ k ih =>
    rcases Nat.lt_or_ge n b with hlt | hge
    · rw [groups_of_lt hlt, List.map_eq_singleton_iff] at hg
      obtain ⟨g, rfl, -⟩ := hg
      simp at h
    · rw [groups_of_le hb hge, List.map_eq_cons_iff] at hg
      obtain ⟨g, gs', rfl, hv, hg⟩ := hg
      have hm : ¬ n % b + b < b := by omega
      have hs := ih hg (by simpa using h)
      simp only [List.cons_append, scan, hv, hm, if_false, hs, Scan.push, List.drop_succ_cons]

/-- A value read from at most `k` digits is below `b ^ k`. -/
theorem scan_done_lt (hb : 0 < b) {k v : ℕ} {ds rest : List α}
    (h : scan b val k ds = .done v rest) : v < b ^ k := by
  induction k generalizing ds v rest with
  | zero => simp [scan] at h
  | succ k ih =>
    cases ds with
    | nil => simp [scan] at h
    | cons d ds =>
      rw [scan] at h
      split at h
      · next hd =>
        simp only [Scan.done.injEq] at h
        calc v = val d := h.1.symm
          _ < b := hd
          _ ≤ b ^ (k + 1) := Nat.le_self_pow (by omega) b
      · cases hs : scan b val k ds with
        | done w r =>
          rw [hs, Scan.push] at h
          simp only [Scan.done.injEq] at h
          obtain ⟨rfl, -⟩ := h
          have hd := Nat.mod_lt (val d) hb
          calc val d % b + b * w < b + b * w := by omega
            _ = b * (w + 1) := by ring
            _ ≤ b * b ^ k := Nat.mul_le_mul_left b (ih hs)
            _ = b ^ (k + 1) := by ring
        | overlong r => rw [hs] at h; simp [Scan.push] at h
        | truncated => rw [hs] at h; simp [Scan.push] at h

/-! ## Where the scanner stops -/

/-- Marked digits, and an unmarked one at the end. -/
def IsField (b : ℕ) (val : α → ℕ) (field : List α) : Prop :=
  ∃ init last, field = init ++ [last] ∧ (∀ d ∈ init, b ≤ val d) ∧ val last < b

/-- The number that the digits stand for without their marks. -/
def value (b : ℕ) (val : α → ℕ) (field : List α) : ℕ :=
  Nat.ofDigits b (field.map fun d => val d % b)

theorem value_cons (d : α) (field : List α) :
    value b val (d :: field) = val d % b + b * value b val field := by
  simp [value, Nat.ofDigits_cons]

theorem isField_cons_iff {d : α} {field : List α} :
    IsField b val (d :: field) ↔ (field = [] ∧ val d < b) ∨ (b ≤ val d ∧ IsField b val field) := by
  constructor
  · rintro ⟨init, last, heq, hinit, hlast⟩
    cases init with
    | nil =>
      obtain ⟨rfl, rfl⟩ := List.cons.inj heq
      exact .inl ⟨rfl, hlast⟩
    | cons e init =>
      obtain ⟨rfl, rfl⟩ := List.cons.inj heq
      rw [List.forall_mem_cons] at hinit
      exact .inr ⟨hinit.1, init, last, rfl, hinit.2, hlast⟩
  · rintro (⟨rfl, hlast⟩ | ⟨hd, init, last, rfl, hinit, hlast⟩)
    · exact ⟨[], d, rfl, by simp, hlast⟩
    · exact ⟨d :: init, last, rfl, List.forall_mem_cons.mpr ⟨hd, hinit⟩, hlast⟩

theorem not_isField_nil : ¬ IsField b val [] := by
  rintro ⟨init, last, heq, -⟩
  simp at heq

theorem push_eq_done_iff {s : Scan α} {d v : ℕ} {rest : List α} :
    s.push b d = .done v rest ↔ ∃ w, s = .done w rest ∧ v = d % b + b * w := by
  cases s with
  | done w r =>
    simp only [Scan.push, Scan.done.injEq]
    grind
  | overlong r => simp [Scan.push]
  | truncated => simp [Scan.push]

theorem push_eq_overlong_iff {s : Scan α} {d : ℕ} {rest : List α} :
    s.push b d = .overlong rest ↔ s = .overlong rest := by
  cases s <;> simp [Scan.push]

theorem push_eq_truncated_iff {s : Scan α} {d : ℕ} :
    s.push b d = .truncated ↔ s = .truncated := by
  cases s <;> simp [Scan.push]

theorem scan_eq_done_iff {k v : ℕ} {ds rest : List α} :
    scan b val k ds = .done v rest ↔ ∃ field, ds = field ++ rest ∧ field.length ≤ k ∧
      IsField b val field ∧ value b val field = v := by
  induction k generalizing ds v with
  | zero =>
    rw [scan]
    refine iff_of_false nofun ?_
    rintro ⟨field, -, hlength, hfield, -⟩
    exact not_isField_nil (List.eq_nil_of_length_eq_zero (Nat.le_zero.mp hlength) ▸ hfield)
  | succ k ih =>
    cases ds with
    | nil =>
      rw [scan]
      refine iff_of_false nofun ?_
      rintro ⟨field, hnil, -, hfield, -⟩
      exact not_isField_nil ((List.append_eq_nil_iff.mp hnil.symm).1 ▸ hfield)
    | cons d ds =>
      rw [scan]
      constructor
      · intro h
        split at h
        · next hd =>
          obtain ⟨rfl, rfl⟩ := Scan.done.inj h
          refine ⟨[d], rfl, by simp, isField_cons_iff.mpr (.inl ⟨rfl, hd⟩), ?_⟩
          simp [value, Nat.mod_eq_of_lt hd]
        · next hd =>
          obtain ⟨w, hs, rfl⟩ := push_eq_done_iff.mp h
          obtain ⟨field, rfl, hlength, hfield, rfl⟩ := ih.mp hs
          exact ⟨d :: field, rfl, Nat.succ_le_succ hlength,
            isField_cons_iff.mpr (.inr ⟨not_lt.mp hd, hfield⟩), value_cons d field⟩
      · rintro ⟨field, heq, hlength, hfield, rfl⟩
        cases field with
        | nil => exact absurd hfield not_isField_nil
        | cons e field =>
          obtain ⟨rfl, hds⟩ := List.cons.inj heq
          obtain ⟨rfl, hd⟩ | ⟨hge, hfield⟩ := isField_cons_iff.mp hfield
          · rw [if_pos hd, hds]
            simp [value, Nat.mod_eq_of_lt hd]
          · rw [if_neg (not_lt.mpr hge), push_eq_done_iff]
            exact ⟨_, ih.mpr ⟨field, hds, Nat.le_of_succ_le_succ hlength, hfield, rfl⟩,
              value_cons d field⟩

theorem scan_eq_overlong_iff {k : ℕ} {ds rest : List α} :
    scan b val k ds = .overlong rest ↔
      ∃ field, ds = field ++ rest ∧ field.length = k ∧ ∀ d ∈ field, b ≤ val d := by
  induction k generalizing ds with
  | zero =>
    rw [scan, Scan.overlong.injEq]
    constructor
    · rintro rfl
      exact ⟨[], rfl, rfl, by simp⟩
    · rintro ⟨field, rfl, hlength, -⟩
      rw [List.eq_nil_of_length_eq_zero hlength, List.nil_append]
  | succ k ih =>
    cases ds with
    | nil =>
      rw [scan]
      refine iff_of_false nofun ?_
      rintro ⟨field, hnil, hlength, -⟩
      rw [(List.append_eq_nil_iff.mp hnil.symm).1] at hlength
      cases hlength
    | cons d ds =>
      rw [scan]
      constructor
      · intro h
        split at h
        · cases h
        · next hd =>
          obtain ⟨field, rfl, hlength, hfield⟩ := ih.mp (push_eq_overlong_iff.mp h)
          exact ⟨d :: field, rfl, by rw [List.length_cons, hlength],
            List.forall_mem_cons.mpr ⟨not_lt.mp hd, hfield⟩⟩
      · rintro ⟨field, heq, hlength, hfield⟩
        cases field with
        | nil => cases hlength
        | cons e field =>
          obtain ⟨rfl, hds⟩ := List.cons.inj heq
          rw [List.forall_mem_cons] at hfield
          rw [if_neg (not_lt.mpr hfield.1), push_eq_overlong_iff]
          exact ih.mpr ⟨field, hds, Nat.succ_injective hlength, hfield.2⟩

end VarLen
