import Mathlib.Tactic

/-! # Prefix codecs

A prefix codec writes a value as a string of symbols and reads it back from the
front of any longer string. The reader succeeds exactly where the encoding of a
valid value stands, so a value that is read is the one written there. Codecs are
put one after the other, made optional by a flag read before, and repeated up to
the end of the input.
-/

variable {β α γ : Type*}

/-- A writer and a reader of the valid values, with the proof that they agree. -/
structure PrefixCodec (β α : Type*) where
  Valid : α → Prop
  encode : α → List β
  decode : List β → Option (α × List β)
  decode_eq_some_iff : ∀ bs a rest,
    decode bs = some (a, rest) ↔ Valid a ∧ bs = encode a ++ rest

namespace PrefixCodec

variable (c : PrefixCodec β α) (d : PrefixCodec β γ) {a : α} {as : List α} {bs rest : List β}

theorem decode_encode (h : c.Valid a) (rest : List β) :
    c.decode (c.encode a ++ rest) = some (a, rest) :=
  (c.decode_eq_some_iff _ _ _).mpr ⟨h, rfl⟩

/-- Two codecs in a row. -/
def seq : PrefixCodec β (α × γ) where
  Valid p := c.Valid p.1 ∧ d.Valid p.2
  encode p := c.encode p.1 ++ d.encode p.2
  decode bs := (c.decode bs).bind fun (a, bs) => (d.decode bs).map fun (b, bs) => ((a, b), bs)
  decode_eq_some_iff bs p rest := by
    obtain ⟨a, b⟩ := p
    simp only [Option.bind_eq_some_iff, Option.map_eq_some_iff, Prod.exists, Prod.mk.injEq,
      c.decode_eq_some_iff, d.decode_eq_some_iff]
    constructor
    · rintro ⟨a', bs', ⟨ha, rfl⟩, b', rest', ⟨hb, rfl⟩, ⟨rfl, rfl⟩, rfl⟩
      exact ⟨⟨ha, hb⟩, (List.append_assoc ..).symm⟩
    · rintro ⟨⟨ha, hb⟩, rfl⟩
      exact ⟨a, _, ⟨ha, List.append_assoc ..⟩, b, rest, ⟨hb, rfl⟩, ⟨rfl, rfl⟩, rfl⟩

/-- A value that is there just when `present` says so. -/
def optional (present : Bool) : PrefixCodec β (Option α) where
  Valid o := o.isSome = present ∧ ∀ a ∈ o, c.Valid a
  encode o := o.elim [] c.encode
  decode bs :=
    if present then (c.decode bs).map fun (a, bs) => (some a, bs) else some (none, bs)
  decode_eq_some_iff bs o rest := by
    cases present with
    | false => cases o <;> simp
    | true =>
      cases o with
      | none => simp
      | some a => simp [Option.map_eq_some_iff, c.decode_eq_some_iff]

/-- Values up to the end of the input; each takes at least one symbol of the first argument. -/
def decodeAll : ℕ → List β → Option (List α)
  | _, [] => some []
  | 0, _ :: _ => none
  | n + 1, b :: bs => (c.decode (b :: bs)).bind fun (a, rest) => (decodeAll n rest).map (a :: ·)

theorem decodeAll_encode (hne : ∀ a, c.Valid a → c.encode a ≠ []) {n : ℕ}
    (hn : (as.flatMap c.encode).length ≤ n) (has : ∀ a ∈ as, c.Valid a) :
    c.decodeAll n (as.flatMap c.encode) = some as := by
  induction as generalizing n with
  | nil => cases n <;> rfl
  | cons a as ih =>
    obtain ⟨ha, has⟩ := List.forall_mem_cons.mp has
    obtain ⟨b, bs, hb⟩ := List.exists_cons_of_ne_nil (hne a ha)
    have hd := c.decode_encode ha (as.flatMap c.encode)
    rw [hb, List.cons_append] at hd
    rw [List.flatMap_cons, hb, List.cons_append, List.length_cons, List.length_append] at hn
    cases n with
    | zero => omega
    | succ n =>
      rw [List.flatMap_cons, hb, List.cons_append, decodeAll, hd]
      simp [ih (n := n) (by omega) has]

theorem of_decodeAll {n : ℕ} (h : c.decodeAll n bs = some as) :
    (∀ a ∈ as, c.Valid a) ∧ bs = as.flatMap c.encode := by
  induction n generalizing bs as with
  | zero =>
    cases bs with
    | nil =>
      obtain rfl : [] = as := Option.some.inj h
      simp
    | cons b bs => simp [decodeAll] at h
  | succ n ih =>
    cases bs with
    | nil =>
      obtain rfl : [] = as := Option.some.inj h
      simp
    | cons b bs =>
      simp only [decodeAll, Option.bind_eq_some_iff, Option.map_eq_some_iff, Prod.exists,
        c.decode_eq_some_iff] at h
      obtain ⟨a, rest, ⟨ha, hb⟩, as, has, rfl⟩ := h
      obtain ⟨hv, rfl⟩ := ih has
      exact ⟨List.forall_mem_cons.mpr ⟨ha, hv⟩, hb⟩

/-- The whole input as a list of values. -/
def all (bs : List β) : Option (List α) := c.decodeAll bs.length bs

/-- The lists read from an input, when no encoding is empty. -/
theorem all_eq_some_iff (hne : ∀ a, c.Valid a → c.encode a ≠ []) :
    c.all bs = some as ↔ (∀ a ∈ as, c.Valid a) ∧ bs = as.flatMap c.encode := by
  constructor
  · exact c.of_decodeAll
  · rintro ⟨has, rfl⟩
    exact c.decodeAll_encode hne le_rfl has

end PrefixCodec
