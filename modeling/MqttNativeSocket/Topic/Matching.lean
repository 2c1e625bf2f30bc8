import MqttNativeSocket.Topic.Filter

/-! # The scan against the rules

Induction on the levels of a well-formed filter. Each level is a `+`, a final
`#`, or a literal, and each says what the scan leaves of the topic.
-/

namespace MqttNativeSocket

/-- Levels joined by slashes. -/
def joinLevels (ls : List Bytes) : Bytes := [slash].intercalate ls

theorem joinLevels_levels (s : Bytes) : joinLevels (levels s) = s := List.intercalate_splitOn slash

@[simp] theorem joinLevels_singleton (l : Bytes) : joinLevels [l] = l := List.intercalate_singleton

@[simp] theorem joinLevels_cons_cons (l m : Bytes) (ls : List Bytes) :
    joinLevels (l :: m :: ls) = l ++ slash :: joinLevels (m :: ls) := by
  simp [joinLevels, List.intercalate_cons_cons]

theorem levels_ne_nil (s : Bytes) : levels s ≠ [] := List.splitOn_ne_nil slash s

theorem slash_not_mem_levels (s : Bytes) : ∀ l ∈ levels s, slash ∉ l := by
  induction s with
  | nil => simp [levels]
  | cons c s ih =>
    intro l hl
    rw [levels, List.splitOn_cons_eq_if_modifyHead] at hl
    split at hl
    · rcases List.mem_cons.mp hl with rfl | hl
      · simp
      · exact ih l hl
    · next hc =>
      cases hs : s.splitOn slash with
      | nil => rw [hs] at hl; simp at hl
      | cons m ms =>
        rw [hs, List.modifyHead_cons] at hl
        rcases List.mem_cons.mp hl with rfl | hl
        · have hm := ih m (by rw [levels, hs]; simp)
          have hne : slash ≠ c := fun h => hc (by simp [h])
          simp [hne, hm]
        · exact ih l (by rw [levels, hs]; simp [hl])

theorem split_at_slash {t f x y : Bytes} (ht : slash ∉ t) (hf : slash ∉ f)
    (h : t ++ slash :: x = f ++ slash :: y) : t = f ∧ x = y := by
  have hs := congrArg (List.splitOn slash) h
  rw [List.splitOn_append_cons_self_of_not_mem ht,
    List.splitOn_append_cons_self_of_not_mem hf] at hs
  have htf := (List.cons.inj hs).1
  subst htf
  simpa using h

/-- What the scan does at a level without wildcards. -/
theorem scan_literal {f : Bytes} {fs : List Bytes} (hp : plus ∉ f) (hh : hash ∉ f)
    (hf : slash ∉ f) {ts : List Bytes} (hne : ts ≠ []) (hts : ∀ t ∈ ts, slash ∉ t)
    (ih : ∀ u us, ts = f :: u :: us → fs ≠ [] →
      (topicMatchesFilter (joinLevels (u :: us)) (joinLevels fs) = true ↔
        LevelsMatch fs (u :: us) ∧ ¬ EndsShort fs (u :: us))) :
    topicMatchesFilter (joinLevels ts) (joinLevels (f :: fs)) = true ↔
      LevelsMatch (f :: fs) ts ∧ ¬ EndsShort (f :: fs) ts := by
  have hfp : f ≠ [plus] := fun h => hp (by simp [h])
  have hfh : f ≠ [hash] := fun h => hh (by simp [h])
  obtain ⟨t, ts, rfl⟩ := List.exists_cons_of_ne_nil hne
  have ht := hts t (by simp)
  cases fs with
  | nil =>
    have hlit := topicMatchesFilter_literal (l := f) (r := []) (joinLevels (t :: ts)) hp hh
    simp only [List.append_nil, topicMatchesFilter, List.isEmpty_iff] at hlit
    rw [joinLevels_singleton, hlit]
    cases ts with
    | nil =>
      simp only [joinLevels_singleton, LevelsMatch, EndsShort, hfp, hfh]
      simp [hfp, hfh, eq_comm]
    | cons u us =>
      simp only [joinLevels_cons_cons, LevelsMatch, hfp, hfh]
      simp only [exists_eq_right, List.append_nil, reduceCtorEq, and_false, false_and, or_false,
        iff_false]
      intro h
      exact hf (h ▸ by simp)
  | cons g gs =>
    rw [joinLevels_cons_cons, topicMatchesFilter_literal _ hp hh]
    simp only [topicMatchesFilter_slash]
    cases ts with
    | nil =>
      simp only [joinLevels_singleton, LevelsMatch, EndsShort]
      constructor
      · rintro ⟨-, htf, more, rfl, -⟩
        exact absurd (by simp [htf]) ht
      · rintro ⟨⟨-, hnil⟩ | ⟨-, rfl, rfl⟩, hshort⟩
        · cases hnil
        · exact absurd (Or.inr ⟨rfl, rfl⟩) hshort
    | cons u us =>
      rw [joinLevels_cons_cons, endsShort_cons_cons]
      constructor
      · rintro ⟨-, h, more, rfl, hmatch⟩
        obtain ⟨rfl, rfl⟩ := split_at_slash ht hf h
        obtain ⟨hl, hs⟩ := (ih u us rfl (by simp)).mp hmatch
        exact ⟨Or.inr ⟨Or.inr rfl, hl⟩, hs⟩
      · rintro ⟨⟨h, -⟩ | ⟨h | rfl, hl⟩, hs⟩
        · exact absurd h hfh
        · exact absurd h hfp
        · exact ⟨_, rfl, _, rfl, (ih u us rfl (by simp)).mpr ⟨hl, hs⟩⟩

/-- What the scan does at a `+`. -/
theorem scan_plus {fs ts : List Bytes} (hne : ts ≠ []) (hts : ∀ t ∈ ts, slash ∉ t)
    (ih : ∀ t u us, ts = t :: u :: us → fs ≠ [] →
      (topicMatchesFilter (joinLevels (u :: us)) (joinLevels fs) = true ↔
        LevelsMatch fs (u :: us) ∧ ¬ EndsShort fs (u :: us))) :
    topicMatchesFilter (joinLevels ts) (joinLevels ([plus] :: fs)) = true ↔
      LevelsMatch ([plus] :: fs) ts ∧ ¬ EndsShort ([plus] :: fs) ts := by
  have hph : ([plus] : Bytes) ≠ [hash] := by decide
  obtain ⟨t, ts, rfl⟩ := List.exists_cons_of_ne_nil hne
  have ht := hts t (by simp)
  have hdrop : t.dropWhile (· ≠ slash) = [] := by simpa using dropWhile_level (r := []) ht
  cases fs with
  | nil =>
    rw [joinLevels_singleton, topicMatchesFilter_plus]
    simp only [topicMatchesFilter, List.isEmpty_iff]
    cases ts with
    | nil =>
      simp only [joinLevels_singleton, hdrop, LevelsMatch, EndsShort, hph]
      simp [hph]
    | cons u us =>
      have hd : (t ++ slash :: joinLevels (u :: us)).dropWhile (· ≠ slash) =
          slash :: joinLevels (u :: us) := by rw [dropWhile_level ht]; rfl
      simp only [joinLevels_cons_cons, hd, LevelsMatch, hph]
      simp
  | cons g gs =>
    rw [joinLevels_cons_cons, List.singleton_append, topicMatchesFilter_plus]
    cases ts with
    | nil =>
      simp only [joinLevels_singleton, hdrop, topicMatchesFilter, LevelsMatch, EndsShort]
      have hsh : slash ≠ hash := by decide
      simp only [hsh, decide_false, Bool.false_eq_true, and_false, false_iff, not_and]
      rintro (⟨-, hnil⟩ | ⟨-, rfl, rfl⟩) hshort
      · cases hnil
      · exact hshort (Or.inr ⟨rfl, rfl⟩)
    | cons u us =>
      have hd : (t ++ slash :: joinLevels (u :: us)).dropWhile (· ≠ slash) =
          slash :: joinLevels (u :: us) := by rw [dropWhile_level ht]; rfl
      rw [joinLevels_cons_cons, hd, topicMatchesFilter_slash, endsShort_cons_cons]
      constructor
      · rintro ⟨-, more, h, hmatch⟩
        obtain rfl := (List.cons.inj h).2
        obtain ⟨hl, hs⟩ := (ih t u us rfl (by simp)).mp hmatch
        exact ⟨Or.inr ⟨Or.inl rfl, hl⟩, hs⟩
      · rintro ⟨⟨-, h⟩ | ⟨-, hl⟩, hs⟩
        · cases h
        · exact ⟨by simp, _, rfl, (ih t u us rfl (by simp)).mpr ⟨hl, hs⟩⟩

/-- On a well-formed filter the scan is the comparison of levels, less the two missed ends. -/
theorem scan_iff {fs ts : List Bytes} (hfs : fs ≠ []) (hwf : WellFormedLevels fs)
    (hsf : ∀ f ∈ fs, slash ∉ f) (hts : ts ≠ []) (hst : ∀ t ∈ ts, slash ∉ t) :
    topicMatchesFilter (joinLevels ts) (joinLevels fs) = true ↔
      LevelsMatch fs ts ∧ ¬ EndsShort fs ts := by
  induction fs generalizing ts with
  | nil => exact absurd rfl hfs
  | cons f fs ih =>
    have ih' : ∀ u us t, ts = t :: u :: us → fs ≠ [] →
        (topicMatchesFilter (joinLevels (u :: us)) (joinLevels fs) = true ↔
          LevelsMatch fs (u :: us) ∧ ¬ EndsShort fs (u :: us)) := by
      rintro u us t rfl hne
      exact ih hne hwf.tail (fun g hg => hsf g (List.mem_cons_of_mem _ hg)) (by simp)
        (fun x hx => hst x (List.mem_cons_of_mem _ hx))
    by_cases hp : plus ∈ f
    · obtain rfl := hwf.plus_alone f (by simp) hp
      exact scan_plus hts hst fun t u us => ih' u us t
    · by_cases hh : hash ∈ f
      · obtain rfl := hwf.hash_alone f (by simp) hh
        cases fs with
        | nil =>
          obtain ⟨t, ts, rfl⟩ := List.exists_cons_of_ne_nil hts
          rw [joinLevels_singleton, topicMatchesFilter_hash]
          have hne : hash ≠ plus := by decide
          simp [LevelsMatch, EndsShort, hne]
        | cons g gs => exact absurd (by simp) (hwf.hash_last [hash] (by simp))
      · exact scan_literal hp hh (hsf f (by simp)) hts hst fun u us => ih' u us f

/--
The scan agrees with section 4.7 on a well-formed filter, unless the levels match and just one
of its departures applies: an end that it misses, or the `$` rule that it lacks.
-/
theorem topicMatchesFilter_agrees_iff (topic filter : Bytes) (h : WellFormed filter) :
    (topicMatchesFilter topic filter = true ↔ MatchesRules topic filter) ↔
      (LevelsMatch (levels filter) (levels topic) →
        (EndsShort (levels filter) (levels topic) ↔ DollarExcluded topic filter)) := by
  have hscan := scan_iff (levels_ne_nil filter) h (slash_not_mem_levels filter)
    (levels_ne_nil topic) (slash_not_mem_levels topic)
  rw [joinLevels_levels, joinLevels_levels] at hscan
  rw [hscan, MatchesRules, and_congr_right_iff, not_iff_not]

theorem topicMatchesFilter_agrees_plain :
    (topicMatchesFilter (ascii "a/b") (ascii "a/+") = true ↔
        MatchesRules (ascii "a/b") (ascii "a/+")) ↔
      (LevelsMatch (levels (ascii "a/+")) (levels (ascii "a/b")) →
        (EndsShort (levels (ascii "a/+")) (levels (ascii "a/b")) ↔
          DollarExcluded (ascii "a/b") (ascii "a/+"))) :=
  topicMatchesFilter_agrees_iff (ascii "a/b") (ascii "a/+")
    ⟨by decide, by decide, by decide⟩

/-- The parent level: `a/b/#` is well formed and should match `a/b`, but the scan says no. -/
theorem topicMatchesFilter_misses_parent :
    WellFormed (ascii "a/b/#") ∧
      ¬ (topicMatchesFilter (ascii "a/b") (ascii "a/b/#") = true ↔
        MatchesRules (ascii "a/b") (ascii "a/b/#")) :=
  ⟨⟨by decide, by decide, by decide⟩, by decide⟩

end MqttNativeSocket
