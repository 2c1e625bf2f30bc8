import MqttNativeSocket.Core.Basic

/-! # Topic filters

`topicMatchesFilter` scans topic and filter character by character. The rules of
MQTT section 4.7 compare them level by level. On well-formed filters the scan
departs from the rules in three places only: a last `+` never matches an empty
level, a last `#` never matches zero levels, and a leading wildcard does match a
topic that begins with `$`.
-/

namespace MqttNativeSocket

def slash : UInt8 := 0x2F

def plus : UInt8 := 0x2B

def hash : UInt8 := 0x23

def dollar : UInt8 := 0x24

/--
The scan, from the rest of the topic and the rest of the filter on. Each turn of the loop either
returns or consumes one character of the filter.
-/
def topicMatchesFilter (topic : Bytes) : Bytes → Bool
  | [] => topic.isEmpty
  | f :: fs =>
    match topic with
    | [] => f = hash
    | t :: ts =>
      if f = hash then true
      else if f = plus then topicMatchesFilter ((t :: ts).dropWhile (· ≠ slash)) fs
      else if f = t then topicMatchesFilter ts fs
      else false

/-! ## The rules of section 4.7 -/

/-- The levels of a topic name or filter. -/
def levels (s : Bytes) : List Bytes := s.splitOn slash

/-- Levels of a filter against levels of a topic; a final `#` stands for any number of them. -/
def LevelsMatch : List Bytes → List Bytes → Prop
  | [], ts => ts = []
  | f :: fs, [] => f = [hash] ∧ fs = []
  | f :: fs, t :: ts => (f = [hash] ∧ fs = []) ∨ ((f = [plus] ∨ f = t) ∧ LevelsMatch fs ts)

instance decidableLevelsMatch : ∀ fs ts, Decidable (LevelsMatch fs ts)
  | [], ts => inferInstanceAs (Decidable (ts = []))
  | f :: fs, [] => inferInstanceAs (Decidable (f = [hash] ∧ fs = []))
  | f :: fs, t :: ts =>
    have := decidableLevelsMatch fs ts
    inferInstanceAs
      (Decidable ((f = [hash] ∧ fs = []) ∨ ((f = [plus] ∨ f = t) ∧ LevelsMatch fs ts)))

/-- A filter beginning with a wildcard against a topic beginning with `$`. -/
def DollarExcluded (topic filter : Bytes) : Prop :=
  (filter.head? = some plus ∨ filter.head? = some hash) ∧ topic.head? = some dollar
  deriving Decidable

/-- The topic name matches the topic filter under section 4.7. -/
def MatchesRules (topic filter : Bytes) : Prop :=
  LevelsMatch (levels filter) (levels topic) ∧ ¬ DollarExcluded topic filter
  deriving Decidable

/-- `+` stands only as a whole level, `#` only as the whole last level. -/
structure WellFormedLevels (fs : List Bytes) : Prop where
  plus_alone : ∀ l ∈ fs, plus ∈ l → l = [plus]
  hash_alone : ∀ l ∈ fs, hash ∈ l → l = [hash]
  hash_last : ∀ l ∈ fs.dropLast, hash ∉ l

def WellFormed (filter : Bytes) : Prop := WellFormedLevels (levels filter)

/-! ## The scan by levels -/

/-- The two ends that the scan misses: an empty last level for `+`, no level at all for `#`. -/
def EndsShort (fs ts : List Bytes) : Prop :=
  (fs.getLast? = some [plus] ∧ ts.getLast? = some []) ∨
    (fs.getLast? = some [hash] ∧ fs.length = ts.length + 1)
  deriving Decidable

theorem WellFormedLevels.tail {f : Bytes} {fs : List Bytes} (h : WellFormedLevels (f :: fs)) :
    WellFormedLevels fs where
  plus_alone l hl := h.plus_alone l (List.mem_cons_of_mem _ hl)
  hash_alone l hl := h.hash_alone l (List.mem_cons_of_mem _ hl)
  hash_last l hl := h.hash_last l (by
    cases fs with
    | nil => simp at hl
    | cons g fs => exact List.mem_cons_of_mem _ hl)

theorem endsShort_cons_cons {f t g u : Bytes} {fs ts : List Bytes} :
    EndsShort (f :: g :: fs) (t :: u :: ts) ↔ EndsShort (g :: fs) (u :: ts) := by
  simp [EndsShort]

theorem dropWhile_level {t r : Bytes} (h : slash ∉ t) :
    (t ++ r).dropWhile (· ≠ slash) = r.dropWhile (· ≠ slash) := by
  refine List.dropWhile_append_of_pos fun x hx => ?_
  simpa using fun he : x = slash => h (he ▸ hx)

/-- Characters other than wildcards must be equal. -/
theorem topicMatchesFilter_literal {l r : Bytes} (topic : Bytes) (hp : plus ∉ l) (hh : hash ∉ l) :
    topicMatchesFilter topic (l ++ r) = true ↔
      ∃ more, topic = l ++ more ∧ topicMatchesFilter more r = true := by
  induction l generalizing topic with
  | nil => simp
  | cons c l ih =>
    have hcp : c ≠ plus := fun h => hp (by simp [h])
    have hch : c ≠ hash := fun h => hh (by simp [h])
    cases topic with
    | nil => simp [topicMatchesFilter, hch]
    | cons t ts =>
      have ih' := ih ts (fun h => hp (List.mem_cons_of_mem _ h))
        (fun h => hh (List.mem_cons_of_mem _ h))
      by_cases hct : c = t
      · subst hct
        simpa [topicMatchesFilter, hcp, hch] using ih'
      · simp [topicMatchesFilter, hcp, hch, hct, Ne.symm hct]

theorem topicMatchesFilter_slash (topic rest : Bytes) :
    topicMatchesFilter topic (slash :: rest) = true ↔
      ∃ more, topic = slash :: more ∧ topicMatchesFilter more rest = true :=
  topicMatchesFilter_literal (l := [slash]) topic (by decide) (by decide)

/-- A `+` at the end of the topic fails; elsewhere it consumes the rest of the level. -/
theorem topicMatchesFilter_plus (topic rest : Bytes) :
    topicMatchesFilter topic (plus :: rest) = true ↔
      topic ≠ [] ∧ topicMatchesFilter (topic.dropWhile (· ≠ slash)) rest = true := by
  cases topic with
  | nil => simp [topicMatchesFilter]; decide
  | cons t ts => rw [topicMatchesFilter, if_neg (by decide), if_pos rfl]; simp

theorem topicMatchesFilter_hash (topic : Bytes) : topicMatchesFilter topic [hash] = true := by
  cases topic <;> simp [topicMatchesFilter]

end MqttNativeSocket
