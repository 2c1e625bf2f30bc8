import MqttNativeSocket.Foundations.Wildcard
import MqttNativeSocket.Topic.Filter
import Mathlib.Data.List.TakeWhile

/-! # What a filter accepts

For any filter, well formed or not: what the scan accepts is an instance of the
filter. A `+` stands for what the scan drops of the current level, wherever in a
level it is written, and the first `#` for the rest of the topic.
-/

namespace MqttNativeSocket

/-- `topic` is `filter` with its wildcards replaced. -/
abbrev FilterInstance (filter topic : Bytes) : Prop :=
  Wildcard.Instance slash plus hash filter topic

/-- What `dropWhile` takes away has no separator. -/
theorem level_append_dropWhile (topic : Bytes) :
    slash ∉ topic.takeWhile (· ≠ slash) ∧
      topic = topic.takeWhile (· ≠ slash) ++ topic.dropWhile (· ≠ slash) := by
  refine ⟨fun h => ?_, (List.takeWhile_append_dropWhile ..).symm⟩
  simpa using List.mem_takeWhile_imp h

theorem instance_of_topicMatchesFilter {topic filter : Bytes}
    (h : topicMatchesFilter topic filter = true) : FilterInstance filter topic := by
  induction filter generalizing topic with
  | nil =>
    obtain rfl : topic = [] := by simpa [topicMatchesFilter] using h
    exact .nil
  | cons f fs ih =>
    cases topic with
    | nil =>
      -- the topic is used up: only `#` is left to accept it
      obtain rfl : f = hash := by simpa [topicMatchesFilter] using h
      exact .many fs []
    | cons t ts =>
      rw [topicMatchesFilter] at h
      split at h
      · next hf =>
        subst hf
        exact .many fs (t :: ts)
      · next hf =>
        split at h
        · next hp =>
          subst hp
          obtain ⟨hlevel, happend⟩ := level_append_dropWhile (t :: ts)
          rw [happend]
          exact .one _ hlevel (ih h)
        · next hp =>
          split at h
          · next ht =>
            subst ht
            exact .letter f hf hp (ih h)
          · simp at h

/--
Whatever the filter, a topic it accepts is one of its instances; without `#` the two have the same
number of slashes.
-/
theorem accepted_is_instance (topic filter : Bytes) (h : topicMatchesFilter topic filter = true) :
    FilterInstance filter topic ∧ (hash ∉ filter → topic.count slash = filter.count slash) := by
  have hinstance := instance_of_topicMatchesFilter h
  exact ⟨hinstance, fun hhash => hinstance.count_sep (by decide) hhash⟩

/-- Wildcards in the middle of a level. -/
theorem accepted_is_instance_malformed :
    FilterInstance (ascii "a+/#b") (ascii "axy/z/q") ∧
      (hash ∉ ascii "a+/#b" → (ascii "axy/z/q").count slash = (ascii "a+/#b").count slash) :=
  accepted_is_instance (ascii "axy/z/q") (ascii "a+/#b") (by decide)

end MqttNativeSocket
