import MqttNativeSocket.Foundations.FirstMatch
import MqttNativeSocket.Subscriber.RecvLoop

/-! # Which callback a message runs

`dispatchPublish` takes the entry of the topic itself, else the first entry in the order of
the hash map whose filter matches, else the fallback. The order shows where matching entries
have different handlers, and an entry without a callback can hide one that has.
-/

namespace MqttNativeSocket

variable {κ : Type}

namespace Tables

/-- The entry's callback, else the fallback. -/
def handlerOf (t : Tables κ) (sub : TopicSub (Option κ)) : Option κ :=
  sub.callback.or t.fallbackCallback

/-- The same tables, with the hash map in some other order. -/
structure Reorders (t' t : Tables κ) : Prop where
  subscriptions : t'.subscriptions.entries.Perm t.subscriptions.entries
  fallbackCallback : t'.fallbackCallback = t.fallbackCallback

/-- One of the handlers that `dispatchPublish` may pick for the topic. -/
inductive Candidate (t : Tables κ) (topic : Bytes) : Option κ → Prop where
  | exact (sub : TopicSub (Option κ)) : t.subscriptions.lookup topic = some sub →
      Candidate t topic sub.callback
  | pattern (e : Sigma fun _ : Bytes => TopicSub (Option κ)) : t.subscriptions.lookup topic = none →
      e ∈ t.subscriptions.entries → topicMatchesFilter topic e.1 = true →
      Candidate t topic (t.handlerOf e.2)
  | fallback : t.subscriptions.lookup topic = none →
      (∀ e ∈ t.subscriptions.entries, topicMatchesFilter topic e.1 = false) →
      Candidate t topic t.fallbackCallback

variable {t t' : Tables κ} {topic : Bytes}

theorem findCallback_of_lookup {sub : TopicSub (Option κ)}
    (h : t.subscriptions.lookup topic = some sub) : t.findCallback topic = sub.callback := by
  rw [findCallback, h]

/-- Without an entry of its own the topic gets the first match, as the library picks it. -/
theorem findCallback_of_no_lookup (h : t.subscriptions.lookup topic = none) :
    t.findCallback topic = FirstMatch.pick (fun e => topicMatchesFilter topic e.1)
      (fun e => t.handlerOf e.2) t.fallbackCallback t.subscriptions.entries := by
  rw [findCallback, h, FirstMatch.pick]
  cases t.subscriptions.entries.find? fun e => topicMatchesFilter topic e.1 with
  | none => rfl
  | some e =>
    simp only [Option.bind_some, Option.map_some, Option.getD_some, handlerOf]
    cases e.2.callback <;> rfl

theorem Reorders.lookup (h : t'.Reorders t) (topic : Bytes) :
    t'.subscriptions.lookup topic = t.subscriptions.lookup topic :=
  AList.perm_lookup h.subscriptions

theorem Reorders.handlerOf (h : t'.Reorders t) : t'.handlerOf = t.handlerOf := by
  funext sub
  rw [Tables.handlerOf, Tables.handlerOf, h.fallbackCallback]

/-- Any order of the entries is the order of some tables. -/
theorem exists_reorders {entries : List (Sigma fun _ : Bytes => TopicSub (Option κ))}
    (h : entries.Perm t.subscriptions.entries) :
    ∃ t' : Tables κ, t'.Reorders t ∧ t'.subscriptions.entries = entries :=
  ⟨{ t with
      subscriptions := ⟨entries, (List.perm_nodupKeys h).mpr t.subscriptions.nodupKeys⟩
      zero_free := t.zero_free }, ⟨h, rfl⟩, rfl⟩

theorem findCallback_candidate (t : Tables κ) (topic : Bytes) :
    t.Candidate topic (t.findCallback topic) := by
  cases h : t.subscriptions.lookup topic with
  | some sub =>
    rw [findCallback_of_lookup h]
    exact .exact sub h
  | none =>
    rw [findCallback_of_no_lookup h]
    obtain ⟨e, he, hmatch, hpick⟩ | ⟨hnone, hpick⟩ :=
      FirstMatch.pick_cases (fun e => topicMatchesFilter topic e.1) (fun e => t.handlerOf e.2)
        t.fallbackCallback t.subscriptions.entries
    · rw [hpick]
      exact .pattern e h he hmatch
    · rw [hpick]
      exact .fallback h hnone

/-- All the entries that match the topic have the same handler. -/
def Unambiguous (t : Tables κ) (topic : Bytes) : Prop :=
  ∀ e ∈ t.subscriptions.entries, ∀ e' ∈ t.subscriptions.entries,
    topicMatchesFilter topic e.1 = true → topicMatchesFilter topic e'.1 = true →
      t.handlerOf e.2 = t.handlerOf e'.2

theorem findCallback_reorders_iff :
    (∀ t' : Tables κ, t'.Reorders t → t'.findCallback topic = t.findCallback topic) ↔
      topic ∈ t.subscriptions ∨ t.Unambiguous topic := by
  cases h : t.subscriptions.lookup topic with
  | some sub =>
    have hmem : topic ∈ t.subscriptions := by
      rw [← AList.lookup_isSome, h]
      rfl
    refine iff_of_true (fun t' ht' => ?_) (.inl hmem)
    rw [findCallback_of_lookup h, findCallback_of_lookup ((ht'.lookup topic).trans h)]
  | none =>
    have hno : topic ∉ t.subscriptions := AList.lookup_eq_none.mp h
    rw [or_iff_right hno, Unambiguous, findCallback_of_no_lookup h, ← FirstMatch.pick_perm_iff]
    constructor
    · intro hsame entries hperm
      obtain ⟨t', ht', rfl⟩ := exists_reorders hperm
      rw [← hsame t' ht', findCallback_of_no_lookup ((ht'.lookup topic).trans h), ht'.handlerOf,
        ht'.fallbackCallback]
    · intro hsame t' ht'
      rw [findCallback_of_no_lookup ((ht'.lookup topic).trans h), ht'.handlerOf,
        ht'.fallbackCallback, hsame _ ht'.subscriptions]

theorem Candidate.of_reorders (h : t'.Reorders t) {cb : Option κ} (hcb : t'.Candidate topic cb) :
    t.Candidate topic cb := by
  cases hcb with
  | exact sub hsub => exact .exact sub ((h.lookup topic).symm.trans hsub)
  | pattern e hno he hmatch =>
    rw [h.handlerOf]
    exact .pattern e ((h.lookup topic).symm.trans hno) (h.subscriptions.mem_iff.mp he) hmatch
  | fallback hno hnone =>
    rw [h.fallbackCallback]
    exact .fallback ((h.lookup topic).symm.trans hno) fun e he =>
      hnone e (h.subscriptions.mem_iff.mpr he)

/-! ## Who is willing to take the message -/

/-- An entry that is the topic or matches it has this callback, or the fallback is it. -/
def Handles (t : Tables κ) (topic : Bytes) (cb : κ) : Prop :=
  (∃ e ∈ t.subscriptions.entries, (e.1 = topic ∨ topicMatchesFilter topic e.1 = true) ∧
    e.2.callback = some cb) ∨ t.fallbackCallback = some cb

def Willing (t : Tables κ) (topic : Bytes) : Prop := ∃ cb, t.Handles topic cb

/--
An entry without a callback stands where the search ends: the topic's own entry, or, with no such
entry and no fallback, the first that matches.
-/
def StopsShort (t : Tables κ) (topic : Bytes) : Prop :=
  (∃ sub, t.subscriptions.lookup topic = some sub ∧ sub.callback = none) ∨
    t.subscriptions.lookup topic = none ∧ t.fallbackCallback = none ∧
      ∃ pre e post, t.subscriptions.entries = pre ++ e :: post ∧
        (∀ e' ∈ pre, topicMatchesFilter topic e'.1 = false) ∧
        topicMatchesFilter topic e.1 = true ∧ e.2.callback = none

theorem handles_of_findCallback {cb : κ} (h : t.findCallback topic = some cb) :
    t.Handles topic cb := by
  have hcandidate := t.findCallback_candidate topic
  generalize t.findCallback topic = o at h hcandidate
  cases hcandidate with
  | exact sub hsub =>
    exact .inl ⟨⟨topic, sub⟩, AList.mem_lookup_iff.mp hsub, .inl rfl, h⟩
  | pattern e hno he hmatch =>
    obtain hcb | ⟨-, hfallback⟩ := Option.or_eq_some_iff.mp h
    · exact .inl ⟨e, he, .inr hmatch, hcb⟩
    · exact .inr hfallback
  | fallback hno hnone => exact .inr h

theorem findCallback_of_stopsShort (h : t.StopsShort topic) : t.findCallback topic = none := by
  obtain ⟨sub, hsub, hnone⟩ | ⟨hno, hfallback, pre, e, post, hentries, hpre, he, hnone⟩ := h
  · rw [findCallback_of_lookup hsub, hnone]
  · have hfind :
        t.subscriptions.entries.find? (fun e => topicMatchesFilter topic e.1) = some e := by
      rw [List.find?_eq_some_iff_append]
      exact ⟨he, pre, post, hentries, fun e' he' => by simp [hpre e' he']⟩
    rw [findCallback_of_no_lookup hno, FirstMatch.pick, hfind]
    simp [handlerOf, hnone, hfallback]

theorem stopsShort_of_findCallback (h : t.findCallback topic = none) (hw : t.Willing topic) :
    t.StopsShort topic := by
  cases hlookup : t.subscriptions.lookup topic with
  | some sub =>
    rw [findCallback_of_lookup hlookup] at h
    exact .inl ⟨sub, hlookup, h⟩
  | none =>
    rw [findCallback_of_no_lookup hlookup, FirstMatch.pick] at h
    cases hfind : t.subscriptions.entries.find? fun e => topicMatchesFilter topic e.1 with
    | some e =>
      rw [hfind] at h
      obtain ⟨hcb, hfallback⟩ := Option.or_eq_none_iff.mp h
      obtain ⟨he, pre, post, hentries, hpre⟩ := List.find?_eq_some_iff_append.mp hfind
      exact .inr ⟨hlookup, hfallback, pre, e, post, hentries,
        fun e' he' => by simpa using hpre e' he', he, hcb⟩
    | none =>
      -- nothing matches, so only the fallback could have been willing
      rw [hfind] at h
      obtain ⟨cb, ⟨e, he, hmatch, -⟩ | hfallback⟩ := hw
      · obtain rfl | hmatch := hmatch
        · exact absurd (List.mem_map_of_mem he) (AList.lookup_eq_none.mp hlookup)
        · exact absurd hmatch (List.find?_eq_none.mp hfind e he)
      · exact absurd (h.symm.trans hfallback) (by simp)

end Tables

namespace RecvLoop

variable (callbacks : Callbacks κ) (s : RecvLoop κ) (info : PublishInfo)

theorem events_injective : Function.Injective (events (κ := κ) info) := by
  intro cb cb' h
  have hinvoked := List.append_cancel_left h
  cases cb with
  | none =>
    cases cb' with
    | none => rfl
    | some cb' => cases hinvoked
  | some cb =>
    cases cb' with
    | none => cases hinvoked
    | some cb' => simpa using hinvoked

/--
The callback that a message runs is the same for every order of the hash map exactly if the topic
has an entry of its own or all entries that match it have the same handler. In any order it is a
candidate for the topic.
-/
theorem dispatch_independent_of_order_iff :
    ((∀ t' : Tables κ, t'.Reorders s.tables →
        (dispatchPublish callbacks { s with tables := t' } info).log =
          (dispatchPublish callbacks s info).log) ↔
      info.topic ∈ s.tables.subscriptions ∨ s.tables.Unambiguous info.topic) ∧
    ∀ t' : Tables κ, t'.Reorders s.tables → ∃ cb, s.tables.Candidate info.topic cb ∧
      (dispatchPublish callbacks { s with tables := t' } info).log = s.log ++ events info cb := by
  have hlog (t' : Tables κ) : (dispatchPublish callbacks { s with tables := t' } info).log =
      s.log ++ events info (t'.findCallback info.topic) :=
    (dispatchPublish_spec callbacks { s with tables := t' } info).1
  constructor
  · rw [← Tables.findCallback_reorders_iff]
    refine forall₂_congr fun t' _ => ?_
    rw [hlog t', (dispatchPublish_spec callbacks s info).1, List.append_cancel_left_eq,
      (events_injective info).eq_iff]
  · intro t' h
    exact ⟨_, (t'.findCallback_candidate info.topic).of_reorders h, hlog t'⟩

/-- Callbacks that leave the tables alone. -/
def quietCallbacks : Callbacks κ := fun _ _ t => (t, .ok ())

/-- Two entries in this order. -/
def overlapping (first second : Bytes × Bool) (h : first.1 ≠ second.1) : RecvLoop Bool where
  tables :=
    { SubscribeState.initial with
      subscriptions := ⟨[⟨first.1, 0, some first.2⟩, ⟨second.1, 0, some second.2⟩], by
        simpa [List.NodupKeys, List.keys] using h⟩
      fallbackCallback := none
      zero_free := ⟨rfl, rfl⟩ }

/-- The first of the two filters gets the message. -/
theorem dispatch_depends_on_order :
    ∃ s s' : RecvLoop Bool, s'.tables.Reorders s.tables ∧
      (dispatchPublish quietCallbacks s ⟨ascii "a/b", 0, [], 0, false, false⟩).log =
        [.invoked true ⟨ascii "a/b", [], 0, false, false⟩] ∧
      (dispatchPublish quietCallbacks s' ⟨ascii "a/b", 0, [], 0, false, false⟩).log =
        [.invoked false ⟨ascii "a/b", [], 0, false, false⟩] := by
  refine ⟨overlapping (ascii "a/+", true) (ascii "a/#", false) (by decide),
    overlapping (ascii "a/#", false) (ascii "a/+", true) (by decide), ⟨.swap .., rfl⟩, ?_, ?_⟩
  · rfl
  · rfl

/--
The promise of the dispatcher: a message that some handler is willing to take runs one of them and
is not dropped, any other message runs nothing and is dropped.
-/
def ServesWilling : Prop :=
  (s.tables.Willing info.topic → ∃ cb, s.tables.Handles info.topic cb ∧
    (dispatchPublish callbacks s info).log = s.log ++ events info (some cb) ∧
    (dispatchPublish callbacks s info).droppedMessages = s.droppedMessages) ∧
  (¬ s.tables.Willing info.topic →
    (dispatchPublish callbacks s info).log = s.log ++ events info none ∧
    (dispatchPublish callbacks s info).droppedMessages = s.droppedMessages + 1)

/--
The promise is kept exactly unless a handler is willing and the search ends before it, at an entry
without a callback.
-/
theorem servesWilling_iff : ServesWilling callbacks s info ↔
    ¬ (s.tables.Willing info.topic ∧ s.tables.StopsShort info.topic) := by
  obtain ⟨hlog, -, hdropped⟩ := dispatchPublish_spec callbacks s info
  constructor
  · rintro hserves ⟨hw, hstops⟩
    obtain ⟨cb, -, hlog', -⟩ := hserves.1 hw
    rw [hlog, Tables.findCallback_of_stopsShort hstops, List.append_cancel_left_eq] at hlog'
    exact absurd (events_injective info hlog') nofun
  · intro hno
    constructor
    · intro hw
      cases hcb : s.tables.findCallback info.topic with
      | none => exact absurd ⟨hw, Tables.stopsShort_of_findCallback hcb hw⟩ hno
      | some cb =>
        rw [hcb] at hlog hdropped
        exact ⟨cb, Tables.handles_of_findCallback hcb, hlog, Nat.succ_injective hdropped⟩
    · intro hw
      cases hcb : s.tables.findCallback info.topic with
      | none =>
        rw [hcb] at hlog hdropped
        exact ⟨hlog, hdropped⟩
      | some cb => exact absurd ⟨cb, Tables.handles_of_findCallback hcb⟩ hw

/-- An entry without a callback for the topic, and a fallback. -/
def emptyEntry : RecvLoop Unit where
  tables :=
    { SubscribeState.initial with
      subscriptions := ⟨[⟨ascii "a", 0, none⟩], by simp [List.NodupKeys, List.keys]⟩
      fallbackCallback := some ()
      zero_free := ⟨rfl, rfl⟩ }

/-- The message is dropped although there is a fallback. -/
theorem dispatch_drops_willing :
    ¬ ServesWilling quietCallbacks emptyEntry ⟨ascii "a", 0, [], 0, false, false⟩ := by
  intro h
  obtain ⟨cb, -, -, hdropped⟩ := h.1 ⟨(), .inr rfl⟩
  exact absurd hdropped (by decide)

end RecvLoop

end MqttNativeSocket
