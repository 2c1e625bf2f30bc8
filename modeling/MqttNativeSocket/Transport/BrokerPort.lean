import MqttNativeSocket.Foundations.Split
import MqttNativeSocket.Transport.BrokerUrl
import Mathlib.Data.List.TakeWhile

/-! # The port a URL names

A URL is cut around its first `://`, at the first slash after it and around the last
colon that remains. It names a port if what follows the colon is a 16-bit decimal
number. The parser takes any text that `std::stoi` takes and keeps the low 16 bits.
-/

namespace MqttNativeSocket

def colon : UInt8 := 0x3A

namespace Url

/-- The URL around the first `://`; without one all of it comes after. -/
def parts (url : Bytes) : Bytes × Bytes := (Split.first (ascii "://") url).getD ([], url)

def scheme (url : Bytes) : Bytes := (parts url).1

def authority (url : Bytes) : Bytes := (parts url).2.takeWhile (· != 0x2F)

/-- The authority around its last colon. -/
def hostAndPort (url : Bytes) : Option (Bytes × Bytes) := Split.last colon (authority url)

def host (url : Bytes) : Bytes := ((hostAndPort url).map Prod.fst).getD (authority url)

def portText (url : Bytes) : Option Bytes := (hostAndPort url).map Prod.snd

def IsTls (url : Bytes) : Prop := scheme url = ascii "ssl" ∨ scheme url = ascii "tls"

instance (url : Bytes) : Decidable (IsTls url) := inferInstanceAs (Decidable (_ ∨ _))

def defaultPort (url : Bytes) : UInt16 := if IsTls url then 8883 else 1883

end Url

/-- A nonempty string of decimal digits with a value of at most 65535. -/
def IsPort (text : Bytes) : Prop :=
  text ≠ [] ∧ (∀ c ∈ text, isDigit c = true) ∧ decimal text ≤ 65535

instance (text : Bytes) : Decidable (IsPort text) := inferInstanceAs (Decidable (_ ∧ _ ∧ _))

/-- The port that the URL names, else the scheme's default. -/
def namedPort (url : Bytes) : UInt16 :=
  match Url.portText url with
  | some text => if IsPort text then UInt16.ofNat (decimal text) else Url.defaultPort url
  | none => Url.defaultPort url

/--
`text` begins with white space, an optional sign and digits; `value` is what they say. Anything
may follow the last digit.
-/
def BeginsWithNumber (text : Bytes) (value : ℤ) : Prop :=
  ∃ spaces sign digits rest : Bytes, text = spaces ++ (sign ++ (digits ++ rest)) ∧
    (∀ c ∈ spaces, isSpace c = true) ∧ digits ≠ [] ∧ (∀ c ∈ digits, isDigit c = true) ∧
    (∀ c ∈ rest.head?, isDigit c = false) ∧
    ((sign = [] ∨ sign = ascii "+") ∧ value = decimal digits ∨
      sign = ascii "-" ∧ value = -decimal digits)

/-! ## The parser -/

theorem find_eq_map_first (pat s : Bytes) :
    find pat s = (Split.first pat s).map fun p => p.1.length := Split.findIdx?_tails_eq_first

theorem rfind_eq_map_last (c : UInt8) (s : Bytes) :
    rfind c s = (Split.last c s).map fun p => p.1.length := Split.findIdx?_reverse_eq_last

/-- What the parser makes of the text after the last colon. -/
def readPort (default : UInt16) : Option Bytes → UInt16
  | some text => (stoi text).elim default UInt16.ofInt
  | none => default

/-- The URL around its scheme, as the parser finds it. -/
theorem parts_eq (url : Bytes) : Url.parts url =
    match find (ascii "://") url with
    | some i => (url.take i, url.drop (i + 3))
    | none => ([], url) := by
  rw [find_eq_map_first, Url.parts]
  cases h : Split.first (ascii "://") url with
  | none => rfl
  | some p =>
    have hurl := Split.eq_append_of_first h
    have hlength : p.1.length + 3 = (p.1 ++ ascii "://").length := by
      rw [List.length_append]
      rfl
    simp only [Option.map_some, Option.getD_some]
    have htake : url.take p.1.length = p.1 := by rw [hurl, List.take_left]
    have hdrop : url.drop (p.1.length + 3) = p.2 := by
      rw [hlength, hurl, ← List.append_assoc, List.drop_left]
    rw [htake, hdrop]

/-- The rest of the parser, with what it has found so far in `addr`. -/
theorem parse_authority (addr : BrokerAddress) (rest : Bytes) :
    (match rfind 0x3A rest with
      | some i =>
        match stoi (rest.drop (i + 1)) with
        | some port => { addr with host := rest.take i, port := UInt16.ofInt port }
        | none => { addr with host := rest.take i }
      | none => { addr with host := rest }) =
    { addr with
      host := ((Split.last colon rest).map Prod.fst).getD rest
      port := readPort addr.port ((Split.last colon rest).map Prod.snd) } := by
  rw [rfind_eq_map_last]
  change (match (Split.last colon rest).map fun p => p.1.length with | some i => _ | none => _) = _
  cases h : Split.last colon rest with
  | none => rfl
  | some p =>
    obtain ⟨hrest, -⟩ := Split.eq_append_of_last h
    have htake : rest.take p.1.length = p.1 := by rw [hrest, List.take_left]
    have hdrop : rest.drop (p.1.length + 1) = p.2 := by
      rw [hrest, ← List.drop_drop, List.drop_left]
      rfl
    simp only [Option.map_some, Option.getD_some, htake, hdrop, readPort]
    cases stoi p.2 with
    | none => rfl
    | some port => rfl

/-- The parser cuts the URL where the specification does. -/
theorem parseBrokerUrl_eq (url : Bytes) : parseBrokerUrl url =
    { host := Url.host url
      port := readPort (Url.defaultPort url) (Url.portText url)
      useTls := decide (Url.IsTls url) } := by
  cases hfind : find (ascii "://") url with
  | none =>
    have hparts : Url.parts url = ([], url) := by rw [parts_eq, hfind]
    have htls : ¬ Url.IsTls url := by
      rw [Url.IsTls, Url.scheme, hparts]
      exact (by decide : ¬ (([] : Bytes) = ascii "ssl" ∨ ([] : Bytes) = ascii "tls"))
    rw [Url.host, Url.portText, Url.hostAndPort, Url.authority, hparts, Url.defaultPort,
      if_neg htls, decide_eq_false htls]
    simp only [parseBrokerUrl, hfind]
    exact parse_authority {} _
  | some i =>
    have hparts : Url.parts url = (url.take i, url.drop (i + 3)) := by rw [parts_eq, hfind]
    have htls : Url.IsTls url ↔ url.take i = ascii "ssl" ∨ url.take i = ascii "tls" := by
      rw [Url.IsTls, Url.scheme, hparts]
    rw [Url.host, Url.portText, Url.hostAndPort, Url.authority, hparts, Url.defaultPort]
    simp only [parseBrokerUrl, hfind, htls]
    by_cases h : url.take i = ascii "ssl" ∨ url.take i = ascii "tls"
    · simp only [if_pos h, decide_eq_true h]
      exact parse_authority { useTls := true, port := 8883 } _
    · simp only [if_neg h, decide_eq_false h]
      exact parse_authority {} _

/-! ## Ports -/

theorem dropWhile_append_of_head {p : UInt8 → Bool} {xs ys : Bytes} (hxs : ∀ c ∈ xs, p c = true)
    (hys : ∀ c ∈ ys.head?, p c = false) : (xs ++ ys).dropWhile p = ys := by
  rw [List.dropWhile_append_of_pos hxs]
  cases ys with
  | nil => rfl
  | cons c ys => rw [List.dropWhile_cons_of_neg (by simp [hys c rfl])]

theorem takeWhile_append_of_head {p : UInt8 → Bool} {xs ys : Bytes} (hxs : ∀ c ∈ xs, p c = true)
    (hys : ∀ c ∈ ys.head?, p c = false) : (xs ++ ys).takeWhile p = xs := by
  rw [List.takeWhile_append_of_pos hxs]
  cases ys with
  | nil => simp
  | cons c ys => rw [List.takeWhile_cons_of_neg (by simp [hys c rfl]), List.append_nil]

/-- A letter that `std::stoi` takes for nothing but a digit. -/
theorem number_begins_of_isDigit {c : UInt8} (h : isDigit c = true) :
    isSpace c = false ∧ c ≠ 0x2B ∧ c ≠ 0x2D := by
  simp only [isDigit, isSpace, Bool.and_eq_true, decide_eq_true_eq, UInt8.le_iff_toNat_le] at h ⊢
  simp only [Bool.or_eq_false_iff, beq_eq_false_iff_ne, ne_eq, ← UInt8.toNat_inj]
  simp at *
  omega

/-- The last test of `std::stoi`. -/
def inIntRange (value : ℤ) : Option ℤ :=
  if -2147483648 ≤ value ∧ value ≤ 2147483647 then some value else none

theorem inIntRange_eq_some_iff {value v : ℤ} : inIntRange value = some v ↔
    value = v ∧ -2147483648 ≤ v ∧ v ≤ 2147483647 := by
  rw [inIntRange]
  split
  · next h =>
    rw [Option.some.injEq]
    exact ⟨fun hv => ⟨hv, hv ▸ h⟩, And.left⟩
  · next h =>
    refine iff_of_false nofun ?_
    rintro ⟨rfl, hv⟩
    exact h hv

section Parts

variable {spaces digits rest : Bytes} (hspaces : ∀ c ∈ spaces, isSpace c = true)
  (hdigits : ∀ c ∈ digits, isDigit c = true) (hrest : ∀ c ∈ rest.head?, isDigit c = false)

include hspaces hdigits hrest

theorem stoi_unsigned (hhead : ∀ c ∈ (digits ++ rest).head?,
    isSpace c = false ∧ c ≠ 0x2B ∧ c ≠ 0x2D) :
    stoi (spaces ++ (digits ++ rest)) =
      if digits.isEmpty then none else inIntRange (decimal digits) := by
  have hdrop := dropWhile_append_of_head hspaces fun c hc => (hhead c hc).1
  have hminus : ((digits ++ rest).head? == some 0x2D) = false :=
    beq_false_of_ne fun h => (hhead _ h).2.2 rfl
  have hplus : ((digits ++ rest).head? == some 0x2B) = false :=
    beq_false_of_ne fun h => (hhead _ h).2.1 rfl
  simp only [stoi, hdrop, hminus, hplus, takeWhile_append_of_head hdigits hrest, inIntRange,
    Bool.or_self, Bool.false_eq_true, if_false]

theorem stoi_plus :
    stoi (spaces ++ (ascii "+" ++ (digits ++ rest))) =
      if digits.isEmpty then none else inIntRange (decimal digits) := by
  have hdrop : (spaces ++ (ascii "+" ++ (digits ++ rest))).dropWhile isSpace = _ :=
    dropWhile_append_of_head hspaces fun c hc => by
      obtain rfl : 0x2B = c := Option.some.inj hc
      decide
  have htail : (ascii "+" ++ (digits ++ rest)).tail = digits ++ rest := rfl
  have hplus : ((ascii "+" ++ (digits ++ rest)).head? == some 0x2B) = true := rfl
  have hminus : ((ascii "+" ++ (digits ++ rest)).head? == some 0x2D) = false := rfl
  simp only [stoi, hdrop, hminus, hplus, htail, takeWhile_append_of_head hdigits hrest, inIntRange,
    Bool.or_true, Bool.false_eq_true, if_true, if_false]

theorem stoi_minus :
    stoi (spaces ++ (ascii "-" ++ (digits ++ rest))) =
      if digits.isEmpty then none else inIntRange (-decimal digits) := by
  have hdrop : (spaces ++ (ascii "-" ++ (digits ++ rest))).dropWhile isSpace = _ :=
    dropWhile_append_of_head hspaces fun c hc => by
      obtain rfl : 0x2D = c := Option.some.inj hc
      decide
  have htail : (ascii "-" ++ (digits ++ rest)).tail = digits ++ rest := rfl
  have hminus : ((ascii "-" ++ (digits ++ rest)).head? == some 0x2D) = true := rfl
  simp only [stoi, hdrop, hminus, htail, takeWhile_append_of_head hdigits hrest, inIntRange,
    Bool.true_or, if_true]

end Parts

/-- Every text is white space, then a sign or none, then digits, perhaps none, and a rest. -/
theorem exists_parts (text : Bytes) : ∃ spaces sign digits rest : Bytes,
    text = spaces ++ (sign ++ (digits ++ rest)) ∧
    (∀ c ∈ spaces, isSpace c = true) ∧ (∀ c ∈ digits, isDigit c = true) ∧
    (∀ c ∈ rest.head?, isDigit c = false) ∧
    (sign = ascii "+" ∨ sign = ascii "-" ∨ sign = [] ∧ ∀ c ∈ (digits ++ rest).head?,
      isSpace c = false ∧ c ≠ 0x2B ∧ c ≠ 0x2D) := by
  have hspace (c : UInt8) : c ∈ (text.dropWhile isSpace).head? → isSpace c = false := fun hc => by
    simpa [Option.mem_def.mp hc] using List.head?_dropWhile_not isSpace text
  have hdigits (t : Bytes) : ∀ c ∈ t.takeWhile isDigit, isDigit c = true :=
    fun _ => List.mem_takeWhile_imp
  have hrest (t : Bytes) : ∀ c ∈ (t.dropWhile isDigit).head?, isDigit c = false := fun c hc => by
    simpa [Option.mem_def.mp hc] using List.head?_dropWhile_not isDigit t
  have htext : text = text.takeWhile isSpace ++ text.dropWhile isSpace :=
    List.takeWhile_append_dropWhile.symm
  cases hsplit : text.dropWhile isSpace with
  | nil =>
    rw [hsplit] at htext
    exact ⟨_, [], [], [], htext, fun _ => List.mem_takeWhile_imp, by simp, by simp, by simp⟩
  | cons c t =>
    rw [hsplit] at htext hspace
    by_cases hplus : c = 0x2B
    · subst hplus
      refine ⟨text.takeWhile isSpace, ascii "+", t.takeWhile isDigit, t.dropWhile isDigit, ?_,
        fun _ => List.mem_takeWhile_imp, hdigits t, hrest t, .inl rfl⟩
      rw [List.takeWhile_append_dropWhile]
      exact htext
    · by_cases hminus : c = 0x2D
      · subst hminus
        refine ⟨text.takeWhile isSpace, ascii "-", t.takeWhile isDigit, t.dropWhile isDigit, ?_,
          fun _ => List.mem_takeWhile_imp, hdigits t, hrest t, .inr (.inl rfl)⟩
        rw [List.takeWhile_append_dropWhile]
        exact htext
      · refine ⟨text.takeWhile isSpace, [], (c :: t).takeWhile isDigit,
          (c :: t).dropWhile isDigit, ?_,
          fun _ => List.mem_takeWhile_imp, hdigits _, hrest _, .inr (.inr ⟨rfl, ?_⟩)⟩
        · rw [List.takeWhile_append_dropWhile]
          exact htext
        · rw [List.takeWhile_append_dropWhile]
          rintro _ ⟨⟩
          exact ⟨hspace c rfl, hplus, hminus⟩

theorem stoi_eq_some_iff (text : Bytes) (value : ℤ) :
    stoi text = some value ↔
      BeginsWithNumber text value ∧ -2147483648 ≤ value ∧ value ≤ 2147483647 := by
  constructor
  · intro h
    obtain ⟨spaces, sign, digits, rest, rfl, hspaces, hdigits, hrest, hsign⟩ := exists_parts text
    obtain rfl | rfl | ⟨rfl, hhead⟩ := hsign
    · rw [stoi_plus hspaces hdigits hrest, Option.ite_none_left_eq_some,
        inIntRange_eq_some_iff] at h
      obtain ⟨hne, rfl, hrange⟩ := h
      exact ⟨⟨spaces, _, digits, rest, rfl, hspaces, by simpa using hne, hdigits, hrest,
        .inl ⟨.inr rfl, rfl⟩⟩, hrange⟩
    · rw [stoi_minus hspaces hdigits hrest, Option.ite_none_left_eq_some,
        inIntRange_eq_some_iff] at h
      obtain ⟨hne, rfl, hrange⟩ := h
      exact ⟨⟨spaces, _, digits, rest, rfl, hspaces, by simpa using hne, hdigits, hrest,
        .inr ⟨rfl, rfl⟩⟩, hrange⟩
    · rw [List.nil_append, stoi_unsigned hspaces hdigits hrest hhead, Option.ite_none_left_eq_some,
        inIntRange_eq_some_iff] at h
      obtain ⟨hne, rfl, hrange⟩ := h
      exact ⟨⟨spaces, [], digits, rest, rfl, hspaces, by simpa using hne, hdigits, hrest,
        .inl ⟨.inl rfl, rfl⟩⟩, hrange⟩
  · rintro ⟨⟨spaces, sign, digits, rest, rfl, hspaces, hne, hdigits, hrest, hsign⟩, hrange⟩
    have hempty : digits.isEmpty = false := by simpa using hne
    obtain ⟨rfl | rfl, rfl⟩ | ⟨rfl, rfl⟩ := hsign
    · have hhead : ∀ c ∈ (digits ++ rest).head?, isSpace c = false ∧ c ≠ 0x2B ∧ c ≠ 0x2D := by
        obtain ⟨c, digits, rfl⟩ := List.exists_cons_of_ne_nil hne
        rintro _ ⟨⟩
        exact number_begins_of_isDigit (hdigits c List.mem_cons_self)
      rw [List.nil_append, stoi_unsigned hspaces hdigits hrest hhead, hempty]
      exact inIntRange_eq_some_iff.mpr ⟨rfl, hrange⟩
    · rw [stoi_plus hspaces hdigits hrest, hempty]
      exact inIntRange_eq_some_iff.mpr ⟨rfl, hrange⟩
    · rw [stoi_minus hspaces hdigits hrest, hempty]
      exact inIntRange_eq_some_iff.mpr ⟨rfl, hrange⟩

/-- `std::stoi` takes a port for what it is. -/
theorem stoi_of_isPort {text : Bytes} (h : IsPort text) :
    stoi text = some (decimal text : ℤ) := by
  obtain ⟨hne, hdigits, hmax⟩ := h
  have hbegins : BeginsWithNumber text (decimal text) :=
    ⟨[], [], text, [], by simp, by simp, hne, hdigits, by simp, .inl ⟨.inl rfl, rfl⟩⟩
  exact (stoi_eq_some_iff text _).mpr ⟨hbegins, by omega, by omega⟩

/-- The narrowing cast keeps the residue. -/
theorem ofInt_eq_iff (value : ℤ) (n : UInt16) :
    UInt16.ofInt value = n ↔ value ≡ n.toNat [ZMOD 65536] := by
  have hn := n.toNat_lt
  rw [UInt16.ofInt, ← UInt16.toNat_inj, UInt16.toNat_ofNat', Int.ModEq]
  omega

/--
The parser returns the named port exactly when what follows the last colon is a port, does not
begin with a number in the range of `int`, or begins with one that is the default port modulo 65536.
-/
theorem port_eq_namedPort_iff (url : Bytes) :
    (parseBrokerUrl url).port = namedPort url ↔ ∀ text, Url.portText url = some text →
      IsPort text ∨ ∀ value, BeginsWithNumber text value →
        -2147483648 ≤ value → value ≤ 2147483647 →
          value ≡ (Url.defaultPort url).toNat [ZMOD 65536] := by
  rw [parseBrokerUrl_eq, namedPort]
  change readPort _ (Url.portText url) = _ ↔ _
  cases Url.portText url with
  | none => simp [readPort]
  | some text =>
    simp only [readPort, Option.some.injEq, forall_eq']
    by_cases hport : IsPort text
    · rw [if_pos hport, stoi_of_isPort hport]
      refine iff_of_true ?_ (.inl hport)
      rw [Option.elim_some, ofInt_eq_iff, UInt16.toNat_ofNat', Int.ModEq]
      omega
    · rw [if_neg hport, or_iff_right hport]
      cases hstoi : stoi text with
      | none =>
        refine iff_of_true rfl fun value hbegins hlow hhigh => ?_
        rw [(stoi_eq_some_iff text value).mpr ⟨hbegins, hlow, hhigh⟩] at hstoi
        cases hstoi
      | some value =>
        obtain ⟨hbegins, hlow, hhigh⟩ := (stoi_eq_some_iff text value).mp hstoi
        rw [Option.elim_some, ofInt_eq_iff]
        refine ⟨fun hmod v hv hvlow hvhigh => ?_, fun h => h value hbegins hlow hhigh⟩
        -- a text begins with one number only
        have hv := (stoi_eq_some_iff text v).mpr ⟨hv, hvlow, hvhigh⟩
        obtain rfl : value = v := Option.some.inj (hstoi.symm.trans hv)
        exact hmod

/-- A port that is too large loses its high bits. -/
theorem port_of_seventy_thousand :
    (parseBrokerUrl (ascii "tcp://h:70000")).port = 4464 ∧
      namedPort (ascii "tcp://h:70000") = 1883 := by
  decide +kernel

end MqttNativeSocket
