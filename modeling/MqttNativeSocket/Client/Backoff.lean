import MqttNativeSocket.Core.Basic
import MqttNativeSocket.Foundations.Runs

/-! # The delays of the reconnect worker

After a failed attempt the worker multiplies its delay, cuts it at `maxDelay` and
only then adds the jitter, up to a quarter of what the cut left. A draw therefore
takes a delay past `maxDelay` whenever it is larger than the room below the cut.
-/

namespace MqttNativeSocket

/-- `static_cast<long long>` of a `double`. -/
def truncate (q : ℚ) : ℤ := q.num.tdiv q.den

namespace ReconnectPolicy

variable (p : ReconnectPolicy)

/-- The delay after the multiplication and the cut. -/
def growDelay (delay : ℤ) : ℤ :=
  let grown := truncate (delay * p.backoffMultiplier)
  if grown > p.maxDelay then p.maxDelay else grown

/-- The bounds of `uniform_int_distribution` after a failed attempt. -/
def jitterBounds (delay : ℤ) : ℤ × ℤ := (0, (p.growDelay delay).tdiv 4)

/-- What the cut leaves between the multiplied delay and `maxDelay`. -/
def room (delay : ℤ) : ℤ := max 0 (p.maxDelay - truncate (delay * p.backoffMultiplier))

/-- The policies that the delays are meant for. -/
structure Proper : Prop where
  initial_nonneg : 0 ≤ p.initialDelay
  initial_le_max : p.initialDelay ≤ p.maxDelay
  one_le_multiplier : 1 ≤ p.backoffMultiplier

/-- From this delay on, either there is no jitter or the delay stays what it is. -/
def Steady (delay : ℤ) : Prop :=
  p.jitter = false ∨ p.maxDelay < 4 ∨ delay < 4 ∧ delay * p.backoffMultiplier < delay + 1

end ReconnectPolicy

/-- The worker in attempt number `attempt`, before which it slept `delay`. -/
structure Backoff where
  attempt : UInt32
  delay : ℤ
  slept : List ℤ
  deriving DecidableEq, Repr

namespace Backoff

/-- The first attempt is made whatever `maxRetries` is. -/
def start (p : ReconnectPolicy) : Backoff := ⟨1, p.initialDelay, [p.initialDelay]⟩

/--
The attempt fails and the worker sleeps before the next one, if `maxRetries` allows it. The
distribution returns `draw`, when it is asked at all.
-/
def fail (p : ReconnectPolicy) (b : Backoff) (draw : ℤ) : Option Backoff :=
  let bounds := p.jitterBounds b.delay
  let delay := if p.jitter then p.growDelay b.delay + draw else p.growDelay b.delay
  let attempt := b.attempt + 1
  if p.jitter ∧ ¬ (bounds.1 ≤ draw ∧ draw ≤ bounds.2) then none
  else if p.maxRetries > 0 ∧ attempt > p.maxRetries then none
  else some ⟨attempt, delay, b.slept ++ [delay]⟩

/-- Every delay slept is in its limits, and the distribution can be built. -/
structure Bounded (p : ReconnectPolicy) (b : Backoff) : Prop where
  nonneg : ∀ d ∈ b.slept, 0 ≤ d
  le_max : ∀ d ∈ b.slept, d ≤ p.maxDelay
  bounds : (p.jitterBounds b.delay).1 ≤ (p.jitterBounds b.delay).2

end Backoff

/-! ## Delays -/

theorem truncate_eq_floor {q : ℚ} (h : 0 ≤ q) : truncate q = ⌊q⌋ := by
  rw [truncate, Rat.floor_def', Int.tdiv_eq_ediv_of_nonneg (Rat.num_nonneg.mpr h)]

section Delay

variable {p : ReconnectPolicy} {delay : ℤ}

theorem growDelay_eq_min (p : ReconnectPolicy) (delay : ℤ) :
    p.growDelay delay = min (truncate (delay * p.backoffMultiplier)) p.maxDelay := by
  unfold ReconnectPolicy.growDelay
  grind

theorem growDelay_le_maxDelay (p : ReconnectPolicy) (delay : ℤ) :
    p.growDelay delay ≤ p.maxDelay := by
  rw [growDelay_eq_min]
  exact min_le_right ..

theorem growDelay_add_le_iff {draw : ℤ} :
    p.growDelay delay + draw ≤ p.maxDelay ↔ draw ≤ p.room delay := by
  rw [growDelay_eq_min, ReconnectPolicy.room]
  omega

namespace ReconnectPolicy.Proper

theorem truncate_mul_eq_floor (hp : p.Proper) (hd : 0 ≤ delay) :
    truncate (delay * p.backoffMultiplier) = ⌊delay * p.backoffMultiplier⌋ :=
  truncate_eq_floor (mul_nonneg (Int.cast_nonneg hd) (zero_le_one.trans hp.one_le_multiplier))

theorem le_truncate_mul (hp : p.Proper) (hd : 0 ≤ delay) :
    delay ≤ truncate (delay * p.backoffMultiplier) := by
  rw [hp.truncate_mul_eq_floor hd, Int.le_floor]
  exact le_mul_of_one_le_right (Int.cast_nonneg hd) hp.one_le_multiplier

theorem min_le_growDelay (hp : p.Proper) (hd : 0 ≤ delay) :
    min delay p.maxDelay ≤ p.growDelay delay := by
  rw [growDelay_eq_min]
  exact min_le_min_right _ (hp.le_truncate_mul hd)

theorem growDelay_nonneg (hp : p.Proper) (hd : 0 ≤ delay) : 0 ≤ p.growDelay delay :=
  (le_min hd (hp.initial_nonneg.trans hp.initial_le_max)).trans (hp.min_le_growDelay hd)

/-- A delay that is not steady rises with the largest jitter, to one that is not steady either. -/
theorem rises (hp : p.Proper) (hd : 0 ≤ delay) (hmax : delay ≤ p.maxDelay)
    (hs : ¬ p.Steady delay) :
    delay < p.growDelay delay + (p.growDelay delay).tdiv 4 ∧
    (p.growDelay delay + (p.growDelay delay).tdiv 4 ≤ p.maxDelay →
      ¬ p.Steady (p.growDelay delay + (p.growDelay delay).tdiv 4)) := by
  have hmin := hp.min_le_growDelay hd
  have hgrown := growDelay_eq_min p delay
  have hm := hp.one_le_multiplier
  rw [Int.tdiv_eq_ediv_of_nonneg (hp.growDelay_nonneg hd)]
  simp only [Steady, not_or, not_and, not_lt] at hs ⊢
  obtain ⟨hjitter, hmax4, hroom⟩ := hs
  by_cases h4 : 4 ≤ delay
  · constructor
    · omega
    · exact fun _ => ⟨hjitter, hmax4, fun _ => by omega⟩
  · have hstep := hroom (by omega)
    have hle : delay + 1 ≤ truncate (delay * p.backoffMultiplier) := by
      rw [hp.truncate_mul_eq_floor hd, Int.le_floor]
      exact_mod_cast hstep
    constructor
    · omega
    · intro htop
      refine ⟨hjitter, hmax4, fun _ => ?_⟩
      have hup : (delay : ℚ) ≤ (p.growDelay delay + p.growDelay delay / 4 : ℤ) := by
        exact_mod_cast (by omega : delay ≤ p.growDelay delay + p.growDelay delay / 4)
      nlinarith

end ReconnectPolicy.Proper

end Delay

/-! ## One failed attempt -/

variable {p : ReconnectPolicy} {b b' : Backoff} {draw : ℤ}

theorem fail_eq_some_iff : b.fail p draw = some b' ↔
    (p.jitter → 0 ≤ draw ∧ draw ≤ (p.growDelay b.delay).tdiv 4) ∧
    ¬ (p.maxRetries > 0 ∧ b.attempt + 1 > p.maxRetries) ∧
    b'.attempt = b.attempt + 1 ∧
    b'.delay = (if p.jitter then p.growDelay b.delay + draw else p.growDelay b.delay) ∧
    b'.slept = b.slept ++ [b'.delay] := by
  unfold Backoff.fail ReconnectPolicy.jitterBounds
  rw [Option.ite_none_left_eq_some, Option.ite_none_left_eq_some, not_and_not_right]
  constructor
  · rintro ⟨hdraw, hspent, heq⟩
    obtain rfl := Option.some.inj heq
    exact ⟨hdraw, hspent, rfl, rfl, rfl⟩
  · rintro ⟨hdraw, hspent, hattempt, hdelay, hslept⟩
    refine ⟨hdraw, hspent, ?_⟩
    cases b'
    simp_all

theorem forall_slept_fail {P : ℤ → Prop} (h : b.fail p draw = some b') :
    (∀ d ∈ b'.slept, P d) ↔ (∀ d ∈ b.slept, P d) ∧ P b'.delay := by
  obtain ⟨-, -, -, -, hslept⟩ := fail_eq_some_iff.mp h
  rw [hslept, List.forall_mem_append, List.forall_mem_singleton]

theorem delay_le_maxDelay_iff (h : b.fail p draw = some b') :
    b'.delay ≤ p.maxDelay ↔ (p.jitter → draw ≤ p.room b.delay) := by
  obtain ⟨-, -, -, hdelay, -⟩ := fail_eq_some_iff.mp h
  rw [hdelay]
  split_ifs with hjitter
  · rw [growDelay_add_le_iff]
    exact ⟨fun hle _ => hle, fun hle => hle hjitter⟩
  · exact ⟨fun _ hj => absurd hj hjitter, fun _ => growDelay_le_maxDelay ..⟩

/-- The jitter adds at most a quarter. -/
theorem delay_bounds (hp : p.Proper) (hd : 0 ≤ b.delay) (h : b.fail p draw = some b') :
    p.growDelay b.delay ≤ b'.delay ∧
    b'.delay ≤ p.growDelay b.delay + (p.growDelay b.delay).tdiv 4 := by
  have hnonneg := hp.growDelay_nonneg hd
  obtain ⟨hdraw, -, -, hdelay, -⟩ := fail_eq_some_iff.mp h
  rw [hdelay]
  split_ifs with hjitter
  · have := hdraw hjitter
    omega
  · exact ⟨le_rfl, le_add_of_nonneg_right (Int.tdiv_nonneg hnonneg (by decide))⟩

/-! ## Runs -/

/-- What holds after every run, whatever was drawn. -/
structure Backoff.Inv (p : ReconnectPolicy) (b : Backoff) : Prop where
  delay_nonneg : 0 ≤ b.delay
  slept_nonneg : ∀ d ∈ b.slept, 0 ≤ d
  slept_le : ∀ d ∈ b.slept, d ≤ p.maxDelay + p.maxDelay.tdiv 4

theorem inv_start (hp : p.Proper) : (Backoff.start p).Inv p := by
  have hnonneg := hp.initial_nonneg
  have hle := hp.initial_le_max
  constructor
  · exact hnonneg
  · simpa [Backoff.start] using hnonneg
  · simp only [Backoff.start, List.forall_mem_singleton]
    rw [Int.tdiv_eq_ediv_of_nonneg (hnonneg.trans hle)]
    omega

theorem Backoff.Inv.fail (hb : b.Inv p) (hp : p.Proper) (h : b.fail p draw = some b') :
    b'.Inv p := by
  have hgrow := hp.growDelay_nonneg hb.delay_nonneg
  have hle := growDelay_le_maxDelay p b.delay
  obtain ⟨hlow, hhigh⟩ := delay_bounds hp hb.delay_nonneg h
  constructor
  · exact hgrow.trans hlow
  · exact (forall_slept_fail h).mpr ⟨hb.slept_nonneg, hgrow.trans hlow⟩
  · rw [Int.tdiv_eq_ediv_of_nonneg hgrow] at hhigh
    refine (forall_slept_fail h).mpr ⟨hb.slept_le, ?_⟩
    rw [Int.tdiv_eq_ediv_of_nonneg (hgrow.trans hle)]
    omega

theorem Backoff.Inv.bounds (hb : b.Inv p) (hp : p.Proper) :
    (p.jitterBounds b.delay).1 ≤ (p.jitterBounds b.delay).2 :=
  Int.tdiv_nonneg (hp.growDelay_nonneg hb.delay_nonneg) (by decide)

theorem Backoff.Inv.bounded_iff (hb : b.Inv p) (hp : p.Proper) :
    b.Bounded p ↔ ∀ d ∈ b.slept, d ≤ p.maxDelay :=
  ⟨fun h => h.le_max, fun h => ⟨hb.slept_nonneg, h, hb.bounds hp⟩⟩

/-- However many attempts failed, at most a quarter is slept on top of `maxDelay`. -/
theorem slept_le_five_quarters (hp : p.Proper) {draws : List ℤ}
    (h : Runs.exec (Backoff.fail p) (.start p) draws = some b) :
    ∀ d ∈ b.slept, 0 ≤ d ∧ d ≤ p.maxDelay + p.maxDelay.tdiv 4 := by
  have hb : b.Inv p := Runs.always h (inv_start hp) fun _ _ _ hb hs => hb.fail hp hs
  exact fun d hd => ⟨hb.slept_nonneg d hd, hb.slept_le d hd⟩

theorem bounded_start (hp : p.Proper) : (Backoff.start p).Bounded p := by
  rw [(inv_start hp).bounded_iff hp]
  simpa [Backoff.start] using hp.initial_le_max

/-- The draw fits in the room that the cut left. -/
def FitsRoom (p : ReconnectPolicy) (b : Backoff) (draw : ℤ) : Prop :=
  p.jitter → draw ≤ p.room b.delay

theorem Backoff.Inv.bounded_fail_iff (hb : b.Inv p) (hp : p.Proper) (hbounded : b.Bounded p)
    (h : b.fail p draw = some b') : b'.Bounded p ↔ FitsRoom p b draw := by
  rw [(hb.fail hp h).bounded_iff hp, forall_slept_fail h, delay_le_maxDelay_iff h]
  exact and_iff_right hbounded.le_max

/--
Every delay slept in a run lies between 0 and `maxDelay` exactly when every draw of the run fits
in the room.
-/
theorem bounded_iff_fitsRoom (p : ReconnectPolicy) (hp : p.Proper) (draws : List ℤ) :
    (∀ before, before <+: draws → ∀ b,
      Runs.exec (Backoff.fail p) (.start p) before = some b → b.Bounded p) ↔
    Runs.Along (Backoff.fail p) (fun b draw => (b.fail p draw).isSome → FitsRoom p b draw)
      (.start p) draws := by
  refine Runs.forall_prefix_iff_along (I := fun b => b.Inv p ∧ b.Bounded p)
    ⟨inv_start hp, bounded_start hp⟩ (fun _ h => h.2) ?_ ?_
  · rintro b draw b' ⟨hb, hbounded⟩ hs
    exact hb.bounded_fail_iff hp hbounded hs
  · rintro b draw b' ⟨hb, hbounded⟩ hfits hs
    exact ⟨hb.fail hp hs, (hb.bounded_fail_iff hp hbounded hs).mpr hfits⟩

theorem default_proper : ({} : ReconnectPolicy).Proper :=
  ⟨by decide, by decide, by decide⟩

/-- Without a draw above zero the default policy stops at a minute. -/
theorem bounded_iff_fitsRoom_default :
    ∃ b, Runs.exec (Backoff.fail {}) (.start {}) [0, 0, 0, 0, 0, 0] = some b ∧
      b.slept = [1000, 2000, 4000, 8000, 16000, 32000, 60000] ∧ b.Bounded {} := by
  have hexec : Runs.exec (Backoff.fail {}) (.start {}) [0, 0, 0, 0, 0, 0] =
      some ⟨7, 60000, [1000, 2000, 4000, 8000, 16000, 32000, 60000]⟩ := by
    decide +kernel
  refine ⟨_, hexec, rfl, (bounded_iff_fitsRoom {} default_proper [0, 0, 0, 0, 0, 0]).mpr
    (Runs.along_of_forall fun draw hdraw b _ _ => ?_) _ List.prefix_rfl _ hexec⟩
  obtain rfl : draw = 0 := by simpa using hdraw
  exact le_max_left ..

/-- The default policy, with a jitter of 15 s on the delay that was cut at 60 s. -/
theorem default_jitter_over_maxDelay :
    ({} : ReconnectPolicy).Proper ∧
    ∃ b, Runs.exec (Backoff.fail {}) (.start {}) [0, 0, 0, 0, 0, 15000] = some b ∧
      75000 ∈ b.slept ∧ ¬ b.Bounded {} := by
  have hslept : 75000 ∈ [1000, 2000, 4000, 8000, 16000, 32000, (75000 : ℤ)] := by decide
  refine ⟨default_proper, ⟨7, 75000, [1000, 2000, 4000, 8000, 16000, 32000, 75000]⟩, ?_, hslept, ?_⟩
  · decide +kernel
  · exact fun h => absurd (h.le_max _ hslept) (by decide)

/-! ## Policies -/

/-- A steady delay stays in its bounds and steady. -/
theorem Backoff.Inv.steady_fail (hb : b.Inv p) (hp : p.Proper) (hmax : b.delay ≤ p.maxDelay)
    (hs : p.Steady b.delay) (h : b.fail p draw = some b') :
    b'.delay ≤ p.maxDelay ∧ p.Steady b'.delay := by
  have hgrow := hp.growDelay_nonneg hb.delay_nonneg
  have hle := growDelay_le_maxDelay p b.delay
  obtain ⟨hlow, hhigh⟩ := delay_bounds hp hb.delay_nonneg h
  rw [Int.tdiv_eq_ediv_of_nonneg hgrow] at hhigh
  obtain hjitter | hmax4 | ⟨h4, hstay⟩ := hs
  · exact ⟨(delay_le_maxDelay_iff h).mpr fun hj => absurd hj (by simp [hjitter]), .inl hjitter⟩
  · exact ⟨by omega, .inr (.inl hmax4)⟩
  · have hfloor : ⌊b.delay * p.backoffMultiplier⌋ < b.delay + 1 := by
      rw [Int.floor_lt]
      exact_mod_cast hstay
    have hgrown := growDelay_eq_min p b.delay
    have hmin := hp.min_le_growDelay hb.delay_nonneg
    rw [hp.truncate_mul_eq_floor hb.delay_nonneg] at hgrown
    obtain heq : b'.delay = b.delay := by omega
    rw [heq]
    exact ⟨hmax, .inr (.inr ⟨h4, hstay⟩)⟩

theorem exists_fail_top (hp : p.Proper) (hretries : p.maxRetries = 0) (hd : 0 ≤ b.delay)
    (hjitter : p.jitter) : ∃ draw b', b.fail p draw = some b' ∧
      b'.delay = p.growDelay b.delay + (p.growDelay b.delay).tdiv 4 := by
  have hquarter := Int.tdiv_nonneg (hp.growDelay_nonneg hd) (show (0 : ℤ) ≤ 4 by decide)
  let top := p.growDelay b.delay + (p.growDelay b.delay).tdiv 4
  refine ⟨_, ⟨b.attempt + 1, top, b.slept ++ [top]⟩, fail_eq_some_iff.mpr
    ⟨fun _ => ⟨hquarter, le_rfl⟩, ?_, rfl, (if_pos hjitter).symm, rfl⟩, rfl⟩
  simp [hretries]

/-- From a delay that is not steady, the largest draws lead over `maxDelay`. -/
theorem exists_over_maxDelay (hp : p.Proper) (hretries : p.maxRetries = 0)
    (hd : 0 ≤ b.delay) (hmax : b.delay ≤ p.maxDelay) (hs : ¬ p.Steady b.delay) :
    ∃ draws b', Runs.exec (Backoff.fail p) b draws = some b' ∧ ¬ b'.Bounded p := by
  -- the delay rises in every round, so what is left below `maxDelay` gets smaller
  induction hn : (p.maxDelay - b.delay).toNat using Nat.strong_induction_on generalizing b with
  | _ n ih =>
    have hjitter : p.jitter := by
      by_contra hoff
      exact hs (.inl (by simpa using hoff))
    obtain ⟨hrise, hstill⟩ := hp.rises hd hmax hs
    obtain ⟨draw, b₁, hfail, htop⟩ := exists_fail_top hp hretries hd hjitter
    rw [← htop] at hrise hstill
    by_cases hover : b₁.delay ≤ p.maxDelay
    · obtain ⟨draws, b', hexec, hb'⟩ :=
        ih _ (by omega) (hd.trans hrise.le) hover (hstill hover) rfl
      exact ⟨draw :: draws, b', Runs.exec_cons_eq_some.mpr ⟨b₁, hfail, hexec⟩, hb'⟩
    · refine ⟨[draw], b₁, Runs.exec_cons_eq_some.mpr ⟨b₁, hfail, rfl⟩, fun hbounded => hover ?_⟩
      exact ((forall_slept_fail hfail).mp hbounded.le_max).2

/--
A policy that never gives up keeps all its delays within `maxDelay`, whatever is drawn, exactly
when its first delay is steady.
-/
theorem forall_bounded_iff_steady (hp : p.Proper) (hretries : p.maxRetries = 0) :
    (∀ draws b, Runs.exec (Backoff.fail p) (.start p) draws = some b → b.Bounded p) ↔
      p.Steady p.initialDelay := by
  constructor
  · intro h
    by_contra hs
    obtain ⟨draws, b, hexec, hb⟩ := exists_over_maxDelay (b := .start p) hp hretries
      hp.initial_nonneg hp.initial_le_max hs
    exact hb (h draws b hexec)
  · intro hs draws b hexec
    have hinv : b.Inv p ∧ b.Bounded p ∧ b.delay ≤ p.maxDelay ∧ p.Steady b.delay := by
      refine Runs.always
        (I := fun b => b.Inv p ∧ b.Bounded p ∧ b.delay ≤ p.maxDelay ∧ p.Steady b.delay)
        hexec ⟨inv_start hp, bounded_start hp, hp.initial_le_max, hs⟩ ?_
      rintro b draw b' ⟨hb, hbounded, hmax, hsteady⟩ h
      obtain ⟨hmax', hsteady'⟩ := hb.steady_fail hp hmax hsteady h
      have hslept := (forall_slept_fail h).mpr ⟨hbounded.le_max, hmax'⟩
      exact ⟨hb.fail hp h, ((hb.fail hp h).bounded_iff hp).mpr hslept, hmax', hsteady'⟩
    exact hinv.2.1

end MqttNativeSocket
