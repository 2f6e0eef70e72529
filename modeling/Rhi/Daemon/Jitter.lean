import Rhi.Admin
import Rhi.Daemon
import Rhi.Lib.Machine
import Rhi.Lib.Rejection

/-!
# Full jitter

A delay is drawn from an entropy source on machine words.  Eight bytes of entropy are scaled to the
range of the bound by a product of twice the width; draws whose low half is below the threshold are
rejected and drawn again, up to a cap.
-/

namespace Rhi

open Machine Transactional

section Adapters

/-- `RhiRuntimeAdapterErrorKind`. -/
inductive RuntimeAdapterErrorKind where
  | invalidJitterBound
  | entropyUnavailable
  | wallClockUnavailable
  | monotonicDeadlineInvalid
  | credentialAccess
  | identityAccess
deriving DecidableEq, Repr

/-- `RHI_RUNTIME_JITTER_MAX_MILLISECONDS`. -/
def jitterMaxMilliseconds : UInt64 := 3600000

/-- `RhiJitterBoundMilliseconds`. -/
structure JitterBound where
  get : UInt64
  admitted : get ≤ jitterMaxMilliseconds
deriving DecidableEq, Repr

/-- `RhiJitterBoundMilliseconds::new`. -/
def JitterBound.new (milliseconds : UInt64) : Except RuntimeAdapterErrorKind JitterBound :=
  if admitted : milliseconds ≤ jitterMaxMilliseconds then
    .ok ⟨milliseconds, admitted⟩
  else
    .error .invalidJitterBound

/-- `RhiJitterMilliseconds`. -/
structure JitterMilliseconds where
  get : UInt64
deriving DecidableEq, Repr

/-- `EntropySource`: a complete fill of eight bytes, or an error. -/
structure EntropySource (State : Type) where
  fillBytes : State → Except Unit (Vector UInt8 8) × State

/-- `u64::from_be_bytes`. -/
def wordOfBytes (bytes : Vector UInt8 8) : UInt64 := UInt64.ofNat (fromBeBytes bytes.toList)

/-- The multiply-high step of `sample_full_jitter`; absent when the draw is rejected. -/
def scaleDraw (range rejectionThreshold draw : UInt64) :
    Except Panic (Option JitterMilliseconds) := do
  let product ← mulWide (widen draw) (widen range)
  let low ← expect (narrow (product &&& widen maxWord)) "masked multiply-high remainder fits u64"
  if rejectionThreshold ≤ low then
    let sampled ← expect (narrow (product >>> 64))
      "multiply-high full-jitter result fits the admitted u64 bound"
    pure (some ⟨sampled⟩)
  else
    pure none

namespace EntropySource

variable {State : Type} (entropy : EntropySource State)

/-- The loop of `sample_full_jitter`. -/
def sampleLoop (range rejectionThreshold : UInt64) : Nat → State →
    Except Panic (Except RuntimeAdapterErrorKind JitterMilliseconds × State)
  | 0, state => .ok (.error .entropyUnavailable, state)
  | turns + 1, state =>
      match entropy.fillBytes state with
      | (.error _, later) => .ok (.error .entropyUnavailable, later)
      | (.ok bytes, later) => do
          match ← scaleDraw range rejectionThreshold (wordOfBytes bytes) with
          | some sampled => pure (.ok sampled, later)
          | none => sampleLoop range rejectionThreshold turns later

/-- `sample_full_jitter`. -/
def sampleFullJitter (maximum : JitterBound) (state : State) :
    Except Panic (Except RuntimeAdapterErrorKind JitterMilliseconds × State) := do
  let range ← add maximum.get 1
  let rejectionThreshold ← rem (-range) range
  entropy.sampleLoop range rejectionThreshold jitterMaxDraws state

end EntropySource

end Adapters

section Draws

/-- What becomes of one draw under a bound. -/
def JitterBound.scale (maximum : JitterBound) (draw : UInt64) :
    Except Panic (Option JitterMilliseconds) := do
  let range ← add maximum.get 1
  let rejectionThreshold ← rem (-range) range
  scaleDraw range rejectionThreshold draw

namespace JitterBound

/-- The number of delays that a bound admits. -/
def count (maximum : JitterBound) : Nat := maximum.get.toNat + 1

/-- The delay of an accepted draw, in numbers. -/
def sample? (maximum : JitterBound) (draw : UInt64) : Option JitterMilliseconds :=
  if Rejection.Accepted (2 ^ 64) maximum.count draw.toNat then
    some ⟨UInt64.ofNat (Rejection.outcome (2 ^ 64) maximum.count draw.toNat)⟩
  else
    none

variable {maximum : JitterBound}

theorem count_pos : 0 < maximum.count := Nat.succ_pos _

theorem count_le : maximum.count ≤ 3600001 :=
  Nat.succ_le_succ (UInt64.le_iff_toNat_le.mp maximum.admitted)

/-- The range of a bound is the number of its delays. -/
theorem range_spec : add maximum.get 1 = .ok (maximum.get + 1) ∧
    (maximum.get + 1).toNat = maximum.count := by
  have bounded := maximum.count_le
  have small : maximum.get.toNat + (1 : UInt64).toNat < 2 ^ 64 := by
    change maximum.count < 2 ^ 64
    omega
  refine ⟨add_eq_ok small, ?_⟩
  rw [UInt64.toNat_add, Nat.mod_eq_of_lt small]
  rfl

/-- The negation of the range leaves the rest that the size of a word leaves. -/
theorem threshold_spec : ∃ rejectionThreshold,
    rem (-(maximum.get + 1)) (maximum.get + 1) = .ok rejectionThreshold ∧
      rejectionThreshold.toNat = 2 ^ 64 % maximum.count := by
  rcases @range_spec maximum with ⟨-, range⟩
  have bounded := maximum.count_le
  have positive := maximum.count_pos
  have nonzero : maximum.get + 1 ≠ 0 := by
    intro zero
    rw [zero] at range
    exact absurd range.symm (Nat.ne_of_gt positive)
  refine ⟨_, rem_eq_ok nonzero, ?_⟩
  have smaller : 2 ^ 64 - maximum.count < 2 ^ 64 := by omega
  have negated : (-(maximum.get + 1)).toNat = 2 ^ 64 - maximum.count := by
    rw [UInt64.toNat_neg, range]
    exact Nat.mod_eq_of_lt smaller
  rw [UInt64.toNat_mod, negated, range, ← Nat.mod_eq_sub_mod (by omega)]

/-- Neither the product nor one of its halves stops the program. -/
theorem scaleDraw_eq {range rejectionThreshold : UInt64}
    (rest : rejectionThreshold.toNat = 2 ^ 64 % range.toNat) (draw : UInt64) :
    scaleDraw range rejectionThreshold draw =
      .ok (if Rejection.Accepted (2 ^ 64) range.toNat draw.toNat then
        some ⟨UInt64.ofNat (Rejection.outcome (2 ^ 64) range.toNat draw.toNat)⟩ else none) := by
  rcases mulWide_widen draw range with ⟨product, multiplied, number⟩
  rcases narrow_low product with ⟨low, lowNarrowed, lowNumber⟩
  rcases narrow_high product with ⟨high, highNarrowed, highNumber⟩
  have accepted : rejectionThreshold ≤ low ↔
      Rejection.Accepted (2 ^ 64) range.toNat draw.toNat := by
    rw [UInt64.le_iff_toNat_le, rest, lowNumber, number]
    rfl
  have sampled : high = UInt64.ofNat (Rejection.outcome (2 ^ 64) range.toNat draw.toNat) := by
    rw [Rejection.outcome, ← number, ← highNumber, UInt64.ofNat_toNat]
  rw [scaleDraw, multiplied]
  simp only [bind, Except.bind, pure, Except.pure, lowNarrowed, highNarrowed, expect, accepted,
    sampled]
  split <;> rfl

theorem scale_eq (draw : UInt64) : maximum.scale draw = .ok (maximum.sample? draw) := by
  rcases @range_spec maximum with ⟨added, range⟩
  rcases @threshold_spec maximum with ⟨rejectionThreshold, divided, rest⟩
  rw [scale, added]
  change (do
    let rejectionThreshold ← rem (-(maximum.get + 1)) (maximum.get + 1)
    scaleDraw (maximum.get + 1) rejectionThreshold draw) = _
  rw [divided]
  change scaleDraw (maximum.get + 1) rejectionThreshold draw = _
  rw [← range] at rest
  rw [scaleDraw_eq rest, range]
  rfl

theorem outcome_lt (draw : UInt64) :
    Rejection.outcome (2 ^ 64) maximum.count draw.toNat < maximum.count :=
  Rejection.outcome_lt draw.toNat_lt maximum.count_pos

theorem sample?_eq_some_iff {draw : UInt64} {delay : JitterMilliseconds} :
    maximum.sample? draw = some delay ↔ Rejection.Accepted (2 ^ 64) maximum.count draw.toNat ∧
      Rejection.outcome (2 ^ 64) maximum.count draw.toNat = delay.get.toNat := by
  have possible := @outcome_lt maximum draw
  have bounded := maximum.count_le
  have number : (UInt64.ofNat (Rejection.outcome (2 ^ 64) maximum.count draw.toNat)).toNat =
      Rejection.outcome (2 ^ 64) maximum.count draw.toNat := by
    rw [UInt64.toNat_ofNat']
    exact Nat.mod_eq_of_lt (by omega)
  unfold sample?
  split
  case isTrue accepted =>
    cases delay with
    | mk delay =>
        rw [Option.some.injEq, JitterMilliseconds.mk.injEq, ← UInt64.toNat_inj, number]
        exact ⟨fun same => ⟨accepted, same⟩, fun both => both.2⟩
  case isFalse rejected => exact ⟨nofun, fun both => absurd both.1 rejected⟩

theorem sample?_eq_none_iff {draw : UInt64} :
    maximum.sample? draw = none ↔ ¬Rejection.Accepted (2 ^ 64) maximum.count draw.toNat := by
  unfold sample?
  split
  case isTrue accepted => exact ⟨nofun, absurd accepted⟩
  case isFalse rejected => exact ⟨fun _ => rejected, fun _ => rfl⟩

end JitterBound

end Draws

section Samples

namespace EntropySource

variable {State : Type} (entropy : EntropySource State)

/-- The source fills every time. -/
def Working : Prop := ∀ state, ∃ bytes later, entropy.fillBytes state = (.ok bytes, later)

/-- The next draws of a source, up to its first error. -/
def draws : Nat → State → List UInt64
  | 0, _ => []
  | turns + 1, state =>
      match entropy.fillBytes state with
      | (.error _, _) => []
      | (.ok bytes, later) => wordOfBytes bytes :: draws turns later

variable {entropy}

theorem length_draws (working : entropy.Working) (turns : Nat) (state : State) :
    (entropy.draws turns state).length = turns := by
  induction turns generalizing state with
  | zero => rfl
  | succ turns ih =>
      rcases working state with ⟨bytes, later, filled⟩
      rw [draws, filled]
      exact congrArg Nat.succ (ih later)

/-- The loop returns the delay of the first accepted draw, and an error without one. -/
theorem sampleLoop_eq {range rejectionThreshold : UInt64}
    {sample : UInt64 → Option JitterMilliseconds}
    (scaled : ∀ draw, scaleDraw range rejectionThreshold draw = .ok (sample draw)) (turns : Nat)
    (state : State) : ∃ later, entropy.sampleLoop range rejectionThreshold turns state =
      .ok (((entropy.draws turns state).findSome? sample).elim (.error .entropyUnavailable) .ok,
        later) := by
  induction turns generalizing state with
  | zero => exact ⟨state, rfl⟩
  | succ turns ih =>
      rcases filled : entropy.fillBytes state with ⟨_ | bytes, later⟩
      · refine ⟨later, ?_⟩
        rw [sampleLoop, draws, filled]
        rfl
      · rcases ih later with ⟨last, looped⟩
        rw [sampleLoop, draws, filled]
        simp only [scaled, bind, Except.bind, List.findSome?_cons]
        cases sample (wordOfBytes bytes) with
        | some delay => exact ⟨later, rfl⟩
        | none => exact ⟨last, looped⟩

theorem sampleFullJitter_eq (maximum : JitterBound) (state : State) :
    ∃ later, entropy.sampleFullJitter maximum state =
      .ok (((entropy.draws jitterMaxDraws state).findSome? maximum.sample?).elim
        (.error .entropyUnavailable) .ok, later) := by
  rcases @JitterBound.range_spec maximum with ⟨added, range⟩
  rcases @JitterBound.threshold_spec maximum with ⟨rejectionThreshold, divided, rest⟩
  have scaled : ∀ draw, scaleDraw (maximum.get + 1) rejectionThreshold draw =
      .ok (maximum.sample? draw) := by
    intro draw
    rw [JitterBound.scaleDraw_eq (range ▸ rest), range]
    rfl
  rcases sampleLoop_eq scaled jitterMaxDraws state with ⟨later, looped⟩
  refine ⟨later, ?_⟩
  rw [← looped, sampleFullJitter, added]
  simp only [bind, Except.bind, divided]

end EntropySource

/-- The samples of the daemon are those of the words that its source draws. -/
theorem sampleFullJitter_eq_sample (draws : List UInt64) (maximum : JitterBound) :
    sampleFullJitter draws maximum.get.toNat =
      ((draws.take jitterMaxDraws).findSome? maximum.sample?).map fun delay => delay.get.toNat := by
  have bounded := maximum.count_le
  have rest : (2 ^ 64 - maximum.count) % maximum.count = 2 ^ 64 % maximum.count :=
    (Nat.mod_eq_sub_mod (by omega)).symm
  unfold sampleFullJitter
  change ((draws.take jitterMaxDraws).find? fun draw =>
    decide ((2 ^ 64 - maximum.count) % maximum.count ≤
      draw.toNat * maximum.count % 2 ^ 64)).map _ = _
  rw [rest]
  induction draws.take jitterMaxDraws with
  | nil => rfl
  | cons draw draws ih =>
      rw [List.find?_cons, List.findSome?_cons]
      cases sampled : maximum.sample? draw with
      | some delay =>
          rcases JitterBound.sample?_eq_some_iff.mp sampled with ⟨accepted, number⟩
          rw [Rejection.Accepted] at accepted
          rw [decide_eq_true accepted, Option.map_some, Option.map_some, ← number]
          rfl
      | none =>
          have rejected := JitterBound.sample?_eq_none_iff.mp sampled
          rw [Rejection.Accepted] at rejected
          rw [decide_eq_false rejected]
          exact ih

end Samples

section Uniformity

/-- What a bound makes of its draws. -/
structure FullJitter (maximum : JitterBound) : Prop where
  /-- No operation on a draw stops the program. -/
  total : ∀ draw, ∃ outcome, maximum.scale draw = .ok outcome
  within : ∀ draw delay, maximum.scale draw = .ok (some delay) → delay.get ≤ maximum.get
  uniform : ∀ delay : JitterMilliseconds, delay.get ≤ maximum.get →
    {draw | maximum.scale draw = .ok (some delay)}.ncard = 2 ^ 64 / (maximum.get.toNat + 1)
  rejected : {draw | maximum.scale draw = .ok none}.ncard = 2 ^ 64 % (maximum.get.toNat + 1)
  returns : ∀ {State : Type} (entropy : EntropySource State) (state : State),
    ∃ result, entropy.sampleFullJitter maximum state = .ok result
  /-- Of a source that fills every time, only the draws decide whether there is an error. -/
  exhausted : ∀ {State : Type} (entropy : EntropySource State), entropy.Working →
    ∀ state : State, (entropy.draws jitterMaxDraws state).length = jitterMaxDraws ∧
      ((∃ kind later, entropy.sampleFullJitter maximum state = .ok (.error kind, later)) ↔
        ∀ draw ∈ entropy.draws jitterMaxDraws state, maximum.scale draw = .ok none)

theorem ncard_uniform {maximum : JitterBound} {delay : JitterMilliseconds}
    (possible : delay.get ≤ maximum.get) :
    {draw | maximum.scale draw = .ok (some delay)}.ncard = 2 ^ 64 / maximum.count := by
  have bounded : delay.get.toNat < maximum.count :=
    Nat.lt_succ_of_le (UInt64.le_iff_toNat_le.mp possible)
  rw [← Rejection.card_accepted_outcome maximum.count_pos bounded, ← ncard_toNat]
  congr 1
  ext draw
  rw [Set.mem_ofPred_eq, Set.mem_ofPred_eq, JitterBound.scale_eq, Except.ok.injEq,
    JitterBound.sample?_eq_some_iff]

theorem ncard_rejected (maximum : JitterBound) :
    {draw | maximum.scale draw = .ok none}.ncard = 2 ^ 64 % maximum.count := by
  rw [← Rejection.card_rejected maximum.count_pos, ← ncard_toNat]
  congr 1
  ext draw
  rw [Set.mem_ofPred_eq, Set.mem_ofPred_eq, JitterBound.scale_eq, Except.ok.injEq,
    JitterBound.sample?_eq_none_iff]

/-- Full jitter is exactly uniform, and fails only when all of its draws are rejected. -/
theorem fullJitter_uniform (maximum : JitterBound) : FullJitter maximum where
  total draw := ⟨_, maximum.scale_eq draw⟩
  within draw delay scaled := by
    rw [JitterBound.scale_eq, Except.ok.injEq, JitterBound.sample?_eq_some_iff] at scaled
    have possible := @JitterBound.outcome_lt maximum draw
    rw [scaled.2] at possible
    exact UInt64.le_iff_toNat_le.mpr (Nat.le_of_lt_succ possible)
  uniform _ possible := ncard_uniform possible
  rejected := ncard_rejected maximum
  returns entropy state := by
    rcases @EntropySource.sampleFullJitter_eq _ entropy maximum state with ⟨later, sampled⟩
    exact ⟨_, sampled⟩
  exhausted entropy working state := by
    refine ⟨EntropySource.length_draws working jitterMaxDraws state, ?_⟩
    rcases @EntropySource.sampleFullJitter_eq _ entropy maximum state with ⟨later, sampled⟩
    have rejected : (∀ draw ∈ entropy.draws jitterMaxDraws state, maximum.scale draw = .ok none) ↔
        (entropy.draws jitterMaxDraws state).findSome? maximum.sample? = none := by
      rw [List.findSome?_eq_none_iff]
      exact forall₂_congr fun draw _ => by rw [JitterBound.scale_eq, Except.ok.injEq]
    rw [rejected, sampled]
    cases (entropy.draws jitterMaxDraws state).findSome? maximum.sample? with
    | none => exact ⟨fun _ => rfl, fun _ => ⟨_, later, rfl⟩⟩
    | some delay =>
        refine ⟨?_, nofun⟩
        rintro ⟨kind, last, same⟩
        cases same

end Uniformity

end Rhi
