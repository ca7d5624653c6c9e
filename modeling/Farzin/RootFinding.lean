import Mathlib.Analysis.Real.Sqrt
import Mathlib.Tactic.Linarith
import Mathlib.Topology.Order.IntermediateValue

set_option autoImplicit false

/- The Illinois method for a root of a function: a secant step, and less weight for an end that
stays (half of it in the original). The steps are for any ordered field; what they enclose is said
over the reals. -/
namespace Farzin.RootFinding

/-- Two points with the values that the method keeps for them. -/
structure Ends (K : Type) where
  a : K
  fa : K
  b : K
  fb : K

section Method

variable {K : Type} [Field K] [LinearOrder K] (f : K → K) (divisor : K)

def secant (s : Ends K) : K := s.a + (s.a - s.b) * s.fa / (s.fb - s.fa)

def illinoisStep (s : Ends K) : Ends K :=
  let c := secant s
  let fc := f c
  if fc * s.fb ≤ 0 then ⟨s.b, s.fb, c, fc⟩ else ⟨s.a, s.fa / divisor, c, fc⟩

/-- Steps until the ends are close; `none` when the steps are used up before. -/
def illinois (epsilon : K) : Nat → Ends K → Option (Ends K)
  | 0, s => if |s.b - s.a| ≤ epsilon then some s else none
  | steps + 1, s =>
      if |s.b - s.a| ≤ epsilon then some s else illinois epsilon steps (illinoisStep f divisor s)

theorem illinois_done {epsilon : K} {s : Ends K} (close : |s.b - s.a| ≤ epsilon) (steps : Nat) :
    illinois f divisor epsilon steps s = some s := by
  cases steps <;> rw [illinois, if_pos close]

end Method

section Enclosure

variable {K : Type} [Field K] [LinearOrder K] [IsStrictOrderedRing K] {f : K → K} {s : Ends K}
  {divisor : K}

/-- The function changes its sign between the ends. The value at `a` may have lost weight. -/
structure Encloses (f : K → K) (s : Ends K) : Prop where
  weight : ∃ w, 0 < w ∧ s.fa = w * f s.a
  value : s.fb = f s.b
  signs : s.fa * s.fb ≤ 0

theorem Encloses.start (a b : K) (signs : f a * f b ≤ 0) : Encloses f ⟨a, f a, b, f b⟩ :=
  ⟨⟨1, one_pos, (one_mul _).symm⟩, rfl, signs⟩

theorem Encloses.step (encloses : Encloses f s) (lighter : 0 < divisor) :
    Encloses f (illinoisStep f divisor s) := by
  obtain ⟨⟨w, positive, weight⟩, value, signs⟩ := encloses
  unfold illinoisStep
  dsimp only
  split
  case isTrue change =>
    exact ⟨⟨1, one_pos, by rw [value, one_mul]⟩, rfl, by rw [mul_comm]; exact change⟩
  case isFalse same =>
    refine ⟨⟨w / divisor, div_pos positive lighter, by rw [weight]; ring⟩, rfl, ?_⟩
    have same := not_le.mp same
    have nonzero : s.fb ≠ 0 := by
      rintro zero
      rw [zero, mul_zero] at same
      exact lt_irrefl _ same
    have square : 0 < s.fb * s.fb := mul_self_pos.mpr nonzero
    -- The new value has the sign of the old one at `b`.
    have product : (s.fa / divisor * f (secant s)) * (s.fb * s.fb) ≤ 0 := by
      have swap : (s.fa / divisor * f (secant s)) * (s.fb * s.fb) =
          (s.fa * s.fb) * (f (secant s) * s.fb) / divisor := by ring
      rw [swap]
      exact div_nonpos_of_nonpos_of_nonneg (mul_nonpos_of_nonpos_of_nonneg signs same.le)
        lighter.le
    exact nonpos_of_mul_nonpos_left product square

/-- The secant cuts the axis between the ends. -/
theorem Encloses.secant_between (encloses : Encloses f s) : secant s ∈ Set.uIcc s.a s.b := by
  have signs := encloses.signs
  by_cases flat : s.fb = s.fa
  · simp [secant, flat]
  have gap : s.fb - s.fa ≠ 0 := sub_ne_zero.mpr flat
  -- `t` is how far the cut is on the way from `a` to `b`.
  have cut : secant s = s.a + (s.fa / (s.fa - s.fb)) * (s.b - s.a) := by
    have gap' : s.fa - s.fb ≠ 0 := sub_ne_zero.mpr (Ne.symm flat)
    rw [secant]
    field_simp
    ring
  have share : 0 ≤ s.fa / (s.fa - s.fb) ∧ s.fa / (s.fa - s.fb) ≤ 1 := by
    rcases lt_or_gt_of_ne (sub_ne_zero.mpr (Ne.symm flat) : s.fa - s.fb ≠ 0) with neg | pos
    · have low : s.fa ≤ 0 := by nlinarith [mul_self_nonneg s.fa]
      have high : 0 ≤ s.fb := by nlinarith [mul_self_nonneg s.fb]
      exact ⟨div_nonneg_of_nonpos low neg.le, (div_le_one_of_neg neg).mpr (by linarith)⟩
    · have high : 0 ≤ s.fa := by nlinarith [mul_self_nonneg s.fa]
      have low : s.fb ≤ 0 := by nlinarith [mul_self_nonneg s.fb]
      exact ⟨div_nonneg high pos.le, (div_le_one pos).mpr (by linarith)⟩
  rw [cut, Set.mem_uIcc]
  rcases le_total s.a s.b with order | order
  · left
    constructor <;> nlinarith [share.1, share.2]
  · right
    constructor <;> nlinarith [share.1, share.2]

theorem Encloses.step_inside (encloses : Encloses f s) :
    (illinoisStep f divisor s).a ∈ Set.uIcc s.a s.b ∧ (illinoisStep f divisor s).b ∈ Set.uIcc s.a s.b := by
  unfold illinoisStep
  dsimp only
  split
  · exact ⟨Set.right_mem_uIcc, encloses.secant_between⟩
  · exact ⟨Set.left_mem_uIcc, encloses.secant_between⟩

/-- When the method ends it has close ends, inside the ends it began with. -/
theorem illinois_encloses {epsilon : K} {steps : Nat} {t : Ends K} (lighter : 0 < divisor)
    (encloses : Encloses f s) (ended : illinois f divisor epsilon steps s = some t) :
    Encloses f t ∧ |t.b - t.a| ≤ epsilon ∧ t.a ∈ Set.uIcc s.a s.b ∧ t.b ∈ Set.uIcc s.a s.b := by
  induction steps generalizing s with
  | zero =>
      rw [illinois] at ended
      split at ended
      case isTrue close =>
        cases ended
        exact ⟨encloses, close, Set.left_mem_uIcc, Set.right_mem_uIcc⟩
      case isFalse => cases ended
  | succ steps ih =>
      rw [illinois] at ended
      split at ended
      case isTrue close =>
        cases ended
        exact ⟨encloses, close, Set.left_mem_uIcc, Set.right_mem_uIcc⟩
      case isFalse =>
        obtain ⟨enclosed, close, a, b⟩ := ih (encloses.step lighter) ended
        obtain ⟨left, right⟩ := encloses.step_inside
        have nested := Set.uIcc_subset_uIcc left right
        exact ⟨enclosed, close, nested a, nested b⟩

end Enclosure

/-- A continuous function has a root between enclosing ends. -/
theorem Encloses.root {f : ℝ → ℝ} {s : Ends ℝ} (encloses : Encloses f s)
    (continuous : Continuous f) : ∃ x ∈ Set.uIcc s.a s.b, f x = 0 := by
  obtain ⟨⟨w, positive, weight⟩, value, signs⟩ := encloses
  have change : f s.a * f s.b ≤ 0 := by
    rw [weight, value, mul_assoc] at signs
    exact nonpos_of_mul_nonpos_right signs positive
  have between : (0 : ℝ) ∈ Set.uIcc (f s.a) (f s.b) := by
    rw [Set.mem_uIcc]
    rcases mul_nonpos_iff.mp change with ⟨high, low⟩ | ⟨low, high⟩
    · exact .inr ⟨low, high⟩
    · exact .inl ⟨low, high⟩
  exact intermediate_value_uIcc continuous.continuousOn between

/-- The first end that the method returns is as close to a root as was asked. -/
theorem illinois_root {f : ℝ → ℝ} {s t : Ends ℝ} {divisor epsilon : ℝ} {steps : Nat}
    (lighter : 0 < divisor) (continuous : Continuous f) (encloses : Encloses f s)
    (ended : illinois f divisor epsilon steps s = some t) :
    t.a ∈ Set.uIcc s.a s.b ∧ ∃ x ∈ Set.uIcc s.a s.b, f x = 0 ∧ |t.a - x| ≤ epsilon := by
  obtain ⟨enclosed, close, a, b⟩ := illinois_encloses lighter encloses ended
  obtain ⟨x, inside, root⟩ := enclosed.root continuous
  refine ⟨a, x, Set.uIcc_subset_uIcc a b inside, root, le_trans ?_ close⟩
  rw [abs_sub_comm t.a x]
  exact Set.abs_sub_left_of_mem_uIcc inside

end Farzin.RootFinding
