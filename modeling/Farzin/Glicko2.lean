import Farzin.RootFinding
import Mathlib.Algebra.BigOperators.Group.List.Basic
import Mathlib.Analysis.SpecialFunctions.Log.Basic
import Mathlib.Analysis.SpecialFunctions.Trigonometric.Basic

set_option autoImplicit false

/- The Glicko-2 calculator (`core/rating/glicko2.service.ts`). The numbers are those of an ordered
field with the functions of `Math`; what it promises is said over the reals, without rounding. -/
namespace Farzin.Glicko2

open RootFinding

/-- What the calculator takes from `Math`. -/
structure MathFunctions (K : Type) where
  exp : K → K
  log : K → K
  sqrt : K → K
  pi : K

structure RatingSnapshot (K : Type) where
  rating : K
  deviation : K
  volatility : K

structure MatchOutcome (K : Type) where
  opponent : RatingSnapshot K
  score : K

structure Glicko2Config (K : Type) where
  tau : K
  epsilon : K
  maxIterations : Nat

section Calculator

variable {K : Type} [Field K] [LinearOrder K] (math : MathFunctions K) (config : Glicko2Config K)

def DEFAULT_GLICKO2_CONFIG : Glicko2Config K := ⟨1 / 2, 1 / 1000000, 100⟩

def GLICKO2_SCALE : K := 1737178 / 10000

def MIN_RATING : K := 100

def MIN_RD : K := 30

def MAX_RD : K := 350

def MIN_VOLATILITY : K := 1 / 100

def MAX_VOLATILITY : K := 1 / 10

def MAX_BRACKET_STEPS : Nat := 100

def g (phi : K) : K := 1 / math.sqrt (1 + 3 * phi * phi / (math.pi * math.pi))

def E (mu muJ gJ : K) : K := 1 / (1 + math.exp (-gJ * (mu - muJ)))

def clamp (rating deviation volatility : K) : RatingSnapshot K where
  rating := max MIN_RATING rating
  deviation := min MAX_RD (max MIN_RD deviation)
  volatility := min MAX_VOLATILITY (max MIN_VOLATILITY volatility)

/-- The `f` of `solveVolatility`. -/
def volatilityEquation (deltaSq phiSq v a tau x : K) : K :=
  let ex := math.exp x
  let denom := phiSq + v + ex
  ex * (deltaSq - phiSq - v - ex) / (2 * denom * denom) - (x - a) / (tau * tau)

/-- The search for `B` below `a`, from the `k`-th step on. -/
def bracketFrom (f : K → K) (a tau : K) : (tries k : Nat) → Option K
  | 0, _ => none
  | tries + 1, k => if f (a - k * tau) < 0 then bracketFrom f a tau tries (k + 1)
      else some (a - k * tau)

def otherEnd (deltaSq phiSq v a : K) : Option K :=
  if phiSq + v < deltaSq then some (math.log (deltaSq - phiSq - v))
  else bracketFrom (volatilityEquation math deltaSq phiSq v a config.tau) a config.tau
    MAX_BRACKET_STEPS 1

/-- `none` is a `Glicko2ConvergenceError`. -/
def solveVolatility (delta phi v sigma : K) : Option K :=
  let deltaSq := delta * delta
  let phiSq := phi * phi
  let a := math.log (sigma * sigma)
  let f := volatilityEquation math deltaSq phiSq v a config.tau
  (otherEnd math config deltaSq phiSq v a).bind fun b =>
    (illinois f 2 config.epsilon config.maxIterations ⟨a, f a, b, f b⟩).map fun ends =>
      math.exp (ends.a / 2)

/-- A game on the scale of the calculator. -/
structure Game (K : Type) where
  gJ : K
  eJ : K
  score : K

def gameOf (mu : K) (o : MatchOutcome K) : Game K :=
  let muJ := (o.opponent.rating - 1500) / GLICKO2_SCALE
  let phiJ := o.opponent.deviation / GLICKO2_SCALE
  let gJ := g math phiJ
  ⟨gJ, E math mu muJ gJ, o.score⟩

def variance (games : List (Game K)) : K :=
  1 / (games.map fun game => game.gJ * game.gJ * game.eJ * (1 - game.eJ)).sum

def outcomeSum (games : List (Game K)) : K :=
  (games.map fun game => game.gJ * (game.score - game.eJ)).sum

/-- Steps 8 to 10, once the new volatility is known. -/
def phiStar (phi sigma : K) : K := math.sqrt (phi * phi + sigma * sigma)

def phiPrime (phi sigma v : K) : K :=
  1 / math.sqrt (1 / (phiStar math phi sigma * phiStar math phi sigma) + 1 / v)

def compute (current : RatingSnapshot K) (outcomes : List (MatchOutcome K)) :
    Option (RatingSnapshot K) :=
  let mu := (current.rating - 1500) / GLICKO2_SCALE
  let phi := current.deviation / GLICKO2_SCALE
  let sigma := current.volatility
  if outcomes.isEmpty then
    some (clamp current.rating (phiStar math phi sigma * GLICKO2_SCALE) sigma)
  else
    let games := outcomes.map (gameOf math mu)
    let v := variance games
    let delta := v * outcomeSum games
    (solveVolatility math config delta phi v sigma).map fun sigmaPrime =>
      let phi' := phiPrime math phi sigmaPrime v
      clamp (GLICKO2_SCALE * (mu + phi' * phi' * outcomeSum games) + 1500) (GLICKO2_SCALE * phi')
        sigmaPrime

end Calculator

/-- The functions themselves. -/
noncomputable def realMath : MathFunctions ℝ where
  exp := Real.exp
  log := Real.log
  sqrt := Real.sqrt
  pi := Real.pi

section Volatility

variable {config : Glicko2Config ℝ} {deltaSq phiSq v a tau : ℝ}

theorem volatilityEquation_continuous (positive : 0 < phiSq + v) :
    Continuous (volatilityEquation realMath deltaSq phiSq v a tau) := by
  have nonzero : ∀ x, 2 * (phiSq + v + Real.exp x) * (phiSq + v + Real.exp x) ≠ 0 := by
    intro x
    have := Real.exp_pos x
    positivity
  unfold volatilityEquation
  simp only [realMath]
  fun_prop (disch := exact nonzero _)

/-- The first part of the equation has the sign of `Δ² − φ² − v − eˣ`. -/
theorem volatilityEquation_nonpos (positive : 0 < phiSq + v) {x : ℝ}
    (small : deltaSq - phiSq - v ≤ Real.exp x) (below : 0 ≤ (x - a) / (tau * tau)) :
    volatilityEquation realMath deltaSq phiSq v a tau x ≤ 0 := by
  have exp := Real.exp_pos x
  have first : Real.exp x * (deltaSq - phiSq - v - Real.exp x) /
      (2 * (phiSq + v + Real.exp x) * (phiSq + v + Real.exp x)) ≤ 0 :=
    div_nonpos_of_nonpos_of_nonneg (mul_nonpos_of_nonneg_of_nonpos exp.le (by linarith))
      (by positivity)
  simp only [volatilityEquation, realMath]
  linarith

theorem volatilityEquation_nonneg (positive : 0 < phiSq + v) {x : ℝ}
    (large : Real.exp x ≤ deltaSq - phiSq - v) (above : (x - a) / (tau * tau) ≤ 0) :
    0 ≤ volatilityEquation realMath deltaSq phiSq v a tau x := by
  have exp := Real.exp_pos x
  have first : 0 ≤ Real.exp x * (deltaSq - phiSq - v - Real.exp x) /
      (2 * (phiSq + v + Real.exp x) * (phiSq + v + Real.exp x)) :=
    div_nonneg (mul_nonneg exp.le (by linarith)) (by positivity)
  simp only [volatilityEquation, realMath]
  linarith

/-- Far enough below `a` the equation is positive: its first part is above `-1/2`. -/
theorem volatilityEquation_below (positive : 0 < phiSq + v) (square : 0 ≤ deltaSq)
    (tauPos : 0 < tau) {k : ℕ} (far : tau ≤ 2 * k) :
    0 ≤ volatilityEquation realMath deltaSq phiSq v a tau (a - k * tau) := by
  have exp := Real.exp_pos (a - k * tau)
  set e := Real.exp (a - k * tau)
  have first : -(1 / 2) ≤ e * (deltaSq - phiSq - v - e) /
      (2 * (phiSq + v + e) * (phiSq + v + e)) := by
    rw [le_div_iff₀ (by positivity)]
    nlinarith
  have second : (a - k * tau - a) / (tau * tau) = -(k / tau) := by
    field_simp
    ring
  have steps : 1 / 2 ≤ (k : ℝ) / tau := by
    rw [le_div_iff₀ tauPos]
    linarith
  have shape : volatilityEquation realMath deltaSq phiSq v a tau (a - k * tau) =
      e * (deltaSq - phiSq - v - e) / (2 * (phiSq + v + e) * (phiSq + v + e)) -
        (a - k * tau - a) / (tau * tau) := rfl
  rw [shape, second]
  linarith

theorem bracketFrom_spec {f : ℝ → ℝ} {tries k : ℕ} {b : ℝ}
    (found : bracketFrom f a tau tries k = some b) : 0 ≤ f b ∧ ∃ j : ℕ, b = a - j * tau := by
  induction tries generalizing k with
  | zero => cases found
  | succ tries ih =>
      rw [bracketFrom] at found
      split at found
      case isTrue => exact ih found
      case isFalse stop =>
        cases found
        exact ⟨not_lt.mp stop, k, rfl⟩

theorem bracketFrom_isSome {f : ℝ → ℝ} {tries k : ℕ}
    (stops : ∃ j < tries, 0 ≤ f (a - (k + j : ℕ) * tau)) :
    (bracketFrom f a tau tries k).isSome := by
  induction tries generalizing k with
  | zero =>
      obtain ⟨j, impossible, _⟩ := stops
      exact absurd impossible (Nat.not_lt_zero j)
  | succ tries ih =>
      rw [bracketFrom]
      split
      case isTrue negative =>
        obtain ⟨j, bound, value⟩ := stops
        cases j with
        | zero =>
            rw [Nat.add_zero] at value
            exact absurd negative (not_lt.mpr value)
        | succ j =>
            exact ih ⟨j, Nat.lt_of_succ_lt_succ bound, by
              rwa [show k + 1 + j = k + (j + 1) by omega]⟩
      case isFalse => rfl

/-- With `τ` up to 200 the search for the second end never gives up. -/
theorem otherEnd_isSome (positive : 0 < phiSq + v) (square : 0 ≤ deltaSq)
    (tauPos : 0 < config.tau) (tauBound : config.tau ≤ 200) :
    (otherEnd realMath config deltaSq phiSq v a).isSome := by
  unfold otherEnd
  split
  · rfl
  · refine bracketFrom_isSome ⟨99, by decide, ?_⟩
    exact volatilityEquation_below positive square tauPos (by norm_num; linarith)

/-- The equation changes its sign between the two ends. -/
theorem otherEnd_signs (positive : 0 < phiSq + v) {b : ℝ}
    (found : otherEnd realMath config deltaSq phiSq v a = some b) :
    volatilityEquation realMath deltaSq phiSq v a config.tau a *
        volatilityEquation realMath deltaSq phiSq v a config.tau b ≤ 0 ∧
      (phiSq + v < deltaSq → Real.exp b = deltaSq - phiSq - v) ∧
      (deltaSq ≤ phiSq + v → 0 ≤ config.tau → b ≤ a) := by
  unfold otherEnd at found
  split at found
  case isTrue surprising =>
    cases found
    have exp : Real.exp (realMath.log (deltaSq - phiSq - v)) = deltaSq - phiSq - v :=
      Real.exp_log (by linarith)
    refine ⟨?_, fun _ => exp, fun expected => absurd surprising (not_lt.mpr expected)⟩
    set b := realMath.log (deltaSq - phiSq - v)
    have square : 0 ≤ config.tau * config.tau := mul_self_nonneg _
    rcases le_total a b with order | order
    · refine mul_nonpos_of_nonneg_of_nonpos (volatilityEquation_nonneg positive ?_ ?_)
        (volatilityEquation_nonpos positive exp.ge ?_)
      · rw [← exp]
        exact Real.exp_le_exp.mpr order
      · simp
      · exact div_nonneg (by linarith) square
    · refine mul_nonpos_of_nonpos_of_nonneg (volatilityEquation_nonpos positive ?_ ?_)
        (volatilityEquation_nonneg positive exp.le ?_)
      · rw [← exp]
        exact Real.exp_le_exp.mpr order
      · simp
      · exact div_nonpos_of_nonpos_of_nonneg (by linarith) square
  case isFalse expected =>
    obtain ⟨value, j, place⟩ := bracketFrom_spec found
    refine ⟨?_, fun surprising => absurd surprising expected, fun _ tauNonneg => ?_⟩
    · refine mul_nonpos_of_nonpos_of_nonneg (volatilityEquation_nonpos positive ?_ ?_) value
      · have := Real.exp_pos a
        linarith
      · simp
    · rw [place]
      have : 0 ≤ (j : ℝ) * config.tau := by positivity
      linarith

/-- The solver of the volatility, over the reals: a second end is always found, and what is
returned is as close to a solution of the equation as the configuration asks. The volatility does
not grow unless the results were a surprise, and then it stays between the old one and the
surprise. -/
theorem solveVolatility_root (config : Glicko2Config ℝ) (delta phi v sigma : ℝ)
    (tauPos : 0 < config.tau) (tauBound : config.tau ≤ 200) (vPos : 0 < v) (sigmaPos : 0 < sigma) :
    (otherEnd realMath config (delta * delta) (phi * phi) v (Real.log (sigma * sigma))).isSome ∧
      ∀ sigma', solveVolatility realMath config delta phi v sigma = some sigma' →
        0 < sigma' ∧
        (∃ x, volatilityEquation realMath (delta * delta) (phi * phi) v
            (Real.log (sigma * sigma)) config.tau x = 0 ∧
          |Real.log (sigma' * sigma') - x| ≤ config.epsilon) ∧
        (delta * delta ≤ phi * phi + v → sigma' ≤ sigma) ∧
        (phi * phi + v < delta * delta → sigma' * sigma' ∈
          Set.uIcc (sigma * sigma) (delta * delta - phi * phi - v)) := by
  have positive : 0 < phi * phi + v := by nlinarith [mul_self_nonneg phi]
  refine ⟨otherEnd_isSome positive (mul_self_nonneg delta) tauPos tauBound, ?_⟩
  intro sigma' solved
  obtain ⟨b, found, rest⟩ := Option.bind_eq_some_iff.mp solved
  obtain ⟨ends, ended, rfl⟩ := Option.map_eq_some_iff.mp rest
  obtain ⟨signs, surprise, expected⟩ := otherEnd_signs positive found
  obtain ⟨inside, x, _, root, close⟩ :=
    illinois_root two_pos (volatilityEquation_continuous positive) (Encloses.start _ _ signs) ended
  have square : Real.exp (ends.a / 2) * Real.exp (ends.a / 2) = Real.exp ends.a := by
    rw [← Real.exp_add, add_halves]
  have start : Real.exp (Real.log (sigma * sigma)) = sigma * sigma :=
    Real.exp_log (mul_self_pos.mpr sigmaPos.ne')
  refine ⟨Real.exp_pos _, ⟨x, root, ?_⟩, fun small => ?_, fun large => ?_⟩
  · simp only [realMath]
    rwa [square, Real.log_exp]
  · have order := expected small tauPos.le
    rw [Set.uIcc_of_ge order] at inside
    refine abs_le_of_sq_le_sq' ?_ sigmaPos.le |>.2
    simp only [realMath]
    rw [pow_two, pow_two, square, ← start]
    exact Real.exp_le_exp.mpr inside.2
  · simp only [realMath]
    rw [square, ← start, ← surprise large]
    rcases Set.mem_uIcc.mp inside with ⟨low, high⟩ | ⟨low, high⟩
    · exact Set.mem_uIcc.mpr (.inl ⟨Real.exp_le_exp.mpr low, Real.exp_le_exp.mpr high⟩)
    · exact Set.mem_uIcc.mpr (.inr ⟨Real.exp_le_exp.mpr low, Real.exp_le_exp.mpr high⟩)

/-- Where the allowed error is as wide as the first step, an expected result needs no more. -/
theorem solveVolatility_wide {delta phi sigma : ℝ} (vPos : 0 < v)
    (expected : delta * delta ≤ phi * phi + v) (tauPos : 0 < config.tau) (tauBound : config.tau ≤ 2)
    (wide : config.tau ≤ config.epsilon) :
    (solveVolatility realMath config delta phi v sigma).isSome := by
  have positive : 0 < phi * phi + v := by nlinarith [mul_self_nonneg phi]
  let a := Real.log (sigma * sigma)
  have value : 0 ≤ volatilityEquation realMath (delta * delta) (phi * phi) v a config.tau
      (a - (1 : ℕ) * config.tau) :=
    volatilityEquation_below positive (mul_self_nonneg delta) tauPos (by norm_num; linarith)
  have found : otherEnd realMath config (delta * delta) (phi * phi) v a =
      some (a - (1 : ℕ) * config.tau) := by
    rw [otherEnd, if_neg (not_lt.mpr expected)]
    exact if_neg (not_lt.mpr value)
  have close : |a - (1 : ℕ) * config.tau - a| ≤ config.epsilon := by
    rw [Nat.cast_one, one_mul, sub_sub_cancel_left, abs_neg, abs_of_pos tauPos]
    exact wide
  change ((otherEnd realMath config (delta * delta) (phi * phi) v a).bind _).isSome
  rw [found, Option.bind_some, Option.isSome_map]
  exact Option.isSome_iff_exists.mpr ⟨_, illinois_done _ _ close _⟩

/-- The values that the article of the algorithm starts from. -/
theorem solveVolatility_root_default :
    (otherEnd realMath DEFAULT_GLICKO2_CONFIG ((-1 / 2) * (-1 / 2)) (1 * 1) 2
      (Real.log (6 / 100 * (6 / 100)))).isSome := by
  refine (solveVolatility_root DEFAULT_GLICKO2_CONFIG (-1 / 2) 1 2 (6 / 100) ?_ ?_ ?_ ?_).1
  all_goals norm_num [DEFAULT_GLICKO2_CONFIG]

end Volatility

section Period

variable {config : Glicko2Config ℝ} {mu phi v : ℝ}

theorem scale_pos : (0 : ℝ) < GLICKO2_SCALE := by
  norm_num [GLICKO2_SCALE]

theorem g_pos (phi : ℝ) : 0 < g realMath phi := by
  have spread : 0 ≤ 3 * phi * phi / (Real.pi * Real.pi) := by
    rw [mul_assoc]
    have := mul_self_nonneg phi
    positivity
  exact div_pos one_pos (Real.sqrt_pos.mpr (by simp only [realMath]; linarith))

/-- The expected score is a chance. -/
theorem E_between (mu muJ gJ : ℝ) : 0 < E realMath mu muJ gJ ∧ E realMath mu muJ gJ < 1 := by
  have exp := Real.exp_pos (-gJ * (mu - muJ))
  simp only [E, realMath]
  exact ⟨by positivity, (div_lt_one (by positivity)).mpr (by linarith)⟩

/-- The expected scores of both sides add up to the point that is at stake. -/
theorem E_swap (mu muJ gJ : ℝ) : E realMath muJ mu gJ = 1 - E realMath mu muJ gJ := by
  have exp := Real.exp_pos (-gJ * (mu - muJ))
  have inverse : Real.exp (-gJ * (muJ - mu)) = (Real.exp (-gJ * (mu - muJ)))⁻¹ := by
    rw [← Real.exp_neg]
    ring_nf
  simp only [E, realMath]
  rw [inverse]
  field_simp
  ring

theorem variance_pos {outcomes : List (MatchOutcome ℝ)} (played : outcomes ≠ []) :
    0 < variance (outcomes.map (gameOf realMath mu)) := by
  refine div_pos one_pos (List.sum_pos _ ?_ (by simpa using played))
  intro information listed
  obtain ⟨game, inside, rfl⟩ := List.mem_map.mp listed
  obtain ⟨o, _, rfl⟩ := List.mem_map.mp inside
  obtain ⟨low, high⟩ := E_between mu ((o.opponent.rating - 1500) / GLICKO2_SCALE)
    (g realMath (o.opponent.deviation / GLICKO2_SCALE))
  have weight := g_pos (o.opponent.deviation / GLICKO2_SCALE)
  have complement := sub_pos.mpr high
  simp only [gameOf]
  positivity

/-- Games make the deviation smaller than time alone would, and than they alone would. -/
theorem phiPrime_bounds {sigma : ℝ} (sigmaPos : 0 < sigma) (vPos : 0 < v) :
    0 < phiPrime realMath phi sigma v ∧
      phiPrime realMath phi sigma v < phiStar realMath phi sigma ∧
      phiPrime realMath phi sigma v * phiPrime realMath phi sigma v < v := by
  have square : 0 < phi * phi + sigma * sigma := by nlinarith [mul_self_nonneg phi]
  have star : 0 < phiStar realMath phi sigma := Real.sqrt_pos.mpr square
  have whole : 0 < 1 / (phiStar realMath phi sigma * phiStar realMath phi sigma) := by positivity
  have inverse : 0 < 1 / v := by positivity
  set information := 1 / (phiStar realMath phi sigma * phiStar realMath phi sigma) + 1 / v
  have root : 0 < Real.sqrt information := Real.sqrt_pos.mpr (by positivity)
  have prime : phiPrime realMath phi sigma v = 1 / Real.sqrt information := rfl
  refine ⟨by rw [prime]; positivity, ?_, ?_⟩
  · rw [prime, div_lt_iff₀ root]
    have inner : 1 / phiStar realMath phi sigma < Real.sqrt information := by
      refine Real.lt_sqrt_of_sq_lt ?_
      rw [div_pow, one_pow, pow_two]
      linarith
    rw [div_lt_iff₀ star] at inner
    linarith
  · rw [prime, div_mul_div_comm, one_mul, Real.mul_self_sqrt (by positivity),
      div_lt_iff₀ (by positivity)]
    have : v * (1 / v) = 1 := by field_simp
    nlinarith

theorem solveVolatility_pos {delta sigma sigma' : ℝ}
    (solved : solveVolatility realMath config delta phi v sigma = some sigma') : 0 < sigma' := by
  obtain ⟨b, _, rest⟩ := Option.bind_eq_some_iff.mp solved
  obtain ⟨ends, _, rfl⟩ := Option.map_eq_some_iff.mp rest
  exact Real.exp_pos _

/-- All steps of a period with games. -/
theorem compute_cases {current after : RatingSnapshot ℝ} {outcomes : List (MatchOutcome ℝ)}
    (played : outcomes ≠ []) (computed : compute realMath config current outcomes = some after) :
    let mu := (current.rating - 1500) / GLICKO2_SCALE
    let phi := current.deviation / GLICKO2_SCALE
    let games := outcomes.map (gameOf realMath mu)
    ∃ sigma', 0 < sigma' ∧
      solveVolatility realMath config (variance games * outcomeSum games) phi (variance games)
        current.volatility = some sigma' ∧
      after = clamp (GLICKO2_SCALE * (mu + phiPrime realMath phi sigma' (variance games) *
          phiPrime realMath phi sigma' (variance games) * outcomeSum games) + 1500)
        (GLICKO2_SCALE * phiPrime realMath phi sigma' (variance games)) sigma' := by
  rw [compute, if_neg (by simpa using played)] at computed
  obtain ⟨sigma', solved, rfl⟩ := Option.map_eq_some_iff.mp computed
  exact ⟨sigma', solveVolatility_pos solved, solved, rfl⟩

theorem compute_perm {current : RatingSnapshot ℝ} {outcomes other : List (MatchOutcome ℝ)}
    (same : outcomes.Perm other) :
    compute realMath config current outcomes = compute realMath config current other := by
  have empty : outcomes.isEmpty = other.isEmpty := by
    cases outcomes <;> cases other <;> simp_all
  have spread (mu : ℝ) : variance (outcomes.map (gameOf realMath mu)) =
      variance (other.map (gameOf realMath mu)) := by
    rw [variance, ((same.map _).map _).sum_eq, variance]
  have result (mu : ℝ) : outcomeSum (outcomes.map (gameOf realMath mu)) =
      outcomeSum (other.map (gameOf realMath mu)) :=
    ((same.map _).map _).sum_eq
  simp only [compute, empty, spread, result]

/-- The sum of the surprises has the sign of the results when they all go one way. -/
theorem outcomeSum_pos {outcomes : List (MatchOutcome ℝ)} (played : outcomes ≠ [])
    (won : ∀ o ∈ outcomes, o.score = 1) : 0 < outcomeSum (outcomes.map (gameOf realMath mu)) := by
  refine List.sum_pos _ ?_ (by simpa using played)
  intro surprise listed
  obtain ⟨game, inside, rfl⟩ := List.mem_map.mp listed
  obtain ⟨o, member, rfl⟩ := List.mem_map.mp inside
  simp only [gameOf, won o member]
  exact mul_pos (g_pos _) (sub_pos.mpr (E_between _ _ _).2)

theorem outcomeSum_neg {outcomes : List (MatchOutcome ℝ)} (played : outcomes ≠ [])
    (lost : ∀ o ∈ outcomes, o.score = 0) : outcomeSum (outcomes.map (gameOf realMath mu)) < 0 := by
  have negated : 0 < ((outcomes.map (gameOf realMath mu)).map fun game =>
      -(game.gJ * (game.score - game.eJ))).sum := by
    refine List.sum_pos _ ?_ (by simpa using played)
    intro surprise listed
    obtain ⟨game, inside, rfl⟩ := List.mem_map.mp listed
    obtain ⟨o, member, rfl⟩ := List.mem_map.mp inside
    simp only [gameOf, lost o member, zero_sub, mul_neg, neg_neg]
    exact mul_pos (g_pos _) (E_between _ _ _).1
  have sum : ((outcomes.map (gameOf realMath mu)).map fun game =>
      -(game.gJ * (game.score - game.eJ))).sum =
        -outcomeSum (outcomes.map (gameOf realMath mu)) := by
    simp only [outcomeSum, List.sum_neg, List.map_map]
    rfl
  linarith

/-- A period with games, over the reals. The order of the games does not matter. The deviation is
not larger than the same time without games would leave it under the new volatility. Who wins all
games gains, and who loses all games falls, as far as the floor of 100. -/
theorem compute_games (config : Glicko2Config ℝ) (current after : RatingSnapshot ℝ)
    (outcomes : List (MatchOutcome ℝ)) (played : outcomes ≠ [])
    (computed : compute realMath config current outcomes = some after) :
    (∀ other, outcomes.Perm other → compute realMath config current other = some after) ∧
      (∃ sigma' idle, compute realMath config
          ⟨current.rating, current.deviation, sigma'⟩ [] = some idle ∧
        after.deviation ≤ idle.deviation ∧ after.volatility = idle.volatility) ∧
      ((∀ o ∈ outcomes, o.score = 1) → current.rating < after.rating) ∧
      ((∀ o ∈ outcomes, o.score = 0) → after.rating < current.rating ∨ after.rating = 100) := by
  refine ⟨fun other same => compute_perm same ▸ computed, ?_⟩
  obtain ⟨sigma', positive, _, rfl⟩ := compute_cases played computed
  have vPos : 0 < variance (outcomes.map (gameOf realMath
      ((current.rating - 1500) / GLICKO2_SCALE))) := variance_pos played
  obtain ⟨primePos, smaller, _⟩ :=
    @phiPrime_bounds (current.deviation / GLICKO2_SCALE) _ _ positive vPos
  have scale := scale_pos
  have rescaled : GLICKO2_SCALE * ((current.rating - 1500) / GLICKO2_SCALE) =
      current.rating - 1500 := by field_simp
  refine ⟨⟨sigma', _, rfl, ?_, rfl⟩, fun won => ?_, fun lost => ?_⟩
  · simp only [clamp]
    refine min_le_min le_rfl (max_le_max le_rfl ?_)
    rw [mul_comm]
    exact mul_le_mul_of_nonneg_right smaller.le scale.le
  · have gain := mul_pos scale (mul_pos (mul_pos primePos primePos) (@outcomeSum_pos
      ((current.rating - 1500) / GLICKO2_SCALE) _ played won))
    refine lt_max_of_lt_right ?_
    rw [mul_add, rescaled]
    linarith
  · have loss := mul_neg_of_pos_of_neg scale (mul_neg_of_pos_of_neg (mul_pos primePos primePos)
      (@outcomeSum_neg ((current.rating - 1500) / GLICKO2_SCALE) _ played lost))
    have lower : GLICKO2_SCALE * ((current.rating - 1500) / GLICKO2_SCALE +
        phiPrime realMath (current.deviation / GLICKO2_SCALE) sigma' (variance (outcomes.map
          (gameOf realMath ((current.rating - 1500) / GLICKO2_SCALE)))) *
        phiPrime realMath (current.deviation / GLICKO2_SCALE) sigma' (variance (outcomes.map
          (gameOf realMath ((current.rating - 1500) / GLICKO2_SCALE)))) *
        outcomeSum (outcomes.map (gameOf realMath
          ((current.rating - 1500) / GLICKO2_SCALE)))) + 1500 < current.rating := by
      rw [mul_add, rescaled]
      linarith
    simp only [clamp]
    rcases max_choice (MIN_RATING : ℝ) _ with floor | free
    · exact .inr floor
    · exact .inl (free.trans_lt lower)

/-- A win against a player of the same strength. -/
theorem compute_games_win :
    ∃ after, compute realMath ⟨1 / 2, 1, 100⟩ ⟨1500, 200, 6 / 100⟩
        [⟨⟨1500, 200, 6 / 100⟩, 1⟩] = some after ∧ 1500 < after.rating := by
  let config : Glicko2Config ℝ := ⟨1 / 2, 1, 100⟩
  let player : RatingSnapshot ℝ := ⟨1500, 200, 6 / 100⟩
  let outcomes : List (MatchOutcome ℝ) := [⟨player, 1⟩]
  have weight := g_pos (200 / GLICKO2_SCALE)
  set w := g realMath (200 / GLICKO2_SCALE)
  have even : E realMath ((1500 - 1500) / GLICKO2_SCALE) ((1500 - 1500) / GLICKO2_SCALE) w =
      1 / 2 := by
    simp only [E, realMath, sub_self, mul_zero, Real.exp_zero]
    norm_num
  have games : outcomes.map (gameOf realMath ((player.rating - 1500) / GLICKO2_SCALE)) =
      [⟨w, 1 / 2, 1⟩] := by
    simp only [outcomes, List.map_cons, List.map_nil, gameOf]
    congr 2
  have spread : variance [(⟨w, 1 / 2, 1⟩ : Game ℝ)] = 4 / (w * w) := by
    simp only [variance, List.map_cons, List.map_nil, List.sum_cons, List.sum_nil]
    field_simp
    norm_num
  have result : outcomeSum [(⟨w, 1 / 2, 1⟩ : Game ℝ)] = w / 2 := by
    simp only [outcomeSum, List.map_cons, List.map_nil, List.sum_cons, List.sum_nil]
    ring
  have solved : (solveVolatility realMath config (4 / (w * w) * (w / 2)) (200 / GLICKO2_SCALE)
      (4 / (w * w)) (6 / 100)).isSome := by
    refine solveVolatility_wide (by positivity) ?_ ?_ ?_ ?_
    · have square : 4 / (w * w) * (w / 2) * (4 / (w * w) * (w / 2)) = 4 / (w * w) := by
        field_simp
        norm_num
      rw [square]
      have := mul_self_nonneg ((200 : ℝ) / GLICKO2_SCALE)
      linarith
    all_goals norm_num [config]
  obtain ⟨sigma', found⟩ := Option.isSome_iff_exists.mp solved
  have computed : ∃ after, compute realMath config player outcomes = some after := by
    rw [compute, if_neg nofun]
    simp only [games, spread, result]
    exact ⟨_, Option.map_eq_some_iff.mpr ⟨sigma', found, rfl⟩⟩
  obtain ⟨after, computed⟩ := computed
  refine ⟨after, computed, ?_⟩
  exact (compute_games config player after outcomes nofun computed).2.2.1 (by simp [outcomes])

/-- Two players who meet, as each of them sees the games. -/
def seenBy (opponent : RatingSnapshot ℝ) (scores : List ℝ) : List (MatchOutcome ℝ) :=
  scores.map fun score => ⟨opponent, score⟩

section Opponents

variable {first second : RatingSnapshot ℝ} (deviation : first.deviation = second.deviation)
  (scores : List ℝ)

include deviation

/-- Each game carries the same information for both sides. -/
theorem variance_opponents :
    variance ((seenBy first (scores.map fun score => 1 - score)).map
        (gameOf realMath ((second.rating - 1500) / GLICKO2_SCALE))) =
      variance ((seenBy second scores).map
        (gameOf realMath ((first.rating - 1500) / GLICKO2_SCALE))) := by
  simp only [variance, seenBy, List.map_map]
  congr 2
  apply List.map_congr_left
  intro score _
  simp only [Function.comp_apply, gameOf, deviation]
  rw [E_swap]
  ring

theorem outcomeSum_opponents :
    outcomeSum ((seenBy first (scores.map fun score => 1 - score)).map
        (gameOf realMath ((second.rating - 1500) / GLICKO2_SCALE))) =
      -outcomeSum ((seenBy second scores).map
        (gameOf realMath ((first.rating - 1500) / GLICKO2_SCALE))) := by
  simp only [outcomeSum, seenBy, List.map_map, List.sum_neg]
  congr 1
  apply List.map_congr_left
  intro score _
  simp only [Function.comp_apply, gameOf, deviation]
  rw [E_swap]
  ring

end Opponents

/-- Two players with the same deviation and volatility who play only each other stay so, and
what one of them gains the other loses, as long as nobody is at the floor of 100. The calculator
gives up on both or on neither. -/
theorem compute_opponents (config : Glicko2Config ℝ) (first second : RatingSnapshot ℝ)
    (scores : List ℝ) (deviation : first.deviation = second.deviation)
    (volatility : first.volatility = second.volatility) :
    let ours := compute realMath config first (seenBy second scores)
    let theirs := compute realMath config second (seenBy first (scores.map fun score => 1 - score))
    (ours = none ↔ theirs = none) ∧
      ∀ a b, ours = some a → theirs = some b →
        a.deviation = b.deviation ∧ a.volatility = b.volatility ∧
          (100 < a.rating → 100 < b.rating →
            a.rating + b.rating = first.rating + second.rating) := by
  have free {x : ℝ} (above : 100 < max MIN_RATING x) : max MIN_RATING x = x :=
    max_eq_right (le_of_lt ((lt_max_iff.mp above).resolve_left (lt_irrefl (100 : ℝ))))
  by_cases idle : scores = []
  · subst idle
    refine ⟨by simp [compute, seenBy], ?_⟩
    rintro a b ours theirs
    cases ours
    cases theirs
    simp only [clamp, deviation, volatility, true_and]
    intro above above'
    rw [free above, free above']
  · have played : (seenBy second scores).isEmpty = false := by simpa [seenBy] using idle
    have played' : (seenBy first (scores.map fun score => 1 - score)).isEmpty = false := by
      simpa [seenBy] using idle
    have square (x y : ℝ) : x * -y * (x * -y) = x * y * (x * y) := by ring
    have scale := scale_pos.ne'
    simp only [compute, played, played', Bool.false_eq_true, if_false,
      variance_opponents deviation, outcomeSum_opponents deviation, solveVolatility, square,
      ← deviation, ← volatility, Option.map_eq_none_iff, true_and]
    rintro a b ours theirs
    obtain ⟨sigma', solved, rfl⟩ := Option.map_eq_some_iff.mp ours
    obtain ⟨sigma'', solved', rfl⟩ := Option.map_eq_some_iff.mp theirs
    obtain rfl := Option.some.inj (solved.symm.trans solved')
    simp only [clamp, true_and]
    intro above above'
    rw [free above, free above']
    field_simp
    ring

/-- A draw between a strong and a weak player. -/
theorem compute_opponents_draw :
    compute realMath DEFAULT_GLICKO2_CONFIG ⟨1800, 60, 6 / 100⟩
        (seenBy ⟨1400, 60, 6 / 100⟩ [1 / 2]) = none ↔
      compute realMath DEFAULT_GLICKO2_CONFIG ⟨1400, 60, 6 / 100⟩
        (seenBy ⟨1800, 60, 6 / 100⟩ [1 - 1 / 2]) = none :=
  (compute_opponents DEFAULT_GLICKO2_CONFIG ⟨1800, 60, 6 / 100⟩ ⟨1400, 60, 6 / 100⟩ [1 / 2] rfl
    rfl).1

/-- Periods without games, one after the other. -/
noncomputable def idlePeriods (config : Glicko2Config ℝ) :
    ℕ → RatingSnapshot ℝ → Option (RatingSnapshot ℝ)
  | 0, player => some player
  | n + 1, player => (idlePeriods config n player).bind fun later =>
      compute realMath config later []

/-- What the calculator leaves within its bounds. -/
structure WithinBounds (player : RatingSnapshot ℝ) : Prop where
  rating : MIN_RATING ≤ player.rating
  deviation : MIN_RD ≤ player.deviation ∧ player.deviation ≤ MAX_RD
  volatility : MIN_VOLATILITY ≤ player.volatility ∧ player.volatility ≤ MAX_VOLATILITY

/-- Time on the scale of the ratings. -/
theorem phiStar_scaled (deviation volatility : ℝ) :
    phiStar realMath (deviation / GLICKO2_SCALE) volatility * GLICKO2_SCALE =
      Real.sqrt (deviation * deviation +
        GLICKO2_SCALE * volatility * (GLICKO2_SCALE * volatility)) := by
  have scale := scale_pos
  have square : deviation * deviation +
      GLICKO2_SCALE * volatility * (GLICKO2_SCALE * volatility) =
      (deviation / GLICKO2_SCALE * (deviation / GLICKO2_SCALE) + volatility * volatility) *
        (GLICKO2_SCALE * GLICKO2_SCALE) := by
    field_simp
  rw [square, Real.sqrt_mul' _ (mul_self_nonneg _), Real.sqrt_mul_self scale.le]
  rfl

/-- The ceiling may be put on at every step or at the end. -/
theorem capped_sqrt {square step : ℝ} (step_nonneg : 0 ≤ step) (square_nonneg : 0 ≤ square) :
    min 350 (Real.sqrt (min 350 (Real.sqrt square) * min 350 (Real.sqrt square) + step)) =
      min 350 (Real.sqrt (square + step)) := by
  rcases le_total (Real.sqrt square) 350 with below | above
  · rw [min_eq_right below, Real.mul_self_sqrt square_nonneg]
  · rw [min_eq_left above, min_eq_left, min_eq_left]
    · exact above.trans (Real.sqrt_le_sqrt (by linarith))
    · exact Real.le_sqrt_of_sq_le (by nlinarith)

/-- Time alone: the rating and the volatility stay, and the square of the deviation grows by the
same amount in every period until it reaches 350. -/
theorem idle_periods (config : Glicko2Config ℝ) (player : RatingSnapshot ℝ)
    (bounds : WithinBounds player) (n : ℕ) :
    ∃ later, idlePeriods config n player = some later ∧ later.rating = player.rating ∧
      later.volatility = player.volatility ∧
      later.deviation = min 350 (Real.sqrt (player.deviation * player.deviation +
        n * (GLICKO2_SCALE * player.volatility * (GLICKO2_SCALE * player.volatility)))) := by
  obtain ⟨rating, ⟨low, high⟩, slow, fast⟩ := bounds
  have low : (30 : ℝ) ≤ player.deviation := low
  have high : player.deviation ≤ (350 : ℝ) := high
  set step := GLICKO2_SCALE * player.volatility * (GLICKO2_SCALE * player.volatility)
  have growth : 0 ≤ step := mul_self_nonneg _
  induction n with
  | zero =>
      refine ⟨player, rfl, rfl, rfl, ?_⟩
      rw [Nat.cast_zero, zero_mul, add_zero, Real.sqrt_mul_self (by linarith), min_eq_right high]
  | succ n ih =>
      obtain ⟨later, ran, sameRating, sameVolatility, deviation⟩ := ih
      have total : 0 ≤ player.deviation * player.deviation + n * step := by positivity
      have floor : (30 : ℝ) ≤ later.deviation := by
        rw [deviation]
        refine le_min (by norm_num) (Real.le_sqrt_of_sq_le ?_)
        have : 0 ≤ (n : ℝ) * step := by positivity
        nlinarith
      refine ⟨_, by rw [idlePeriods, ran]; rfl, ?_, ?_, ?_⟩
      · rw [clamp, sameRating]
        exact max_eq_right rating
      · rw [clamp, sameVolatility]
        dsimp only
        rw [max_eq_right slow, min_eq_right fast]
      · simp only [clamp]
        rw [phiStar_scaled, sameVolatility]
        have grown : (30 : ℝ) ≤ Real.sqrt (later.deviation * later.deviation + step) :=
          Real.le_sqrt_of_sq_le (by nlinarith)
        change min 350 (max 30 (Real.sqrt (later.deviation * later.deviation + step))) = _
        rw [max_eq_right grown, deviation, capped_sqrt growth total]
        congr 2
        push_cast
        ring

theorem idle_periods_newcomer :
    ∃ later, idlePeriods DEFAULT_GLICKO2_CONFIG 12 ⟨1500, 100, 6 / 100⟩ = some later ∧
      later.rating = 1500 := by
  have bounds : WithinBounds ⟨1500, 100, 6 / 100⟩ := by
    constructor <;> norm_num [MIN_RATING, MIN_RD, MAX_RD, MIN_VOLATILITY, MAX_VOLATILITY]
  obtain ⟨later, ran, rating, _⟩ :=
    idle_periods DEFAULT_GLICKO2_CONFIG ⟨1500, 100, 6 / 100⟩ bounds 12
  exact ⟨later, ran, rating⟩

end Period

end Farzin.Glicko2
