import Farzin.SwissWeightsOrder
import Mathlib.Algebra.Order.BigOperators.Ring.Finset
import Mathlib.Algebra.Ring.GeomSum

set_option autoImplicit false

/- How much one matching can accumulate on each level. A bracket has at most `n` slots,
and a matching uses each of them once. -/
namespace Farzin.Swiss

section Bounds

variable (params : WeightSchemeParams)

def spanOf : Int := params.maxScoreX2 - params.minScoreX2

/-- The range of a level, as the constructor reckons it. -/
def cap : Level → Int
  | .pair => params.n
  | .c5 => spanOf params
  | .c7 | .sd | .c18 | .c19 | .c20 | .c21 => power params (spanOf params + 2)
  | .c9 => params.maxUnplayed
  | .c10 | .c11 | .c12 | .c13 | .c14 | .c15 | .c16 | .c17 => params.n
  | .tb => tbPower params (params.n + 1)

/-- Bonuses count up, penalties down. -/
def Level.sign : Level → Int
  | .pair | .c5 | .c7 | .c9 | .c14 | .c16 | .tb => 1
  | .sd | .c10 | .c11 | .c12 | .c13 | .c15 | .c17 | .c18 | .c19 | .c20 | .c21 => -1

/-- What one slot can contribute to a level. -/
def slotBound (level : Level) (bsn : Nat) : Int :=
  match level with
  | .c5 | .c9 => 0
  | .c7 | .sd | .c18 | .c19 | .c20 | .c21 => power params (spanOf params)
  | .tb => (2 * params.n + 2) * tbPower params (params.n - 1 - bsn)
  | _ => 1

/-- What a bye contributes to the two levels that only look at it. -/
def byeBound : Level → Int
  | .c5 => spanOf params
  | .c9 => params.maxUnplayed
  | _ => 0

theorem power_nonneg (e : Int) : 0 ≤ power params e := by
  unfold power
  positivity

theorem tbPower_nonneg (e : Int) : 0 ≤ tbPower params e := by
  unfold tbPower
  positivity

theorem power_mono {e f : Int} (le : e ≤ f) : power params e ≤ power params f := by
  unfold power
  exact pow_le_pow_right₀ (by omega) (by omega)

theorem slotBound_nonneg (level : Level) (bsn : Nat) : 0 ≤ slotBound params level bsn := by
  have range := power_nonneg params (spanOf params)
  have order := tbPower_nonneg params (params.n - 1 - bsn)
  cases level <;> simp only [slotBound] <;> first | exact range | positivity

theorem flag_bounds (p : Prop) [Decidable p] : 0 ≤ flag p ∧ flag p ≤ 1 := by
  unfold flag
  split <;> decide

theorem charge_le (pens : ColorPenalties) (p : SwissPlayer) (got : Color) :
    (pens.charge p got).c10 ≤ pens.c10 + 1 ∧ (pens.charge p got).c11 ≤ pens.c11 + 1 ∧
      (pens.charge p got).c12 ≤ pens.c12 + 1 ∧ (pens.charge p got).c13 ≤ pens.c13 + 1 := by
  refine ⟨?_, ?_, ?_, ?_⟩
  all_goals
    simp only [ColorPenalties.charge]
    split <;> omega

/-- Each colour criterion is broken at most twice in a pair. -/
theorem colorPenaltiesFor_le (a b : SwissPlayer) (initialColor : Color) :
    (colorPenaltiesFor a b initialColor).c10 ≤ 2 ∧ (colorPenaltiesFor a b initialColor).c11 ≤ 2 ∧
      (colorPenaltiesFor a b initialColor).c12 ≤ 2 ∧
      (colorPenaltiesFor a b initialColor).c13 ≤ 2 := by
  unfold colorPenaltiesFor
  have second := charge_le (((⟨0, 0, 0, 0, (allocateColors (toAllocationSide a)
    (toAllocationSide b) initialColor).firstIsWhite⟩ : ColorPenalties).charge a
      (if (allocateColors (toAllocationSide a) (toAllocationSide b) initialColor).firstIsWhite
        then .white else .black))) b
      (if (allocateColors (toAllocationSide a) (toAllocationSide b) initialColor).firstIsWhite
        then .black else .white)
  have first := charge_le (⟨0, 0, 0, 0, (allocateColors (toAllocationSide a)
    (toAllocationSide b) initialColor).firstIsWhite⟩ : ColorPenalties) a
      (if (allocateColors (toAllocationSide a) (toAllocationSide b) initialColor).firstIsWhite
        then .white else .black)
  dsimp only at first second ⊢
  omega

variable {params} {slots : List BracketSlot}

theorem partnerRank_bounds (split : Int) (hi : Nat) (inside : hi < params.n) :
    0 ≤ partnerRank params split hi ∧ partnerRank params split hi ≤ 2 * params.n + 2 := by
  unfold partnerRank
  split <;> omega

theorem orderDigit_bounds (split : Int) (lo hi : Nat) (inside : hi < params.n) :
    0 ≤ orderDigit params split lo hi ∧
      orderDigit params split lo hi ≤
        slotBound params .tb lo + slotBound params .tb hi := by
  have rank := @partnerRank_bounds params split hi inside
  have low := tbPower_nonneg params (params.n - 1 - lo)
  have high := tbPower_nonneg params (params.n - 1 - hi)
  unfold orderDigit slotBound
  constructor <;> nlinarith

/-- What the ends of an edge can contribute, plus what a bye can. -/
def edgeBound (params : WeightSchemeParams) (level : Level) (edge : BracketEdge) : Int :=
  (edge.ends.map fun slot => slotBound params level slot.bsn).sum +
    if edge.isDummy then byeBound params level else 0

theorem dummy_bounds (fits : BracketFits params slots) (split : Int) (u : BracketSlot)
    (inside : u ∈ slots) (level : Level) :
    0 ≤ level.sign * contribution params split (.dummy u) level ∧
      level.sign * contribution params split (.dummy u) level ≤
        edgeBound params level (.dummy u) := by
  have scores := fits.scores u inside
  have slot := slotBound_nonneg params level u.bsn
  have span : 0 ≤ spanOf params := by
    have range := fits.range
    unfold spanOf
    omega
  simp only [edgeBound, BracketEdge.ends, BracketEdge.isDummy, List.map_cons, List.map_nil,
    List.sum_cons, List.sum_nil, if_true]
  cases level <;>
    simp only [Level.sign, contribution, byeBound, slotBound, spanOf] at slot ⊢ <;> omega

theorem flag_mul_power (p : Prop) [Decidable p] (x : Int) (nonneg : 0 ≤ x) :
    0 ≤ flag p * x ∧ flag p * x ≤ x := by
  have bounds := flag_bounds p
  constructor <;> nlinarith

theorem flag_mul_flag (p q : Prop) [Decidable p] [Decidable q] :
    0 ≤ flag p * flag q ∧ flag p * flag q ≤ 1 := by
  have left := flag_bounds p
  have right := flag_bounds q
  constructor <;> nlinarith

/-- A float penalty that applies is at most one power of the whole range. -/
theorem gap_bounds (p q : Prop) [Decidable p] [Decidable q] (gap : Int)
    (high : gap ≤ spanOf params) :
    0 ≤ flag p * flag q * power params gap ∧
      flag p * flag q * power params gap ≤ power params (spanOf params) := by
  have flags := flag_mul_flag p q
  have low := power_nonneg params gap
  have top := power_mono params high
  constructor <;> nlinarith

theorem real_bounds (fits : BracketFits params slots) (split : Int) (u v : BracketSlot)
    (left : u ∈ slots) (right : v ∈ slots) (level : Level) :
    0 ≤ level.sign * contribution params split (.real u v) level ∧
      level.sign * contribution params split (.real u v) level ≤
        edgeBound params level (.real u v) := by
  have gap : scoreGap u v ≤ spanOf params := (scoreGap_le fits left right).2
  have pens := colorPenaltiesFor_le u.player v.player params.initialColor
  have range := power_nonneg params (spanOf params)
  have first := fits.scores u left
  have second := fits.scores v right
  have powerU := power_mono params (show u.player.scoreX2 - params.minScoreX2 ≤ spanOf params by
    unfold spanOf; omega)
  have powerV := power_mono params (show v.player.scoreX2 - params.minScoreX2 ≤ spanOf params by
    unfold spanOf; omega)
  have lowU := power_nonneg params (u.player.scoreX2 - params.minScoreX2)
  have lowV := power_nonneg params (v.player.scoreX2 - params.minScoreX2)
  simp only [edgeBound, BracketEdge.ends, BracketEdge.isDummy, List.map_cons, List.map_nil,
    List.sum_cons, List.sum_nil]
  cases level with
  | pair | c5 | c7 | c9 | c10 | c11 | c12 | c13 =>
      simp only [Level.sign, contribution, slotBound, Bool.false_eq_true, if_false]
      constructor <;> omega
  | sd =>
      have bounds := flag_mul_power (0 < scoreGap u v) _ (power_nonneg params (scoreGap u v))
      have top := power_mono params gap
      simp only [Level.sign, contribution, slotBound, Bool.false_eq_true, if_false]
      constructor <;> omega
  | c14 =>
      have here := flag_bounds (u.carried = false ∧ u.player.floatPrev = .down)
      have there := flag_bounds (v.carried = false ∧ v.player.floatPrev = .down)
      simp only [Level.sign, contribution, residentDown, slotBound, Bool.false_eq_true, if_false]
      constructor <;> omega
  | c16 =>
      have here := flag_bounds (u.carried = false ∧ u.player.floatPrevPrev = .down)
      have there := flag_bounds (v.carried = false ∧ v.player.floatPrevPrev = .down)
      simp only [Level.sign, contribution, residentDown, slotBound, Bool.false_eq_true, if_false]
      constructor <;> omega
  | c15 =>
      have bounds := flag_mul_flag (0 < scoreGap u v) ((upSide u v).floatPrev = .up)
      simp only [Level.sign, contribution, slotBound, Bool.false_eq_true, if_false]
      constructor <;> omega
  | c17 =>
      have bounds := flag_mul_flag (0 < scoreGap u v) ((upSide u v).floatPrevPrev = .up)
      simp only [Level.sign, contribution, slotBound, Bool.false_eq_true, if_false]
      constructor <;> omega
  | c18 =>
      have bounds := gap_bounds (0 < scoreGap u v) ((downSide u v).floatPrev = .down) _ gap
      simp only [Level.sign, contribution, slotBound, Bool.false_eq_true, if_false]
      constructor <;> omega
  | c19 =>
      have bounds := gap_bounds (0 < scoreGap u v) ((upSide u v).floatPrev = .up) _ gap
      simp only [Level.sign, contribution, slotBound, Bool.false_eq_true, if_false]
      constructor <;> omega
  | c20 =>
      have bounds := gap_bounds (0 < scoreGap u v) ((downSide u v).floatPrevPrev = .down) _ gap
      simp only [Level.sign, contribution, slotBound, Bool.false_eq_true, if_false]
      constructor <;> omega
  | c21 =>
      have bounds := gap_bounds (0 < scoreGap u v) ((upSide u v).floatPrevPrev = .up) _ gap
      simp only [Level.sign, contribution, slotBound, Bool.false_eq_true, if_false]
      constructor <;> omega
  | tb =>
      have here := fits.bsn_lt left
      have there := fits.bsn_lt right
      have bounds := @orderDigit_bounds params split (min u.bsn v.bsn) (max u.bsn v.bsn) (by omega)
      simp only [Level.sign, contribution, Bool.false_eq_true, if_false, one_mul, add_zero]
      rcases le_total u.bsn v.bsn with below | above
      · rw [min_eq_left below, max_eq_right below] at bounds ⊢
        exact bounds
      · rw [min_eq_right above, max_eq_left above] at bounds ⊢
        exact ⟨bounds.1, bounds.2.trans_eq (add_comm _ _)⟩

theorem edge_bounds (fits : BracketFits params slots) (split : Int) (edge : BracketEdge)
    (inside : ∀ slot ∈ edge.ends, slot ∈ slots) (level : Level) :
    0 ≤ level.sign * contribution params split edge level ∧
      level.sign * contribution params split edge level ≤ edgeBound params level edge := by
  cases edge with
  | real u v =>
      exact real_bounds fits split u v (inside u (by simp [BracketEdge.ends]))
        (inside v (by simp [BracketEdge.ends])) level
  | dummy u => exact dummy_bounds fits split u (inside u (by simp [BracketEdge.ends])) level

end Bounds

section Totals

variable {params : WeightSchemeParams} {slots : List BracketSlot} {edges : List BracketEdge}

theorem sum_sign (split : Int) (level : Level) (edges : List BracketEdge) :
    level.sign * total params split edges level =
      (edges.map fun edge => level.sign * contribution params split edge level).sum := by
  rw [total, List.sum_map_mul_left]

theorem sum_edgeBound (level : Level) (edges : List BracketEdge) :
    (edges.map (edgeBound params level)).sum =
      (((edges.flatMap BracketEdge.ends).map BracketSlot.bsn).map (slotBound params level)).sum +
        byeBound params level * edges.countP BracketEdge.isDummy := by
  induction edges with
  | nil => simp
  | cons edge edges ih =>
      rw [List.map_cons, List.sum_cons, ih, List.flatMap_cons, List.map_append, List.map_append,
        List.sum_append, List.countP_cons, edgeBound]
      simp only [List.map_map, Function.comp_def]
      by_cases bye : edge.isDummy = true
      · simp only [bye, if_true]
        push_cast
        ring
      · simp only [bye, Bool.false_eq_true, if_false]
        push_cast
        ring

/-- A matching uses each of the at most `n` places once. -/
theorem sum_places_le (level : Level) (places : List Nat) (distinct : places.Nodup)
    (inside : ∀ b ∈ places, b < params.n) :
    (places.map (slotBound params level)).sum ≤
      ∑ b ∈ Finset.range params.n, slotBound params level b := by
  rw [← List.sum_toFinset _ distinct]
  apply Finset.sum_le_sum_of_subset_of_nonneg
  · intro b listed
    rw [Finset.mem_range]
    exact inside b (List.mem_toFinset.mp listed)
  · intro b _ _
    exact slotBound_nonneg params level b

/-- The geometric sum behind the range of the TB level. -/
theorem sum_tbPower_le (n : Nat) :
    (∑ b ∈ Finset.range n, (2 * (n : Int) + 2) * (2 * (n : Int) + 3) ^ (n - 1 - b)) ≤
      (2 * (n : Int) + 3) ^ (n + 1) := by
  have reversed := Finset.sum_range_reflect
    (fun e => (2 * (n : Int) + 2) * (2 * (n : Int) + 3) ^ e) n
  have closed := geom_sum_mul (2 * (n : Int) + 3) n
  rw [reversed, ← Finset.mul_sum]
  have factor : (2 * (n : Int) + 3) - 1 = 2 * n + 2 := by ring
  rw [factor] at closed
  rw [mul_comm, closed, pow_succ]
  have positive : 0 < (2 * (n : Int) + 3) ^ n := by positivity
  nlinarith

theorem spanOf_nonneg (fits : BracketFits params slots) : 0 ≤ spanOf params := by
  have range := fits.range
  unfold spanOf
  omega

/-- All places together stay within the range of the level. -/
theorem all_places_le (fits : BracketFits params slots) (level : Level) :
    (∑ b ∈ Finset.range params.n, slotBound params level b) + byeBound params level ≤
      cap params level := by
  have range := spanOf_nonneg fits
  have constant : (params.n : Int) * power params (spanOf params) ≤
      power params (spanOf params + 2) := by
    unfold power
    rw [show (spanOf params + 2).toNat = (spanOf params).toNat + 2 by omega, pow_add]
    have nonneg : 0 ≤ ((params.n : Int) + 1) ^ (spanOf params).toNat := by positivity
    nlinarith [sq_nonneg ((params.n : Int))]
  cases level with
  | tb =>
      have bound := sum_tbPower_le params.n
      have terms : ∀ b ∈ Finset.range params.n, slotBound params .tb b =
          (2 * (params.n : Int) + 2) * (2 * (params.n : Int) + 3) ^ (params.n - 1 - b) := by
        intro b inside
        have below := Finset.mem_range.mp inside
        simp only [slotBound, tbPower]
        rw [show ((params.n : Int) - 1 - b).toNat = params.n - 1 - b by omega]
      rw [Finset.sum_congr rfl terms]
      simp only [byeBound, add_zero, cap, tbPower]
      rw [show ((params.n : Int) + 1).toNat = params.n + 1 by omega]
      exact bound
  | c5 | c9 => simp [slotBound, byeBound, cap]
  | c7 | sd | c18 | c19 | c20 | c21 =>
      simp only [slotBound, byeBound, cap, Finset.sum_const, Finset.card_range, nsmul_eq_mul,
        add_zero]
      exact constant
  | pair | c10 | c11 | c12 | c13 | c14 | c15 | c16 | c17 =>
      simp [slotBound, byeBound, cap]

theorem byeBound_nonneg (fits : BracketFits params slots) (level : Level) :
    0 ≤ byeBound params level := by
  have range := spanOf_nonneg fits
  cases level <;> simp only [byeBound] <;> omega

/-- What a whole matching adds to a level stays within the level's range. -/
theorem total_bounds (fits : BracketFits params slots) (matching : BracketMatching slots edges)
    (split : Int) (level : Level) :
    0 ≤ level.sign * total params split edges level ∧
      level.sign * total params split edges level ≤ cap params level := by
  rw [sum_sign]
  have each : ∀ edge ∈ edges, 0 ≤ level.sign * contribution params split edge level ∧
      level.sign * contribution params split edge level ≤ edgeBound params level edge :=
    fun edge listed => edge_bounds fits split edge (matching.inside edge listed) level
  have places : ∀ b ∈ (edges.flatMap BracketEdge.ends).map BracketSlot.bsn, b < params.n := by
    intro b listed
    obtain ⟨slot, ends, rfl⟩ := List.mem_map.mp listed
    obtain ⟨edge, inside, member⟩ := List.mem_flatMap.mp ends
    exact fits.bsn_lt (matching.inside edge inside slot member)
  have upper := List.sum_le_sum fun edge listed => (each edge listed).2
  have once := sum_places_le level _ matching.disjoint places
  have whole := all_places_le fits level
  have bye := byeBound_nonneg fits level
  have count : ((edges.countP BracketEdge.isDummy : Nat) : Int) ≤ 1 := by
    exact_mod_cast matching.oneBye
  have byes : byeBound params level * edges.countP BracketEdge.isDummy ≤ byeBound params level := by
    nlinarith
  constructor
  · apply List.sum_nonneg
    intro term listed
    obtain ⟨edge, inside, rfl⟩ := List.mem_map.mp listed
    exact (each edge inside).1
  · calc (edges.map fun edge => level.sign * contribution params split edge level).sum
        ≤ (edges.map (edgeBound params level)).sum := upper
      _ = _ := sum_edgeBound level edges
      _ ≤ cap params level := by linarith

/-- A sign does not change the size. -/
theorem abs_total_le (fits : BracketFits params slots) (matching : BracketMatching slots edges)
    (split : Int) (level : Level) : |total params split edges level| ≤ cap params level := by
  have bounds := total_bounds fits matching split level
  rw [abs_le]
  cases level <;> simp only [Level.sign] at bounds <;> omega

/-- Two matchings of one bracket differ on a level by its range at most. -/
theorem abs_total_sub_le {first second : List BracketEdge} (fits : BracketFits params slots)
    (left : BracketMatching slots first) (right : BracketMatching slots second) (split : Int)
    (level : Level) :
    |total params split first level - total params split second level| ≤ cap params level := by
  have one := total_bounds fits left split level
  have two := total_bounds fits right split level
  rw [abs_le]
  cases level <;> simp only [Level.sign] at one two <;> omega

end Totals

end Farzin.Swiss
