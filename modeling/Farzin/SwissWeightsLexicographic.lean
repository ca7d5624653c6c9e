import Farzin.SwissWeightsBounds

set_option autoImplicit false

/- The weights of matchings compare as their totals do, level by level. -/
namespace Farzin.Swiss

section Units

variable {params : WeightSchemeParams}

/-- The constructor's two powers are the ranges it has prepared for. -/
theorem bases_eq (params : WeightSchemeParams) (span : 0 ≤ spanOf params) :
    (weightScheme params).bases = levelBases params (tbPower params (params.n + 1))
      (power params (spanOf params + 2)) params.n (spanOf params) := by
  have order : bpow (2 * (params.n : Int) + 3) (params.n + 1) = tbPower params (params.n + 1) := by
    have powers := bpow_eq (2 * (params.n : Int) + 3) (params.n + 1)
    push_cast at powers
    rw [powers, tbPower]
    rfl
  have exponential : bpow ((params.n : Int) + 1) (spanOf params + 2) =
      power params (spanOf params + 2) := by
    have powers := bpow_eq ((params.n : Int) + 1) (spanOf params + 2).toNat
    rw [Int.toNat_of_nonneg (by omega)] at powers
    rw [powers, power]
  simp only [weightScheme]
  rw [order]
  unfold spanOf at exponential ⊢
  rw [exponential]

/-- The highest level has room for the span of C5 twice over. -/
theorem pair_room (params : WeightSchemeParams) (span : 0 ≤ spanOf params) :
    (levelBases params (tbPower params (params.n + 1)) (power params (spanOf params + 2)) params.n
      (spanOf params)).unit .c5 * (cap params .c5 + 1) ≤
      (levelBases params (tbPower params (params.n + 1)) (power params (spanOf params + 2)) params.n
        (spanOf params)).unit .pair := by
  have order := tbPower_nonneg params (params.n + 1)
  have exponential := power_nonneg params (spanOf params + 2)
  have c5 : 0 ≤ (levelBases params (tbPower params (params.n + 1))
      (power params (spanOf params + 2)) params.n (spanOf params)).baseC5 := by
    unfold levelBases
    positivity
  have whole : (levelBases params (tbPower params (params.n + 1))
      (power params (spanOf params + 2)) params.n (spanOf params)).basePair =
        (levelBases params (tbPower params (params.n + 1)) (power params (spanOf params + 2))
          params.n (spanOf params)).baseC5 * (spanOf params + 1) * 2 + 1 := rfl
  simp only [LevelBases.unit, cap]
  rw [whole]
  have room := mul_nonneg c5 (show 0 ≤ spanOf params + 1 by omega)
  linarith

/-- Every unit exceeds what all lower levels can reach. -/
theorem units_dominate (params : WeightSchemeParams) (span : 0 ≤ spanOf params) :
    MixedRadix.Dominates (weightScheme params).bases.unit (cap params) Level.all := by
  rw [bases_eq params span]
  have positive := pair_room params span
  unfold Level.all
  apply MixedRadix.Dominates.cons _ positive
  iterate 16 refine MixedRadix.Dominates.cons ?_ le_rfl
  exact ⟨Int.one_pos, trivial⟩

end Units

section Weights

variable {params : WeightSchemeParams} {slots : List BracketSlot} {edges : List BracketEdge}

/-- The weight of a matching is the value of its totals. -/
theorem matchingWeight_ok (fits : BracketFits params slots) (split : Int)
    (inside : ∀ edge ∈ edges, ∀ slot ∈ edge.ends, slot ∈ slots) :
    matchingWeight (weightScheme params) split edges =
      .ok (MixedRadix.value (weightScheme params).bases.unit Level.all
        (total params split edges)) := by
  have weights : edges.mapM (edgeWeight (weightScheme params) split) =
      .ok (edges.map fun edge => MixedRadix.value (weightScheme params).bases.unit Level.all
        (contribution params split edge)) := by
    induction edges with
    | nil => rfl
    | cons edge edges ih =>
        rw [List.mapM_cons, edgeWeight_ok fits split edge (inside edge List.mem_cons_self),
          ih fun e listed => inside e (List.mem_cons_of_mem _ listed)]
        rfl
  unfold matchingWeight
  rw [weights]
  change Except.ok _ = Except.ok _
  rw [← MixedRadix.value_sum]
  rfl

/-- A single edge of the bracket is a matching. -/
theorem single_matching (edge : BracketEdge) (inside : ∀ slot ∈ edge.ends, slot ∈ slots)
    (apart : (edge.ends.map BracketSlot.bsn).Nodup) : BracketMatching slots [edge] where
  inside := by
    intro e listed
    rw [List.mem_singleton.mp listed]
    exact inside
  disjoint := by
    rw [List.flatMap_singleton]
    exact apart
  oneBye := List.countP_le_length

theorem edgeWeight_nonneg (fits : BracketFits params slots) (split : Int) (edge : BracketEdge)
    (inside : ∀ slot ∈ edge.ends, slot ∈ slots) (apart : (edge.ends.map BracketSlot.bsn).Nodup) :
    0 ≤ MixedRadix.value (weightScheme params).bases.unit Level.all
      (contribution params split edge) := by
  have dominates := units_dominate params (spanOf_nonneg fits)
  have single := single_matching edge inside apart
  have lower := dominates.lower_lt fun level _ => by
    have bound := abs_total_le fits single split level
    simp only [total, List.map_cons, List.map_nil, List.sum_cons, List.sum_nil, add_zero] at bound
    exact bound
  have paired : contribution params split edge .pair = 1 := by cases edge <;> rfl
  rw [Level.all, MixedRadix.value_cons, paired, mul_one]
  have bounds := abs_lt.mp lower
  linarith [bounds.1]

/-- The weights of the matchings of a bracket order them by their totals, from the highest
level to the lowest; no level outweighs one unit of a higher one, no edge has a negative
weight and no power is looked up out of range. -/
theorem weights_lexicographic (params : WeightSchemeParams) (slots : List BracketSlot)
    (split : Int) (fits : BracketFits params slots) :
    (∀ edge, (∀ slot ∈ edge.ends, slot ∈ slots) → (edge.ends.map BracketSlot.bsn).Nodup →
      ∃ weight, edgeWeight (weightScheme params) split edge = .ok weight ∧ 0 ≤ weight) ∧
    (∀ edges, BracketMatching slots edges →
      ∀ higher level lower, Level.all = higher ++ level :: lower →
        |MixedRadix.value (weightScheme params).bases.unit lower (total params split edges)| <
          (weightScheme params).bases.unit level) ∧
    ∀ first second, BracketMatching slots first → BracketMatching slots second →
      ∃ weight weight', matchingWeight (weightScheme params) split first = .ok weight ∧
        matchingWeight (weightScheme params) split second = .ok weight' ∧
        (weight < weight' ↔ totals params split first < totals params split second) ∧
        (weight = weight' ↔ totals params split first = totals params split second) := by
  have dominates := units_dominate params (spanOf_nonneg fits)
  refine ⟨?_, ?_, ?_⟩
  · intro edge inside apart
    exact ⟨_, edgeWeight_ok fits split edge inside, edgeWeight_nonneg fits split edge inside apart⟩
  · intro edges matching higher level lower parts
    rw [parts] at dominates
    exact dominates.drop.lower_lt fun l _ => abs_total_le fits matching split l
  · intro first second left right
    refine ⟨_, _, matchingWeight_ok fits split left.inside, matchingWeight_ok fits split right.inside,
      ?_⟩
    exact dominates.compare _ _ fun level _ => abs_total_sub_le fits left right split level

/-- A bracket of three players, of whom one leads by half a point. -/
def threeSlots : List BracketSlot :=
  [(1, 3), (2, 2), (3, 2)].mapIdx fun bsn (seat : Nat × Int) =>
    { player :=
        { state := { playerId := seat.1, pairingNumber := seat.1, points := seat.2 / 2,
                     opponentIds := [], colorHistory := [], floatHistory := [],
                     hasReceivedBye := false, isWithdrawn := false, joinedAtRound := 1 }
          rankIndex := bsn, scoreX2 := seat.2, colorDiff := 0, pref := ⟨none, .none⟩,
          isTopscorer := false, unplayedCount := 0, floatPrev := .none, floatPrevPrev := .none,
          pabEligible := true }
      bsn := bsn
      carried := false }

def threeParams : WeightSchemeParams :=
  { n := 3, minScoreX2 := 2, maxScoreX2 := 3, maxUnplayed := 1, initialColor := .white }

theorem threeSlots_fit : BracketFits threeParams threeSlots where
  size := by decide
  range := by decide
  scores := by decide
  unplayed := by decide
  positions := by decide

/-- The leader meets the player at `place`, the third one has the bye. -/
def threeMatching (place : Nat) : List BracketEdge :=
  match threeSlots[0]?, threeSlots[place]?, threeSlots[3 - place]? with
  | some leader, some other, some third => [.real leader other, .dummy third]
  | _, _, _ => []

theorem threeMatching_matches : BracketMatching threeSlots (threeMatching 1) ∧
    BracketMatching threeSlots (threeMatching 2) := by
  refine ⟨⟨?_, ?_, ?_⟩, ⟨?_, ?_, ?_⟩⟩ <;> decide +kernel

theorem threeSlots_ordered :
    ∃ weight weight', matchingWeight (weightScheme threeParams) 1 (threeMatching 1) = .ok weight ∧
      matchingWeight (weightScheme threeParams) 1 (threeMatching 2) = .ok weight' ∧
      (weight < weight' ↔
        totals threeParams 1 (threeMatching 1) < totals threeParams 1 (threeMatching 2)) ∧
      (weight = weight' ↔
        totals threeParams 1 (threeMatching 1) = totals threeParams 1 (threeMatching 2)) :=
  (weights_lexicographic threeParams threeSlots 1 threeSlots_fit).2.2 (threeMatching 1)
    (threeMatching 2) threeMatching_matches.1 threeMatching_matches.2

end Weights

end Farzin.Swiss
