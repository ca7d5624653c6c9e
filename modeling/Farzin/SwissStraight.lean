import Farzin.SwissUnique

set_option autoImplicit false

/- The straight candidate of a bracket, where it breaks no criterion, is the heaviest matching of
the bracket's graph, and the only one. -/
namespace Farzin.Swiss

/-- S1 against S2, in order. -/
def straightEdges (slots : List BracketSlot) : List BracketEdge :=
  ((slots.take (slots.length / 2)).zip (slots.drop (slots.length / 2))).map fun pair =>
    .real pair.1 pair.2

section Edges

variable {params : WeightSchemeParams} {slots : List BracketSlot}

theorem mem_straightEdges {edge : BracketEdge} (listed : edge ∈ straightEdges slots) :
    ∃ i u v, i < slots.length / 2 ∧ slots[i]? = some u ∧
      slots[slots.length / 2 + i]? = some v ∧ edge = .real u v := by
  obtain ⟨⟨u, v⟩, inside, rfl⟩ := List.mem_map.mp listed
  obtain ⟨i, here⟩ := List.mem_iff_getElem?.mp inside
  obtain ⟨first, second⟩ := List.getElem?_zip_eq_some.mp here
  rw [List.getElem?_take] at first
  rw [List.getElem?_drop] at second
  split at first
  · rename_i below
    exact ⟨i, u, v, below, first, second, rfl⟩
  · cases first

theorem straightEdges_mem {i : Nat} {u v : BracketSlot} (below : i < slots.length / 2)
    (first : slots[i]? = some u) (second : slots[slots.length / 2 + i]? = some v) :
    .real u v ∈ straightEdges slots := by
  apply List.mem_map.mpr
  refine ⟨(u, v), List.mem_iff_getElem?.mpr ⟨i, List.getElem?_zip_eq_some.mpr ⟨?_, ?_⟩⟩, rfl⟩
  · rw [List.getElem?_take, if_pos below]
    exact first
  · rw [List.getElem?_drop]
    exact second

theorem zip_ends {first second : List BracketSlot} (same : first.length = second.length) :
    (((first.zip second).map fun pair => BracketEdge.real pair.1 pair.2).flatMap
      BracketEdge.ends).Perm (first ++ second) := by
  induction first generalizing second with
  | nil =>
      rw [List.length_eq_zero_iff.mp same.symm]
      exact .nil
  | cons a first ih =>
      cases second with
      | nil => cases same
      | cons b second =>
          have rest := ih (Nat.succ.inj same)
          change (a :: b :: _).Perm (a :: (first ++ b :: second))
          exact ((rest.cons b).trans List.perm_middle.symm).cons a

/-- The straight candidate pairs everybody. -/
theorem straight_ends (even : slots.length % 2 = 0) :
    ((straightEdges slots).flatMap BracketEdge.ends).Perm slots := by
  have half : (slots.take (slots.length / 2)).length = (slots.drop (slots.length / 2)).length := by
    rw [List.length_take, List.length_drop]
    omega
  have covered := zip_ends half
  rwa [List.take_append_drop] at covered

theorem BracketFits.bsn_at (fits : BracketFits params slots) {i : Nat} {slot : BracketSlot}
    (here : slots[i]? = some slot) : slot.bsn = i := by
  have known : (slots.map BracketSlot.bsn)[i]? = some slot.bsn := by
    rw [List.getElem?_map, here, Option.map_some]
  rw [fits.positions] at known
  obtain ⟨inside, _⟩ := List.getElem?_eq_some_iff.mp here
  rw [List.getElem?_range inside] at known
  exact (Option.some.inj known).symm

theorem straight_matching (fits : BracketFits params slots) (even : slots.length % 2 = 0) :
    BracketMatching slots (straightEdges slots) where
  inside := by
    intro edge listed slot isEnd
    exact (straight_ends even).mem_iff.mp (List.mem_flatMap.mpr ⟨edge, listed, isEnd⟩)
  disjoint := by
    rw [((straight_ends even).map BracketSlot.bsn).nodup_iff, fits.positions]
    exact List.nodup_range
  oneBye := by
    have none : (straightEdges slots).countP BracketEdge.isDummy = 0 := by
      apply List.countP_eq_zero.mpr
      intro edge listed
      obtain ⟨_, _, _, _, _, _, rfl⟩ := mem_straightEdges listed
      exact Bool.false_ne_true
    omega

theorem straight_ordered (fits : BracketFits params slots) :
    ∀ edge ∈ straightEdges slots, edge.Ordered := by
  intro edge listed
  obtain ⟨i, u, v, below, first, second, rfl⟩ := mem_straightEdges listed
  change u.bsn < v.bsn
  rw [fits.bsn_at first, fits.bsn_at second]
  omega

theorem real_mem_bracketGraph {withDummy : Bool} {u v : BracketSlot}
    (ordered : slots.Pairwise fun a b => a.bsn < b.bsn) (left : u ∈ slots) (right : v ∈ slots)
    (below : u.bsn < v.bsn) (meet : canMeet u.player v.player = true) :
    .real u v ∈ bracketGraph withDummy slots := by
  induction slots with
  | nil => cases left
  | cons si later ih =>
      obtain ⟨first, rest⟩ := List.pairwise_cons.mp ordered
      rw [bracketGraph, List.mem_append, List.mem_append]
      rcases List.mem_cons.mp left with rfl | leftLater
      · rcases List.mem_cons.mp right with rfl | rightLater
        · exact absurd below (lt_irrefl _)
        · exact .inl (.inl (List.mem_map_of_mem (List.mem_filter.mpr ⟨rightLater, meet⟩)))
      · rcases List.mem_cons.mp right with rfl | rightLater
        · exact absurd (first u leftLater) below.not_gt
        · exact .inr (ih rest leftLater rightLater)

end Edges

section Places

variable {params : WeightSchemeParams} {slots : List BracketSlot} {others : List BracketEdge}

/-- A player of S1 has the partner at the same place of S2. -/
theorem straight_code (fits : BracketFits params slots) (even : slots.length % 2 = 0) {place : Nat}
    (inside : place < slots.length) :
    placeCode params (slots.length / 2 : Nat) (straightEdges slots) place =
      if place < slots.length / 2 then
        2 * (params.n : Int) + 2 - (slots.length / 2 + place : Nat)
      else 2 * (params.n : Int) + 2 := by
  have matching := straight_matching fits even
  have ordered := straight_ordered fits
  by_cases below : place < slots.length / 2
  · obtain ⟨u, first⟩ : ∃ u, slots[place]? = some u := ⟨_, List.getElem?_eq_getElem inside⟩
    obtain ⟨v, second⟩ : ∃ v, slots[slots.length / 2 + place]? = some v :=
      ⟨_, List.getElem?_eq_getElem (by omega)⟩
    have listed := straightEdges_mem below first second
    have used : u.bsn ∈ (BracketEdge.real u v).places := mem_places.mpr (.inl rfl)
    have shown := placeCode_edge params (slots.length / 2 : Nat) matching.distinct listed used
    rw [placeDigit_low (ordered _ listed), fits.bsn_at first, fits.bsn_at second] at shown
    rw [shown, if_pos below, partnerRank, if_pos (by omega)]
  · obtain ⟨u, first⟩ : ∃ u, slots[place - slots.length / 2]? = some u :=
      ⟨_, List.getElem?_eq_getElem (by omega)⟩
    obtain ⟨v, second⟩ : ∃ v, slots[slots.length / 2 + (place - slots.length / 2)]? = some v :=
      ⟨_, List.getElem?_eq_getElem (by omega)⟩
    have listed := straightEdges_mem (by omega) first second
    have used : v.bsn ∈ (BracketEdge.real u v).places := mem_places.mpr (.inr rfl)
    have shown := placeCode_edge params (slots.length / 2 : Nat) matching.distinct listed used
    rw [placeDigit_high (ordered _ listed), fits.bsn_at second] at shown
    rw [if_neg below, ← shown]
    congr 1
    omega

/-- Where a matching first differs from the straight one, it pairs a player of S1 with a partner
further down, or with one of S1, or not at all. -/
theorem straight_first (fits : BracketFits params slots) (even : slots.length % 2 = 0)
    (matching : BracketMatching slots others) (ordered : ∀ edge ∈ others, edge.Ordered)
    {place : Nat} (inside : place < slots.length)
    (same : ∀ earlier < place, placeCode params (slots.length / 2 : Nat) others earlier =
      placeCode params (slots.length / 2 : Nat) (straightEdges slots) earlier) :
    placeCode params (slots.length / 2 : Nat) others place ≤
      placeCode params (slots.length / 2 : Nat) (straightEdges slots) place := by
  have size := fits.size
  rw [straight_code fits even inside]
  split
  case isFalse => exact (placeCode_bounds _ fits matching ordered place).2
  case isTrue below =>
    -- The players before this one meet their partners of the straight candidate.
    have earlier : ∀ i < place, ∃ u v, .real u v ∈ others ∧ u.bsn = i ∧
        v.bsn = slots.length / 2 + i := by
      intro i before
      have shown := same i before
      rw [straight_code fits even (by omega), if_pos (by omega)] at shown
      rcases placeCode_cases params (slots.length / 2 : Nat) matching ordered i with
        other | ⟨u, v, listed, isLow, other⟩ | ⟨u, v, listed, isHigh, other⟩
      · omega
      · refine ⟨u, v, listed, isLow, ?_⟩
        have right := fits.bsn_lt (matching.real_ends listed).2
        unfold partnerRank at other
        split at other <;> omega
      · omega
    rcases placeCode_cases params (slots.length / 2 : Nat) matching ordered place with
      other | ⟨u, v, listed, isLow, other⟩ | ⟨u, v, listed, isHigh, other⟩
    · omega
    · have right := fits.bsn_lt (matching.real_ends listed).2
      by_contra better
      have rank : partnerRank params (slots.length / 2 : Nat) v.bsn < slots.length / 2 + place := by
        omega
      unfold partnerRank at rank
      split at rank
      · obtain ⟨u', v', there, isLow', isHigh'⟩ := earlier (v.bsn - slots.length / 2) (by omega)
        have usedHere : v.bsn ∈ (BracketEdge.real u v).places := mem_places.mpr (.inr rfl)
        have usedThere : v.bsn ∈ (BracketEdge.real u' v').places :=
          mem_places.mpr (.inr (by omega))
        have twice := matching.edge_unique listed there usedHere usedThere
        cases twice
        omega
      · omega
    · -- A second end has its first end among the players before it.
      have low : u.bsn < v.bsn := ordered _ listed
      obtain ⟨u', v', there, isLow', isHigh'⟩ := earlier u.bsn (by omega)
      have usedHere : u.bsn ∈ (BracketEdge.real u v).places := mem_places.mpr (.inl rfl)
      have usedThere : u.bsn ∈ (BracketEdge.real u' v').places := mem_places.mpr (.inl isLow'.symm)
      have twice := matching.edge_unique listed there usedHere usedThere
      cases twice
      omega

/-- On the TB level no matching is worth more than the straight one. -/
theorem straight_tb (fits : BracketFits params slots) (even : slots.length % 2 = 0)
    (matching : BracketMatching slots others) (ordered : ∀ edge ∈ others, edge.Ordered) :
    total params (slots.length / 2 : Nat) others .tb ≤
      total params (slots.length / 2 : Nat) (straightEdges slots) .tb := by
  have straight := straight_matching fits even
  rw [total_tb (matching.places_lt fits), total_tb (straight.places_lt fits)]
  apply (whole_places fits).value_le
  · intro place _
    exact placeCode_close fits matching straight ordered (straight_ordered fits) place
  · intro higher place lower parts same
    have length := congrArg List.length parts
    rw [List.length_range, List.length_append, List.length_cons] at length
    have here : place = higher.length := by
      have at' := congrArg (fun list => list[higher.length]?) parts
      simpa [List.getElem?_range (show higher.length < slots.length by omega)] using at'.symm
    apply straight_first fits even matching ordered (by omega)
    intro earlier before
    apply same
    have at' := congrArg (fun list => list[earlier]?) parts
    rw [here] at before
    simp only [List.getElem?_range (show earlier < slots.length by omega),
      List.getElem?_append_left before] at at'
    exact List.mem_of_getElem? at'.symm

end Places

section Levels

variable {params : WeightSchemeParams} {slots : List BracketSlot} {edges others : List BracketEdge}
  {split : Int}

theorem total_zero {level : Level}
    (zero : ∀ edge ∈ edges, contribution params split edge level = 0) :
    total params split edges level = 0 := by
  apply List.sum_eq_zero
  intro digit listed
  obtain ⟨edge, inside, rfl⟩ := List.mem_map.mp listed
  exact zero edge inside

theorem total_nonpos {level : Level}
    (nonpos : ∀ edge ∈ edges, contribution params split edge level ≤ 0) :
    total params split edges level ≤ 0 := by
  calc total params split edges level ≤ (edges.map fun _ => (0 : Int)).sum :=
        List.sum_le_sum nonpos
    _ = 0 := by simp

/-- A level that adds up over the paired players. -/
theorem total_ends {level : Level} (worth : BracketSlot → Int)
    (each : ∀ edge ∈ edges, contribution params split edge level = (edge.ends.map worth).sum) :
    total params split edges level = ((edges.flatMap BracketEdge.ends).map worth).sum := by
  induction edges with
  | nil => rfl
  | cons edge edges ih =>
      have rest := ih fun e listed => each e (List.mem_cons_of_mem _ listed)
      rw [total, List.map_cons, List.sum_cons, each edge List.mem_cons_self, List.flatMap_cons,
        List.map_append, List.sum_append, ← rest, total]

/-- Nobody is paired twice, so a level of bonuses is at most what all players are worth. -/
theorem ends_sum_le (matching : BracketMatching slots others) (worth : BracketSlot → Int)
    (nonneg : ∀ slot, 0 ≤ worth slot) :
    ((others.flatMap BracketEdge.ends).map worth).sum ≤ (slots.map worth).sum := by
  obtain ⟨part, perm, sub⟩ := matching.ends_subperm
  rw [← (perm.map worth).sum_eq]
  apply (sub.map worth).sum_le_sum
  intro value listed
  obtain ⟨slot, _, rfl⟩ := List.mem_map.mp listed
  exact nonneg slot

/-- Two players with the same score do not float. -/
theorem level_scores {u v : BracketSlot} (equal : u.player.scoreX2 = v.player.scoreX2)
    (level : Level)
    (floats : level ∈ [Level.c5, .sd, .c9, .c15, .c17, .c18, .c19, .c20, .c21]) :
    contribution params split (.real u v) level = 0 := by
  have gap : scoreGap u v = 0 := by
    unfold scoreGap
    rw [equal, sub_self]
    rfl
  have off : flag (0 < scoreGap u v) = 0 := by
    rw [gap]
    rfl
  simp only [List.mem_cons, List.not_mem_nil, or_false] at floats
  rcases floats with rfl | rfl | rfl | rfl | rfl | rfl | rfl | rfl | rfl <;>
    simp only [contribution, off, zero_mul, neg_zero]

/-- The colour criteria only take away. -/
theorem level_colors (u v : BracketSlot) (level : Level)
    (colors : level ∈ [Level.c10, .c11, .c12, .c13]) :
    contribution params split (.real u v) level ≤ 0 ∧
      (straightPair (weightScheme params) u.player v.player = true →
        contribution params split (.real u v) level = 0) := by
  simp only [List.mem_cons, List.not_mem_nil, or_false] at colors
  have clean : straightPair (weightScheme params) u.player v.player = true →
      (colorPenaltiesFor u.player v.player params.initialColor).c10 +
        (colorPenaltiesFor u.player v.player params.initialColor).c11 +
        (colorPenaltiesFor u.player v.player params.initialColor).c12 +
        (colorPenaltiesFor u.player v.player params.initialColor).c13 = 0 := by
    intro straight
    unfold straightPair at straight
    exact of_decide_eq_true (Bool.and_eq_true_iff.mp straight).2
  rcases colors with rfl | rfl | rfl | rfl <;> simp only [contribution] <;>
    exact ⟨by omega, fun straight => by have := clean straight; omega⟩

theorem residentDown_nonneg (slot : BracketSlot) (float : FloatDirection) :
    0 ≤ residentDown slot float := (flag_bounds _).1

/-- What a paired player adds to the levels of bonuses. -/
def slotWorth (params : WeightSchemeParams) (level : Level) (slot : BracketSlot) : Int :=
  match level with
  | .c7 => power params (slot.player.scoreX2 - params.minScoreX2)
  | .c14 => residentDown slot slot.player.floatPrev
  | .c16 => residentDown slot slot.player.floatPrevPrev
  | _ => 0

theorem slotWorth_nonneg (level : Level) (slot : BracketSlot) : 0 ≤ slotWorth params level slot := by
  cases level with
  | c7 => exact power_nonneg params _
  | c14 | c16 => exact residentDown_nonneg slot _
  | _ => exact le_rfl

theorem level_bonuses (u v : BracketSlot) (level : Level) (bonus : level ∈ [Level.c7, .c14, .c16]) :
    contribution params split (.real u v) level =
      (((BracketEdge.real u v).ends).map (slotWorth params level)).sum := by
  simp only [List.mem_cons, List.not_mem_nil, or_false] at bonus
  rcases bonus with rfl | rfl | rfl <;>
    simp only [contribution, BracketEdge.ends, slotWorth, List.map_cons, List.map_nil,
      List.sum_cons, List.sum_nil, add_zero]

/-- A bracket of one score without a bye whose straight candidate breaks no criterion. -/
structure StraightFits (params : WeightSchemeParams) (slots : List BracketSlot) : Prop where
  even : slots.length % 2 = 0
  scores : ∀ u ∈ slots, ∀ v ∈ slots, u.player.scoreX2 = v.player.scoreX2
  pairs : ∀ u v, .real u v ∈ straightEdges slots →
    straightPair (weightScheme params) u.player v.player = true

/-- On no level is a matching worth more than the straight one. -/
theorem straight_levels (fits : BracketFits params slots) (straight : StraightFits params slots)
    (matching : BracketMatching slots others) (ordered : ∀ edge ∈ others, edge.Ordered)
    (noBye : ∀ edge ∈ others, edge.isDummy = false) (level : Level) :
    total params (slots.length / 2 : Nat) others level ≤
      total params (slots.length / 2 : Nat) (straightEdges slots) level := by
  have whole := straight_ends straight.even
  have own := straight_matching fits straight.even
  have real : ∀ edge ∈ others, ∃ u v, edge = .real u v := by
    intro edge listed
    cases edge with
    | real u v => exact ⟨u, v, rfl⟩
    | dummy u => cases noBye _ listed
  have realStraight : ∀ edge ∈ straightEdges slots, ∃ u v, edge = .real u v := by
    intro edge listed
    obtain ⟨_, u, v, _, _, _, same⟩ := mem_straightEdges listed
    exact ⟨u, v, same⟩
  have equal : ∀ edges, BracketMatching slots edges → ∀ u v, .real u v ∈ edges →
      u.player.scoreX2 = v.player.scoreX2 := by
    intro edges matching u v listed
    obtain ⟨left, right⟩ := matching.real_ends listed
    exact straight.scores u left v right
  have floats : level ∈ [Level.c5, .sd, .c9, .c15, .c17, .c18, .c19, .c20, .c21] →
      total params (slots.length / 2 : Nat) others level ≤
        total params (slots.length / 2 : Nat) (straightEdges slots) level := by
    intro known
    rw [total_zero, total_zero]
    · intro edge listed
      obtain ⟨u, v, rfl⟩ := realStraight edge listed
      exact level_scores (equal _ own u v listed) level known
    · intro edge listed
      obtain ⟨u, v, rfl⟩ := real edge listed
      exact level_scores (equal _ matching u v listed) level known
  have colors : level ∈ [Level.c10, .c11, .c12, .c13] →
      total params (slots.length / 2 : Nat) others level ≤
        total params (slots.length / 2 : Nat) (straightEdges slots) level := by
    intro known
    have clean : total params (slots.length / 2 : Nat) (straightEdges slots) level = 0 := by
      apply total_zero
      intro edge listed
      obtain ⟨u, v, rfl⟩ := realStraight edge listed
      exact (level_colors u v level known).2 (straight.pairs u v listed)
    rw [clean]
    apply total_nonpos
    intro edge listed
    obtain ⟨u, v, rfl⟩ := real edge listed
    exact (level_colors u v level known).1
  have bonuses : level ∈ [Level.c7, .c14, .c16] →
      total params (slots.length / 2 : Nat) others level ≤
        total params (slots.length / 2 : Nat) (straightEdges slots) level := by
    intro known
    rw [total_ends (slotWorth params level), total_ends (slotWorth params level)]
    · rw [(whole.map _).sum_eq]
      exact ends_sum_le matching _ (slotWorth_nonneg level)
    · intro edge listed
      obtain ⟨u, v, rfl⟩ := realStraight edge listed
      exact level_bonuses u v level known
    · intro edge listed
      obtain ⟨u, v, rfl⟩ := real edge listed
      exact level_bonuses u v level known
  cases level with
  | tb => exact straight_tb fits straight.even matching ordered
  | pair =>
      have mine := length_ends (straightEdges slots)
      have theirs := length_ends others
      have room := matching.ends_subperm.length_le
      have full := whole.length_eq
      have byes : others.countP BracketEdge.isDummy = 0 := by
        apply List.countP_eq_zero.mpr
        intro edge listed
        rw [noBye edge listed]
        exact Bool.false_ne_true
      rw [total_pair, total_pair]
      omega
  | c7 | c14 | c16 => exact bonuses (by decide)
  | c10 | c11 | c12 | c13 => exact colors (by decide)
  | c5 | sd | c9 | c15 | c17 | c18 | c19 | c20 | c21 => exact floats (by decide)

/-- The weights of the units add up what the levels are worth. -/
theorem weight_le (fits : BracketFits params slots) (split : Int) {weight weight' : Int}
    (left : BracketMatching slots others) (right : BracketMatching slots edges)
    (levels : ∀ level, total params split others level ≤ total params split edges level)
    (mine : matchingWeight (weightScheme params) split others = .ok weight)
    (other : matchingWeight (weightScheme params) split edges = .ok weight') :
    weight ≤ weight' := by
  have units := (units_dominate params (spanOf_nonneg fits)).units fun level _ =>
    (abs_nonneg _).trans (abs_total_le fits left split level)
  rw [matchingWeight_ok fits split left.inside, Except.ok.injEq] at mine
  rw [matchingWeight_ok fits split right.inside, Except.ok.injEq] at other
  rw [← mine, ← other]
  apply List.sum_le_sum
  intro level listed
  exact mul_le_mul_of_nonneg_left (levels level) (units level listed).le

end Levels

section Mates

/-- The mate that an edge gives a place; the bye is the place after the last one. -/
def BracketEdge.mateOf (size place : Nat) : BracketEdge → Option Nat
  | .real u v =>
      if place = u.bsn then some v.bsn else if place = v.bsn then some u.bsn else none
  | .dummy u => if place = u.bsn then some size else none

/-- A matching as the matcher returns it. -/
def matesOf (size : Nat) (edges : List BracketEdge) : List (Option Nat) :=
  (List.range size).map fun place => edges.findSome? (BracketEdge.mateOf size place)

variable {params : WeightSchemeParams} {slots : List BracketSlot} {edges others : List BracketEdge}

theorem mateOf_outside {size place : Nat} {edge : BracketEdge} (outside : place ∉ edge.places) :
    edge.mateOf size place = none := by
  cases edge with
  | real u v =>
      rw [mem_places, not_or] at outside
      rw [BracketEdge.mateOf, if_neg outside.1, if_neg outside.2]
  | dummy u =>
      simp only [BracketEdge.places, BracketEdge.ends, List.map_cons, List.map_nil,
        List.mem_cons, List.not_mem_nil, or_false] at outside
      rw [BracketEdge.mateOf, if_neg outside]

/-- The mate of a place is the one that its edge gives. -/
theorem matesOf_edge (matching : BracketMatching slots edges) {size place : Nat}
    (inside : place < size) {edge : BracketEdge} (listed : edge ∈ edges)
    (used : place ∈ edge.places) {mate : Nat} (given : edge.mateOf size place = some mate) :
    (matesOf size edges)[place]? = some (some mate) := by
  have found : edges.findSome? (BracketEdge.mateOf size place) = some mate := by
    cases known : edges.findSome? (BracketEdge.mateOf size place) with
    | none =>
        have none := List.findSome?_eq_none_iff.mp known edge listed
        rw [given] at none
        cases none
    | some other =>
        obtain ⟨edge', there, given'⟩ := List.exists_of_findSome?_eq_some known
        have used' : place ∈ edge'.places := by
          by_contra outside
          rw [mateOf_outside outside] at given'
          cases given'
        have same := matching.edge_unique listed there used used'
        rw [← same, given] at given'
        exact given'.symm
  rw [matesOf, List.getElem?_map, List.getElem?_range inside, Option.map_some, found]

/-- Second ends are passed over. -/
theorem readMatching_skip {mate : List (Option Nat)} {isLast : Bool} {rest : List BracketSlot}
    {found : BracketResult}
    (back : ∀ slot ∈ rest, ∃ m < slot.bsn, mate[slot.bsn]? = some (some m)) :
    readMatching slots mate isLast false rest found = .ok (some found) := by
  induction rest with
  | nil => rfl
  | cons slot rest ih =>
      obtain ⟨m, before, here⟩ := back slot List.mem_cons_self
      rw [readMatching, here]
      dsimp only
      rw [if_neg (by simp), if_neg before.not_gt]
      exact ih fun other listed => back other (List.mem_cons_of_mem _ listed)

/-- First ends give their pairs, in order. -/
theorem readMatching_pairs {mate : List (Option Nat)} {isLast : Bool}
    {first second rest : List BracketSlot} {found : BracketResult}
    (same : first.length = second.length)
    (meets : ∀ pair ∈ first.zip second, mate[pair.1.bsn]? = some (some pair.2.bsn) ∧
      pair.1.bsn < pair.2.bsn ∧ slots[pair.2.bsn]? = some pair.2) :
    readMatching slots mate isLast false (first ++ rest) found =
      readMatching slots mate isLast false rest { found with
        pairs := found.pairs ++
          (first.zip second).map fun pair => (pair.1.player, pair.2.player) } := by
  induction first generalizing second found with
  | nil => simp
  | cons u first ih =>
      cases second with
      | nil => cases same
      | cons v second =>
          obtain ⟨here, below, there⟩ := meets (u, v) List.mem_cons_self
          dsimp only at here below there
          rw [List.cons_append, readMatching, here]
          dsimp only
          rw [if_neg (by simp), if_pos below, there]
          dsimp only
          rw [ih (Nat.succ.inj same) fun pair listed => meets pair (List.mem_cons_of_mem _ listed)]
          simp

/-- The general path reads the straight candidate off its mates. -/
theorem readMatching_straight (fits : BracketFits params slots) (even : slots.length % 2 = 0)
    (matching : BracketMatching slots edges) (same : edges.Perm (straightEdges slots))
    (isLast : Bool) :
    readMatching slots (matesOf slots.length edges) isLast false slots ⟨[], [], none⟩ =
      .ok (some ⟨((slots.take (slots.length / 2)).zip (slots.drop (slots.length / 2))).map
        fun pair => (pair.1.player, pair.2.player), [], none⟩) := by
  have half : (slots.take (slots.length / 2)).length = (slots.drop (slots.length / 2)).length := by
    rw [List.length_take, List.length_drop]
    omega
  have meets : ∀ pair ∈ (slots.take (slots.length / 2)).zip (slots.drop (slots.length / 2)),
      (matesOf slots.length edges)[pair.1.bsn]? = some (some pair.2.bsn) ∧
        pair.1.bsn < pair.2.bsn ∧ slots[pair.2.bsn]? = some pair.2 := by
    intro pair listed
    have inStraight : .real pair.1 pair.2 ∈ straightEdges slots :=
      List.mem_map.mpr ⟨pair, listed, rfl⟩
    obtain ⟨i, u, v, below, first, second, equal⟩ := mem_straightEdges inStraight
    cases equal
    rw [fits.bsn_at first, fits.bsn_at second]
    refine ⟨?_, by omega, second⟩
    apply matesOf_edge matching (by omega) (same.mem_iff.mpr inStraight)
    · exact List.mem_map.mpr ⟨pair.1, List.mem_cons_self, fits.bsn_at first⟩
    · rw [BracketEdge.mateOf, if_pos (fits.bsn_at first).symm, fits.bsn_at second]
  conv => lhs; arg 5; rw [← List.take_append_drop (slots.length / 2) slots]
  rw [readMatching_pairs half meets]
  apply readMatching_skip
  intro slot listed
  obtain ⟨i, here⟩ := List.mem_iff_getElem?.mp listed
  rw [List.getElem?_drop] at here
  obtain ⟨inside, _⟩ := List.getElem?_eq_some_iff.mp here
  obtain ⟨u, first⟩ : ∃ u, slots[i]? = some u := ⟨_, List.getElem?_eq_getElem (by omega)⟩
  have inStraight := straightEdges_mem (by omega) first here
  have low := fits.bsn_at first
  have high := fits.bsn_at here
  refine ⟨u.bsn, by omega, ?_⟩
  apply matesOf_edge matching (by omega) (same.mem_iff.mpr inStraight)
  · exact mem_places.mpr (.inr rfl)
  · rw [BracketEdge.mateOf, if_neg (by omega), if_pos rfl]

end Mates

namespace Bracket

variable (bracket : Bracket)

/-- The shortcut of `pairBracket`. -/
def shortcut : Option (List (SwissPlayer × SwissPlayer)) :=
  if !bracket.withDummy ∧ bracket.carriedCount = 0 ∧ bracket.slots0.length % 2 = 0 ∧
      allSameScore bracket.slots0 then
    tryStraightCandidate bracket.slots0 bracket.scheme
  else none

theorem slots_players : bracket.slots.map BracketSlot.player = bracket.slots0 := by
  apply List.ext_getElem?
  intro i
  rw [slots, List.getElem?_map, bracketSlots_get, Option.map_map]
  exact Option.map_id_apply

variable {bracket} {pairs : List (SwissPlayer × SwissPlayer)}

/-- What is known when the shortcut fires. -/
theorem shortcut_fires (fires : bracket.shortcut = some pairs) :
    bracket.withDummy = false ∧ bracket.carriedCount = 0 ∧ bracket.slots0.length % 2 = 0 ∧
      allSameScore bracket.slots0 = true ∧
      tryStraightCandidate bracket.slots0 bracket.scheme = some pairs := by
  unfold shortcut at fires
  split at fires
  · rename_i conditions
    obtain ⟨noBye, noCarried, even, scores⟩ := conditions
    exact ⟨by simpa using noBye, noCarried, even, scores, fires⟩
  · cases fires

theorem shortcut_pairs (fires : bracket.shortcut = some pairs) :
    pairs = (bracket.slots0.take (bracket.slots0.length / 2)).zip
        (bracket.slots0.drop (bracket.slots0.length / 2)) ∧
      ∀ pair ∈ pairs, straightPair bracket.scheme pair.1 pair.2 = true := by
  obtain ⟨_, _, _, _, straight⟩ := shortcut_fires fires
  unfold tryStraightCandidate at straight
  dsimp only at straight
  split at straight
  · rename_i fit
    cases straight
    exact ⟨rfl, List.all_eq_true.mp fit⟩
  · cases straight

theorem straightEdges_pairs (fires : bracket.shortcut = some pairs) :
    ((bracket.slots.take (bracket.slots.length / 2)).zip
      (bracket.slots.drop (bracket.slots.length / 2))).map
        (fun pair => (pair.1.player, pair.2.player)) = pairs := by
  rw [(shortcut_pairs fires).1, ← bracket.slots_length]
  conv => rhs; rw [← bracket.slots_players, ← List.map_take, ← List.map_drop, List.zip_map]
  rfl

theorem shortcut_fits (fires : bracket.shortcut = some pairs) :
    StraightFits bracket.params bracket.slots where
  even := by
    rw [bracket.slots_length]
    exact (shortcut_fires fires).2.2.1
  scores := by
    have same : ∀ p ∈ bracket.slots0, ∀ q ∈ bracket.slots0, p.scoreX2 = q.scoreX2 := by
      have all := (shortcut_fires fires).2.2.2.1
      unfold allSameScore at all
      intro p left q right
      split at all
      · rename_i none
        rw [none] at left
        cases left
      · have level := List.all_eq_true.mp all
        exact (of_decide_eq_true (level p left)).trans (of_decide_eq_true (level q right)).symm
    intro u left v right
    exact same _ (List.mem_of_getElem? (bracketSlots_player left)) _
      (List.mem_of_getElem? (bracketSlots_player right))
  pairs := by
    intro u v listed
    apply (shortcut_pairs fires).2 (u.player, v.player)
    rw [← straightEdges_pairs fires]
    obtain ⟨pair, inside, same⟩ := List.mem_map.mp listed
    cases same
    exact List.mem_map.mpr ⟨pair, inside, rfl⟩

theorem shortcut_split (fires : bracket.shortcut = some pairs) :
    bracket.split = bracket.slots.length / 2 := by
  rw [split, (shortcut_fires fires).2.1, bracketSplit, if_neg (lt_irrefl 0), bracket.slots_length]

/-- The straight candidate is a matching of the bracket's graph. -/
theorem shortcut_matching (fires : bracket.shortcut = some pairs) :
    MatchingOf bracket.graph bracket.slots (straightEdges bracket.slots) where
  toBracketMatching := straight_matching bracket.fits (shortcut_fits fires).even
  listed := by
    intro edge listed
    obtain ⟨i, u, v, below, first, second, rfl⟩ := mem_straightEdges listed
    have meet := (shortcut_fits fires).pairs u v listed
    unfold straightPair at meet
    exact real_mem_bracketGraph (bracketSlots_ordered _ _) (List.mem_of_getElem? first)
      (List.mem_of_getElem? second) (straight_ordered bracket.fits _ listed)
      (Bool.and_eq_true_iff.mp meet).1

theorem shortcut_le (fires : bracket.shortcut = some pairs) {others : List BracketEdge}
    (matching : MatchingOf bracket.graph bracket.slots others) (level : Level) :
    total bracket.params bracket.split others level ≤
      total bracket.params bracket.split (straightEdges bracket.slots) level := by
  have known := fun edge listed => mem_bracketGraph
    (bracketSlots_ordered bracket.slots0 bracket.carriedCount) (matching.listed edge listed)
  rw [shortcut_split fires]
  apply straight_levels bracket.fits (shortcut_fits fires) matching.toBracketMatching
  · intro edge listed
    exact (known edge listed).1
  · intro edge listed
    by_contra dummy
    have bye := (known edge listed).2.2 (by simpa using dummy)
    rw [(shortcut_fires fires).1] at bye
    cases bye

end Bracket

/-- Where the shortcut fires its pairing is the heaviest matching of the bracket's graph, every
other one weighs less, and the general path reads the same pairs off a heaviest matching. -/
theorem straight_agrees (bracket : Bracket) (pairs : List (SwissPlayer × SwissPlayer))
    (isLast : Bool) (fires : bracket.shortcut = some pairs) :
    pairBracket bracket.slots0 bracket.carriedCount bracket.scheme isLast bracket.withDummy =
        .ok (some ⟨pairs, [], none⟩) ∧
      Heaviest bracket.scheme bracket.split bracket.graph bracket.slots
        (straightEdges bracket.slots) ∧
      (∀ others, MatchingOf bracket.graph bracket.slots others →
        ¬ others.Perm (straightEdges bracket.slots) →
        ∃ weight weight', matchingWeight bracket.scheme bracket.split others = .ok weight ∧
          matchingWeight bracket.scheme bracket.split (straightEdges bracket.slots) = .ok weight' ∧
          weight < weight') ∧
      ∀ edges, Heaviest bracket.scheme bracket.split bracket.graph bracket.slots edges →
        readMatching bracket.slots (matesOf bracket.slots.length edges) isLast bracket.withDummy
          bracket.slots ⟨[], [], none⟩ = .ok (some ⟨pairs, [], none⟩) := by
  have own := Bracket.shortcut_matching fires
  have conditions := Bracket.shortcut_fires fires
  have lighter : ∀ others, MatchingOf bracket.graph bracket.slots others →
      ¬ others.Perm (straightEdges bracket.slots) →
      ∃ weight weight', matchingWeight bracket.scheme bracket.split others = .ok weight ∧
        matchingWeight bracket.scheme bracket.split (straightEdges bracket.slots) = .ok weight' ∧
        weight < weight' := by
    intro others matching apart
    obtain ⟨weight, weight', mine, other, _, equal⟩ := weights_compare bracket.fits
      matching.toBracketMatching own.toBracketMatching bracket.split
    have most := weight_le bracket.fits bracket.split matching.toBracketMatching
      own.toBracketMatching (Bracket.shortcut_le fires matching) mine other
    refine ⟨weight, weight', mine, other, lt_of_le_of_ne most fun same => apart ?_⟩
    apply same_edges bracket.fits matching own _ (tb_of_totals (equal.mp same))
    intro dummy
    rw [conditions.1] at dummy
    cases dummy
  refine ⟨?_, ⟨own, ?_⟩, lighter, ?_⟩
  · unfold pairBracket
    split
    · rename_i empty
      have none : pairs = [] := by
        rw [(Bracket.shortcut_pairs fires).1, List.length_eq_zero_iff.mp empty]
        rfl
      rw [conditions.1, none]
      rfl
    · have same : (if !bracket.withDummy ∧ bracket.carriedCount = 0 ∧
          bracket.slots0.length % 2 = 0 ∧ allSameScore bracket.slots0 then
        tryStraightCandidate bracket.slots0 bracket.scheme else none) = some pairs := fires
      dsimp only
      rw [same]
      rfl
  · intro others matching weight weight' mine other
    exact weight_le bracket.fits bracket.split matching.toBracketMatching own.toBracketMatching
      (Bracket.shortcut_le fires matching) other mine
  · intro edges heaviest
    have same : edges.Perm (straightEdges bracket.slots) := by
      by_contra apart
      obtain ⟨weight, weight', mine, other, less⟩ := lighter edges heaviest.matching apart
      have most := heaviest.most _ own weight weight' mine other
      omega
    rw [conditions.1, readMatching_straight bracket.fits (Bracket.shortcut_fits fires).even
      heaviest.matching.toBracketMatching same isLast, Bracket.straightEdges_pairs fires]

/-- Four players before the first round. -/
def fourStates : List PlayerPairingState :=
  (List.range 4).map fun seat =>
    { playerId := seat + 1, pairingNumber := seat + 1, points := 0, opponentIds := [],
      colorHistory := [], floatHistory := [], hasReceivedBye := false, isWithdrawn := false,
      joinedAtRound := 1 }

def fourBracket : Bracket where
  states := fourStates
  roundNumber := 1
  totalRounds := 5
  initialColor := .white
  slots0 := prepareSwissPlayers fourStates 1 5
  carriedCount := 0
  withDummy := false
  drawn := List.Subperm.refl _

theorem fourBracket_straight :
    ∃ pairs, fourBracket.shortcut = some pairs ∧
      Heaviest fourBracket.scheme fourBracket.split fourBracket.graph fourBracket.slots
        (straightEdges fourBracket.slots) := by
  have fires : fourBracket.shortcut.isSome := by decide +kernel
  obtain ⟨pairs, fires⟩ := Option.isSome_iff_exists.mp fires
  exact ⟨pairs, fires, (straight_agrees fourBracket pairs false fires).2.1⟩

end Farzin.Swiss
