import Farzin.SwissWeightsLexicographic

set_option autoImplicit false

/- The TB level of a matching as a number whose digits are the places of the bracket: each place
tells who its player meets. -/
namespace Farzin.Swiss

section Places

variable (params : WeightSchemeParams) (split : Int)

/-- The unit of a place; the first place has the highest one. -/
def placeUnit (place : Nat) : Int := tbPower params (params.n - 1 - place)

/-- What an edge writes at a place: at its first end, how good the partner is. -/
def placeDigit : BracketEdge → Nat → Int
  | .real u v, place =>
      (if place = min u.bsn v.bsn then
          2 * (params.n : Int) + 2 - partnerRank params split (max u.bsn v.bsn)
        else 0) +
        if place = max u.bsn v.bsn then 2 * (params.n : Int) + 2 else 0
  | .dummy _, _ => 0

def placeCode (edges : List BracketEdge) (place : Nat) : Int :=
  (edges.map fun edge => placeDigit params split edge place).sum

end Places

/-- The places that an edge uses. -/
def BracketEdge.places (edge : BracketEdge) : List Nat := edge.ends.map BracketSlot.bsn

theorem mem_places {u v : BracketSlot} {place : Nat} :
    place ∈ (BracketEdge.real u v).places ↔ place = u.bsn ∨ place = v.bsn := by
  simp [BracketEdge.places, BracketEdge.ends]

theorem BracketMatching.real_ends {slots : List BracketSlot} {edges : List BracketEdge}
    (matching : BracketMatching slots edges) {u v : BracketSlot} (listed : .real u v ∈ edges) :
    u ∈ slots ∧ v ∈ slots :=
  ⟨matching.inside _ listed u (by simp [BracketEdge.ends]),
    matching.inside _ listed v (by simp [BracketEdge.ends])⟩

section Code

variable {params : WeightSchemeParams} {slots : List BracketSlot} {edges : List BracketEdge}
  {split : Int}

theorem placeUnit_next {place : Nat} (inside : place + 1 < params.n) :
    placeUnit params (place + 1) * (2 * (params.n : Int) + 2 + 1) = placeUnit params place := by
  have exponent : ((params.n : Int) - 1 - (place : Nat)).toNat =
      ((params.n : Int) - 1 - ((place + 1 : Nat) : Int)).toNat + 1 := by omega
  unfold placeUnit tbPower
  rw [exponent, pow_succ, add_assoc]
  rfl

/-- The unit of every place exceeds what the places after it can reach. -/
theorem places_dominate (first count : Nat) (inside : first + count ≤ params.n) :
    MixedRadix.Dominates (placeUnit params) (fun _ => 2 * (params.n : Int) + 2)
      (List.range' first count) := by
  induction count generalizing first with
  | zero => trivial
  | succ count ih =>
      have rest := ih (first + 1) (by omega)
      cases count with
      | zero =>
          refine ⟨?_, trivial⟩
          change 0 < placeUnit params first
          unfold placeUnit tbPower
          positivity
      | succ count =>
          apply MixedRadix.Dominates.cons rest
          exact (placeUnit_next (by omega)).le

/-- An edge writes at its own places only. -/
theorem placeDigit_outside {edge : BracketEdge} {place : Nat} (outside : place ∉ edge.places) :
    placeDigit params split edge place = 0 := by
  cases edge with
  | dummy u => rfl
  | real u v =>
      rw [mem_places, not_or] at outside
      have low : place ≠ min u.bsn v.bsn := by omega
      have high : place ≠ max u.bsn v.bsn := by omega
      rw [placeDigit, if_neg low, if_neg high, add_zero]

theorem flatMap_places (edges : List BracketEdge) :
    (edges.flatMap BracketEdge.ends).map BracketSlot.bsn = edges.flatMap BracketEdge.places := by
  rw [List.map_flatMap]
  rfl

theorem placeCode_outside {place : Nat} (outside : place ∉ edges.flatMap BracketEdge.places) :
    placeCode params split edges place = 0 := by
  apply List.sum_eq_zero
  intro digit listed
  obtain ⟨edge, inside, rfl⟩ := List.mem_map.mp listed
  apply placeDigit_outside
  intro used
  exact outside (List.mem_flatMap.mpr ⟨edge, inside, used⟩)

/-- In a matching a place shows the edge that uses it. -/
theorem placeCode_edge (params : WeightSchemeParams) (split : Int)
    (distinct : (edges.flatMap BracketEdge.places).Nodup) {edge : BracketEdge}
    (listed : edge ∈ edges) {place : Nat} (used : place ∈ edge.places) :
    placeCode params split edges place = placeDigit params split edge place := by
  induction edges with
  | nil => cases listed
  | cons first others ih =>
      rw [List.flatMap_cons] at distinct
      obtain ⟨_, distinctOthers, apart⟩ := List.nodup_append.mp distinct
      unfold placeCode
      rw [List.map_cons, List.sum_cons]
      rcases List.mem_cons.mp listed with rfl | later
      · have silent : placeCode params split others place = 0 := by
          apply placeCode_outside
          intro again
          exact apart place used place again rfl
        unfold placeCode at silent
        rw [silent, add_zero]
      · have silent : placeDigit params split first place = 0 := by
          apply placeDigit_outside
          intro again
          exact apart place again place (List.mem_flatMap.mpr ⟨edge, later, used⟩) rfl
        rw [silent, zero_add]
        exact ih distinctOthers later

theorem partnerRank_inner (split : Int) {hi : Nat} (positive : 0 < hi) (inside : hi < params.n) :
    0 < partnerRank params split hi ∧ partnerRank params split hi < 2 * params.n := by
  unfold partnerRank
  split <;> omega

/-- Partners have different ranks. -/
theorem partnerRank_injective (split : Int) {hi other : Nat} (inside : hi < params.n)
    (insideOther : other < params.n)
    (same : partnerRank params split hi = partnerRank params split other) : hi = other := by
  unfold partnerRank at same
  split at same <;> split at same <;> omega

theorem placeDigit_low {u v : BracketSlot} (below : u.bsn < v.bsn) :
    placeDigit params split (.real u v) u.bsn =
      2 * (params.n : Int) + 2 - partnerRank params split v.bsn := by
  rw [placeDigit, min_eq_left below.le, max_eq_right below.le, if_pos rfl, if_neg below.ne,
    add_zero]

theorem placeDigit_high {u v : BracketSlot} (below : u.bsn < v.bsn) :
    placeDigit params split (.real u v) v.bsn = 2 * (params.n : Int) + 2 := by
  rw [placeDigit, min_eq_left below.le, max_eq_right below.le, if_neg below.ne', if_pos rfl,
    zero_add]

/-- What an edge adds to the TB level is what it writes at the places. -/
theorem contribution_tb {size : Nat} (edge : BracketEdge)
    (inside : ∀ place ∈ edge.places, place < size) : contribution params split edge .tb =
      MixedRadix.value (placeUnit params) (List.range size) (placeDigit params split edge) := by
  cases edge with
  | dummy u => exact (MixedRadix.value_zero _ _).symm
  | real u v =>
      have left : u.bsn < size := inside u.bsn (mem_places.mpr (.inl rfl))
      have right : v.bsn < size := inside v.bsn (mem_places.mpr (.inr rfl))
      have low : min u.bsn v.bsn ∈ List.range size := List.mem_range.mpr (by omega)
      have high : max u.bsn v.bsn ∈ List.range size := List.mem_range.mpr (by omega)
      unfold placeDigit
      rw [MixedRadix.value_add, MixedRadix.value_single _ List.nodup_range low,
        MixedRadix.value_single _ List.nodup_range high]
      simp only [contribution, orderDigit, placeUnit]
      ring

theorem total_tb {size : Nat}
    (inside : ∀ edge ∈ edges, ∀ place ∈ edge.places, place < size) :
    total params split edges .tb =
      MixedRadix.value (placeUnit params) (List.range size) (placeCode params split edges) := by
  unfold placeCode
  rw [MixedRadix.value_sum, total]
  congr 1
  apply List.map_congr_left
  intro edge listed
  exact contribution_tb edge (inside edge listed)

end Code

/-- The edges of a bracket's graph list their ends in the order of the bracket. -/
def BracketEdge.Ordered : BracketEdge → Prop
  | .real u v => u.bsn < v.bsn
  | .dummy _ => True

section Matchings

variable {params : WeightSchemeParams} {slots : List BracketSlot} {edges : List BracketEdge}
  {split : Int}

theorem BracketMatching.distinct (matching : BracketMatching slots edges) :
    (edges.flatMap BracketEdge.places).Nodup := by
  rw [← flatMap_places]
  exact matching.disjoint

theorem BracketMatching.places_lt (matching : BracketMatching slots edges)
    (fits : BracketFits params slots) : ∀ edge ∈ edges, ∀ place ∈ edge.places,
      place < slots.length := by
  intro edge listed place used
  obtain ⟨slot, isEnd, rfl⟩ := List.mem_map.mp used
  have known : slot.bsn ∈ slots.map BracketSlot.bsn :=
    List.mem_map.mpr ⟨slot, matching.inside edge listed slot isEnd, rfl⟩
  rw [fits.positions] at known
  exact List.mem_range.mp known

/-- What a place of a matching can show: nothing, the partner of a first end, or a second end. -/
theorem placeCode_cases (params : WeightSchemeParams) (split : Int)
    (matching : BracketMatching slots edges) (ordered : ∀ edge ∈ edges, edge.Ordered)
    (place : Nat) :
    placeCode params split edges place = 0 ∨
      (∃ u v, .real u v ∈ edges ∧ u.bsn = place ∧
        placeCode params split edges place =
          2 * (params.n : Int) + 2 - partnerRank params split v.bsn) ∨
      ∃ u v, .real u v ∈ edges ∧ v.bsn = place ∧
        placeCode params split edges place = 2 * (params.n : Int) + 2 := by
  by_cases used : place ∈ edges.flatMap BracketEdge.places
  · obtain ⟨edge, listed, here⟩ := List.mem_flatMap.mp used
    have shown := placeCode_edge params split matching.distinct listed here
    cases edge with
    | dummy u => exact .inl shown
    | real u v =>
        have below : u.bsn < v.bsn := ordered _ listed
        rcases mem_places.mp here with rfl | rfl
        · exact .inr (.inl ⟨u, v, listed, rfl, shown.trans (placeDigit_low below)⟩)
        · exact .inr (.inr ⟨u, v, listed, rfl, shown.trans (placeDigit_high below)⟩)
  · exact .inl (placeCode_outside used)

/-- A place shows a number below the base. -/
theorem placeCode_bounds (split : Int) (fits : BracketFits params slots)
    (matching : BracketMatching slots edges) (ordered : ∀ edge ∈ edges, edge.Ordered) (place : Nat) :
    0 ≤ placeCode params split edges place ∧
      placeCode params split edges place ≤ 2 * (params.n : Int) + 2 := by
  rcases placeCode_cases params split matching ordered place with
    shown | ⟨u, v, listed, _, shown⟩ | ⟨u, v, listed, _, shown⟩
  · omega
  · have inside := fits.bsn_lt (matching.real_ends listed).2
    have rank := partnerRank_bounds split v.bsn inside
    omega
  · omega

theorem placeCode_close {others : List BracketEdge} (fits : BracketFits params slots)
    (left : BracketMatching slots edges) (right : BracketMatching slots others)
    (orderedLeft : ∀ edge ∈ edges, edge.Ordered) (orderedRight : ∀ edge ∈ others, edge.Ordered)
    (place : Nat) : |placeCode params split edges place - placeCode params split others place| ≤
      2 * (params.n : Int) + 2 := by
  have one := placeCode_bounds split fits left orderedLeft place
  have two := placeCode_bounds split fits right orderedRight place
  rw [abs_le]
  omega

theorem whole_places (fits : BracketFits params slots) :
    MixedRadix.Dominates (placeUnit params) (fun _ => 2 * (params.n : Int) + 2)
      (List.range slots.length) := by
  rw [List.range_eq_range']
  apply places_dominate
  rw [Nat.zero_add]
  exact fits.size

/-- Matchings of equal value on the TB level show the same at every place. -/
theorem same_places {others : List BracketEdge} (fits : BracketFits params slots)
    (left : BracketMatching slots edges) (right : BracketMatching slots others)
    (orderedLeft : ∀ edge ∈ edges, edge.Ordered) (orderedRight : ∀ edge ∈ others, edge.Ordered)
    (same : total params split edges .tb = total params split others .tb) (place : Nat)
    (inside : place < slots.length) :
    placeCode params split edges place = placeCode params split others place := by
  rw [total_tb (left.places_lt fits), total_tb (right.places_lt fits)] at same
  have codes := ((whole_places fits).compare _ _ fun place _ =>
    placeCode_close fits left right orderedLeft orderedRight place).2.mp same
  exact List.map_inj_left.mp codes place (List.mem_range.mpr inside)

/-- Slots are known by their places. -/
theorem BracketFits.slot_eq (fits : BracketFits params slots) {a b : BracketSlot}
    (left : a ∈ slots) (right : b ∈ slots) (same : a.bsn = b.bsn) : a = b := by
  have distinct : (slots.map BracketSlot.bsn).Nodup := by
    rw [fits.positions]
    exact List.nodup_range
  exact List.inj_on_of_nodup_map distinct left right same

/-- The code of a matching tells its real edges. -/
theorem real_of_places {others : List BracketEdge} (fits : BracketFits params slots)
    (left : BracketMatching slots edges) (right : BracketMatching slots others)
    (orderedLeft : ∀ edge ∈ edges, edge.Ordered) (orderedRight : ∀ edge ∈ others, edge.Ordered)
    (same : ∀ place < slots.length,
      placeCode params split edges place = placeCode params split others place)
    {u v : BracketSlot} (listed : .real u v ∈ edges) : .real u v ∈ others := by
  obtain ⟨insideU, insideV⟩ := left.real_ends listed
  have below : u.bsn < v.bsn := orderedLeft _ listed
  have first : u.bsn ∈ (BracketEdge.real u v).places := mem_places.mpr (.inl rfl)
  have shown := placeCode_edge params split left.distinct listed first
  rw [placeDigit_low below] at shown
  have place : u.bsn < slots.length :=
    left.places_lt fits _ listed u.bsn first
  have also := (same u.bsn place).symm.trans shown
  have rank := partnerRank_inner split (show 0 < v.bsn by omega) (fits.bsn_lt insideV)
  rcases placeCode_cases params split right orderedRight u.bsn with
    other | ⟨u', v', there, meets, other⟩ | ⟨u', v', there, _, other⟩
  · omega
  · obtain ⟨insideU', insideV'⟩ := right.real_ends there
    have partners : v'.bsn = v.bsn :=
      partnerRank_injective split (fits.bsn_lt insideV') (fits.bsn_lt insideV) (by omega)
    rw [← fits.slot_eq insideU' insideU meets, ← fits.slot_eq insideV' insideV partners]
    exact there
  · omega

end Matchings

end Farzin.Swiss
