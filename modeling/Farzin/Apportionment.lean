import Mathlib.Algebra.Order.BigOperators.Group.List
import Mathlib.Algebra.Order.Ring.Int
import Mathlib.Data.Rat.Floor
import Mathlib.Tactic.Ring
import Mathlib.Tactic.Linarith

set_option autoImplicit false

/- An integer amount shared out in proportion to integer weights. The rounded-down shares
fall short of the amount by fewer units than there are weights, and the units left can be
handed out one to a share. -/
namespace Farzin.Apportionment

/-- The shares rounded down. -/
def floors (amount total : Int) (weights : List Int) : List Int :=
  weights.map fun weight => amount * weight / total

/-- The units that the rounded-down shares leave over. -/
def leftover (amount total : Int) (weights : List Int) : Int :=
  amount - (floors amount total weights).sum

/-- One unit more for each of the first `count` shares. -/
def spread (count : Nat) (shares : List Int) : List Int :=
  shares.mapIdx fun index share => if index < count then share + 1 else share

@[simp] theorem floors_length (amount total : Int) (weights : List Int) :
    (floors amount total weights).length = weights.length := List.length_map _

@[simp] theorem spread_length (count : Nat) (shares : List Int) :
    (spread count shares).length = shares.length := List.length_mapIdx

@[simp] theorem spread_zero (shares : List Int) : spread 0 shares = shares := by
  simp [spread, List.mapIdx_eq_iff]

@[simp] theorem spread_nil (count : Nat) : spread count [] = [] := rfl

theorem spread_cons (count : Nat) (share : Int) (shares : List Int) :
    spread (count + 1) (share :: shares) = (share + 1) :: spread count shares := by
  simp [spread, List.mapIdx_cons]

theorem spread_get (count : Nat) (shares : List Int) (index : Nat) :
    (spread count shares)[index]? =
      shares[index]?.map fun share => if index < count then share + 1 else share :=
  List.getElem?_mapIdx

/-- Handing out adds as many units as there are shares to take them. -/
theorem spread_sum (count : Nat) (shares : List Int) (enough : count ≤ shares.length) :
    (spread count shares).sum = shares.sum + count := by
  induction shares generalizing count with
  | nil =>
      have none : count = 0 := Nat.le_zero.mp enough
      simp [none]
  | cons share shares ih =>
      cases count with
      | zero => simp
      | succ count =>
          have rest := ih count (Nat.le_of_succ_le_succ enough)
          rw [spread_cons, List.sum_cons, List.sum_cons, rest]
          push_cast
          ring

theorem sum_div_mod (amount total : Int) (weights : List Int) :
    total * (floors amount total weights).sum +
      (weights.map fun weight => amount * weight % total).sum = amount * weights.sum := by
  induction weights with
  | nil => simp [floors]
  | cons weight weights ih =>
      have split := Int.mul_ediv_add_emod (amount * weight) total
      simp only [floors, List.map_cons, List.sum_cons] at ih ⊢
      linarith

section

variable {total : Int} {weights : List Int}

/-- What is left over, in units of the total, is what the divisions cut off. -/
theorem total_mul_leftover (amount : Int) (whole : weights.sum = total) :
    total * leftover amount total weights =
      (weights.map fun weight => amount * weight % total).sum := by
  have split := sum_div_mod amount total weights
  rw [whole] at split
  have expand : total * leftover amount total weights =
      amount * total - total * (floors amount total weights).sum := by
    rw [leftover]
    ring
  linarith

theorem sum_mod_nonneg (amount : Int) (positive : 0 < total) (weights : List Int) :
    0 ≤ (weights.map fun weight => amount * weight % total).sum := by
  refine List.sum_nonneg fun cut listed => ?_
  obtain ⟨weight, -, rfl⟩ := List.mem_map.mp listed
  exact Int.emod_nonneg _ (by omega)

theorem sum_mod_le (amount : Int) (positive : 0 < total) (weights : List Int) :
    (weights.map fun weight => amount * weight % total).sum ≤
      weights.length * (total - 1) := by
  induction weights with
  | nil => simp
  | cons weight weights ih =>
      have cut := Int.emod_lt_of_pos (amount * weight) positive
      simp only [List.map_cons, List.sum_cons, List.length_cons]
      push_cast
      linarith

theorem leftover_nonneg (amount : Int) (whole : weights.sum = total) (positive : 0 < total) :
    0 ≤ leftover amount total weights := by
  have cuts := sum_mod_nonneg amount positive weights
  rw [← total_mul_leftover amount whole] at cuts
  exact nonneg_of_mul_nonneg_right cuts positive

/-- Fewer units are left over than there are shares. -/
theorem leftover_lt (amount : Int) (whole : weights.sum = total) (positive : 0 < total) :
    leftover amount total weights < weights.length := by
  have nonempty : 0 < weights.length := by
    cases weights with
    | nil => simp [← whole] at positive
    | cons weight weights => exact Nat.succ_pos _
  have cuts := sum_mod_le amount positive weights
  rw [← total_mul_leftover amount whole] at cuts
  have below : total * leftover amount total weights < total * weights.length := by
    have some : (0 : Int) < weights.length := by exact_mod_cast nonempty
    linarith
  exact lt_of_mul_lt_mul_left below positive.le

/-- Nothing is left over exactly when every share is a whole number of units. -/
theorem leftover_eq_zero (amount : Int) (whole : weights.sum = total) (positive : 0 < total) :
    leftover amount total weights = 0 ↔ ∀ weight ∈ weights, total ∣ amount * weight := by
  have cuts := total_mul_leftover amount whole
  have nonneg : ∀ cut ∈ weights.map fun weight => amount * weight % total, 0 ≤ cut := by
    intro cut listed
    obtain ⟨weight, -, rfl⟩ := List.mem_map.mp listed
    exact Int.emod_nonneg _ (by omega)
  constructor
  · intro nothing weight listed
    rw [nothing, mul_zero] at cuts
    have zero := List.all_zero_of_le_zero_le_of_sum_eq_zero nonneg cuts.symm
      (List.mem_map_of_mem listed)
    exact Int.dvd_of_emod_eq_zero zero
  · intro exact
    have zeros : (weights.map fun weight => amount * weight % total).sum = 0 := by
      refine List.sum_eq_zero fun cut listed => ?_
      obtain ⟨weight, member, rfl⟩ := List.mem_map.mp listed
      exact Int.emod_eq_zero_of_dvd (exact weight member)
    rw [zeros] at cuts
    rcases mul_eq_zero.mp cuts with none | nothing
    · omega
    · exact nothing

/-- Shares rounded down with the units left over handed out make up the amount. -/
theorem spread_floors_sum (amount : Int) (whole : weights.sum = total) (positive : 0 < total) :
    (spread (leftover amount total weights).toNat (floors amount total weights)).sum =
      amount := by
  have nonneg := leftover_nonneg amount whole positive
  have below := leftover_lt amount whole positive
  have enough : (leftover amount total weights).toNat ≤
      (floors amount total weights).length := by
    rw [floors_length]
    omega
  rw [spread_sum _ _ enough, Int.toNat_of_nonneg nonneg, leftover]
  ring

end

/-- Shares cut toward zero are the negated shares of the negated amount, rounded down. -/
theorem truncated_neg {amount total : Int} {weights : List Int} (negative : amount < 0)
    (nonneg : ∀ weight ∈ weights, 0 ≤ weight) :
    (weights.map fun weight => (amount * weight).tdiv total).sum =
      -(floors (-amount) total weights).sum := by
  induction weights with
  | nil => simp [floors]
  | cons weight weights ih =>
      have rest := ih fun w listed => nonneg w (List.mem_cons_of_mem _ listed)
      have sign : 0 ≤ -amount * weight :=
        mul_nonneg (by omega) (nonneg weight List.mem_cons_self)
      have first : (amount * weight).tdiv total = -(-amount * weight / total) := by
        rw [← Int.tdiv_eq_ediv_of_nonneg sign, ← Int.neg_tdiv, neg_mul, neg_neg]
      simp only [floors, List.map_cons, List.sum_cons] at rest ⊢
      rw [first, rest]
      ring

section

variable {total : Int} (positive : 0 < total) (product : Int)
include positive

theorem floor_share : ⌊(product / total : ℚ)⌋ = product / total := by
  obtain ⟨count, rfl⟩ := Int.eq_ofNat_of_zero_le positive.le
  exact Rat.floor_intCast_div_natCast product count

/-- Rounding up gives one unit more, unless the share is whole. -/
theorem ceil_share : ⌈(product / total : ℚ)⌉ =
    if total ∣ product then product / total else product / total + 1 := by
  have nonzero : total ≠ 0 := by omega
  have up : ⌈(product / total : ℚ)⌉ = -(-product / total) := by
    rw [← floor_share positive, Int.cast_neg, neg_div, Int.floor_neg, neg_neg]
  have split := Int.mul_ediv_add_emod product total
  rw [up]
  split_ifs with whole
  · rw [Int.neg_ediv_of_dvd whole, neg_neg]
  · rw [Int.neg_ediv, if_neg whole, Int.sign_eq_one_of_pos positive]
    ring

end

end Farzin.Apportionment
