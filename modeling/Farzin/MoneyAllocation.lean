import Farzin.Apportionment
import Farzin.Checked

set_option autoImplicit false

/- Amounts of money in minor units, and how one amount is allocated to several parts. -/
namespace Farzin.MoneyAllocation

open Farzin.Checked Farzin.Apportionment

inductive Currency where
  | uzs
  | usd
  | eur
  deriving DecidableEq, Repr

structure Money where
  amount : Int
  currency : Currency
  deriving DecidableEq, Repr

structure RangeError where
  message : String
  deriving DecidableEq, Repr

/-- One step of the reduction that adds up the ratios. -/
def addRatio (sum ratio : Int) : Except RangeError Int :=
  if ratio < 0 then .error ⟨"allocate() manfiy nisbat qabul qilmaydi"⟩ else .ok (sum + ratio)

/-- One pass of the first loop: the share is pushed and taken off the remainder. The division
of big integers cuts toward zero. -/
def pushShare (amount total : Int) (state : List Int × Int) (ratio : Int) : List Int × Int :=
  let share := (amount * ratio).tdiv total
  (state.1 ++ [share], state.2 - share)

/-- One pass of the second loop. The index rises by one from zero, so an index past the end
is the one right behind the last share. -/
def addUnit (shares : List Int) (index : Nat) : List Int :=
  let share := shares[index]?.getD 0 + 1
  if index < shares.length then shares.set index share else shares ++ [share]

def allocate (money : Money) (ratios : List Int) : Except RangeError (List Money) := do
  if ratios.length = 0 then
    throw ⟨"allocate() bo'sh nisbat massivi bilan chaqirilmaydi"⟩
  let total ← ratios.foldlM addRatio 0
  if total = 0 then
    throw ⟨"allocate() nisbatlar yig'indisi noldan katta bo'lishi kerak"⟩
  let (shares, remainder) := ratios.foldl (pushShare money.amount total) ([], money.amount)
  -- the loop runs while its index is below the remainder, so not at all below zero
  let shares := (List.range remainder.toNat).foldl addUnit shares
  return shares.map fun share => ⟨share, money.currency⟩

/-- The shares before the remainder is handed out. -/
def truncated (amount total : Int) (ratios : List Int) : List Int :=
  ratios.map fun ratio => (amount * ratio).tdiv total

theorem pushShare_run (amount total : Int) (ratios shares : List Int) (remainder : Int) :
    ratios.foldl (pushShare amount total) (shares, remainder) =
      (shares ++ truncated amount total ratios,
        remainder - (truncated amount total ratios).sum) := by
  induction ratios generalizing shares remainder with
  | nil => simp [truncated]
  | cons ratio ratios ih =>
      rw [List.foldl_cons, pushShare, ih]
      simp only [truncated, List.map_cons, List.sum_cons, List.append_assoc, List.cons_append,
        List.nil_append, Prod.mk.injEq, true_and]
      ring

theorem addUnit_get (shares : List Int) {index : Nat} (inside : index < shares.length)
    (i : Nat) : (addUnit shares index)[i]? =
      if i = index then shares[index]?.map (· + 1) else shares[i]? := by
  rw [addUnit, if_pos inside, List.getElem?_set]
  by_cases same : index = i
  · subst same
    simp [inside]
  · rw [if_neg same, if_neg (Ne.symm same)]

/-- The second loop hands one unit to each share in front of the count. -/
theorem addUnit_run (shares : List Int) (count : Nat) (enough : count ≤ shares.length) :
    (List.range count).foldl addUnit shares = spread count shares := by
  induction count with
  | zero => simp
  | succ count ih =>
      have before := ih (Nat.le_of_succ_le enough)
      have inside : count < (spread count shares).length := by
        rw [spread_length]
        exact enough
      rw [List.range_succ, List.foldl_append, before, List.foldl_cons, List.foldl_nil]
      refine List.ext_getElem? fun i => ?_
      rw [addUnit_get _ inside, spread_get, spread_get, spread_get]
      by_cases last : i = count
      · subst last
        simp
      · have bound : i < count + 1 ↔ i < count := by omega
        simp only [if_neg last, bound]

theorem addRatio_run (ratios : List Int) (sum : Int) (nonneg : ∀ ratio ∈ ratios, 0 ≤ ratio) :
    ratios.foldlM addRatio sum = .ok (sum + ratios.sum) := by
  induction ratios generalizing sum with
  | nil => simp
  | cons ratio ratios ih =>
      have first : addRatio sum ratio = .ok (sum + ratio) :=
        if_neg (Int.not_lt.mpr (nonneg ratio List.mem_cons_self))
      have rest := ih (sum + ratio) fun r listed => nonneg r (List.mem_cons_of_mem _ listed)
      rw [List.foldlM_cons, first, ok_bind, rest, List.sum_cons, add_assoc]

theorem truncated_of_nonneg {ratios : List Int} {amount : Int} (total : Int)
    (nonneg : ∀ ratio ∈ ratios, 0 ≤ ratio) (whole : 0 ≤ amount) :
    truncated amount total ratios = floors amount total ratios := by
  refine List.map_congr_left fun ratio listed => ?_
  exact Int.tdiv_eq_ediv_of_nonneg (mul_nonneg whole (nonneg ratio listed))

section

variable {ratios : List Int} (nonneg : ∀ ratio ∈ ratios, 0 ≤ ratio) (positive : 0 < ratios.sum)
include nonneg positive

/-- What `allocate` returns on ratios that pass its checks. -/
theorem allocate_ok (money : Money) : allocate money ratios =
    let shares := truncated money.amount ratios.sum ratios
    .ok (((List.range (money.amount - shares.sum).toNat).foldl addUnit shares).map
      fun share => ⟨share, money.currency⟩) := by
  have nonempty : ratios.length ≠ 0 := by
    intro empty
    rw [List.length_eq_zero_iff.mp empty] at positive
    exact absurd positive (lt_irrefl 0)
  have nonzero : ratios.sum ≠ 0 := by omega
  simp only [allocate, if_neg nonempty, addRatio_run ratios 0 nonneg, zero_add, pushShare_run,
    List.nil_append, ok_bind, if_neg nonzero, pure_eq]

/-- Of an amount that is not negative the parts are the rounded-down shares, the first ones
with one unit more. -/
theorem allocate_nonneg {money : Money} (whole : 0 ≤ money.amount) : allocate money ratios =
    .ok ((spread (leftover money.amount ratios.sum ratios).toNat
      (floors money.amount ratios.sum ratios)).map fun share => ⟨share, money.currency⟩) := by
  have below := leftover_lt money.amount rfl positive
  have enough : (leftover money.amount ratios.sum ratios).toNat ≤
      (floors money.amount ratios.sum ratios).length := by
    rw [floors_length]
    omega
  rw [allocate_ok nonneg positive, truncated_of_nonneg _ nonneg whole,
    ← addUnit_run _ _ enough, leftover]

/-- Of a negative amount nothing is handed out after the division. -/
theorem allocate_negative {money : Money} (negative : money.amount < 0) :
    allocate money ratios = .ok ((truncated money.amount ratios.sum ratios).map
      fun share => ⟨share, money.currency⟩) := by
  have owed : 0 ≤ leftover (-money.amount) ratios.sum ratios := leftover_nonneg _ rfl positive
  have sum : (truncated money.amount ratios.sum ratios).sum =
      -(floors (-money.amount) ratios.sum ratios).sum := truncated_neg negative nonneg
  have none : (money.amount - (truncated money.amount ratios.sum ratios).sum).toNat = 0 := by
    rw [leftover] at owed
    rw [sum]
    omega
  rw [allocate_ok nonneg positive]
  simp only [none, List.range_zero, List.foldl_nil]

end

/-- The parts make up the amount, in its currency. -/
def Conserves (money : Money) (parts : List Money) : Prop :=
  (parts.map Money.amount).sum = money.amount ∧
    ∀ part ∈ parts, part.currency = money.currency

/-- The part is its share rounded down or up, and nothing for a ratio of zero. -/
def Quota (amount total ratio part : Int) : Prop :=
  (part = ⌊((amount * ratio : Int) / total : ℚ)⌋ ∨
    part = ⌈((amount * ratio : Int) / total : ℚ)⌉) ∧ (ratio = 0 → part = 0)

theorem conserves_iff (money : Money) (shares : List Int) :
    Conserves money (shares.map fun share => ⟨share, money.currency⟩) ↔
      shares.sum = money.amount := by
  have amounts : (shares.map fun share => Money.mk share money.currency).map Money.amount =
      shares := by
    rw [List.map_map]
    exact List.map_id shares
  rw [Conserves, amounts]
  refine ⟨And.left, fun sum => ⟨sum, fun part listed => ?_⟩⟩
  obtain ⟨share, -, rfl⟩ := List.mem_map.mp listed
  rfl

/-- Cut toward zero, the shares of a negative amount make it up only if they are whole. -/
theorem truncated_sum_iff {amount : Int} {ratios : List Int} (negative : amount < 0)
    (nonneg : ∀ ratio ∈ ratios, 0 ≤ ratio) (positive : 0 < ratios.sum) :
    (truncated amount ratios.sum ratios).sum = amount ↔
      ∀ ratio ∈ ratios, ratios.sum ∣ amount * ratio := by
  have sum : (truncated amount ratios.sum ratios).sum =
      -(floors (-amount) ratios.sum ratios).sum := truncated_neg negative nonneg
  have nothing : (truncated amount ratios.sum ratios).sum = amount ↔
      leftover (-amount) ratios.sum ratios = 0 := by
    rw [sum, leftover]
    omega
  rw [nothing, leftover_eq_zero (-amount) rfl positive]
  simp only [neg_mul, Int.dvd_neg]

/-- The parts of an allocation make up the amount whenever it is not negative; a negative
amount is made up only when no share of it has to be rounded. -/
theorem allocate_conserves_iff (money : Money) (ratios : List Int)
    (nonneg : ∀ ratio ∈ ratios, 0 ≤ ratio) (positive : 0 < ratios.sum) :
    (∃ parts, allocate money ratios = .ok parts ∧ Conserves money parts) ↔
      0 ≤ money.amount ∨ ∀ ratio ∈ ratios, ratios.sum ∣ money.amount * ratio := by
  rcases le_or_gt 0 money.amount with whole | negative
  · have made : (spread (leftover money.amount ratios.sum ratios).toNat
        (floors money.amount ratios.sum ratios)).sum = money.amount :=
      spread_floors_sum money.amount rfl positive
    refine ⟨fun _ => .inl whole, fun _ => ⟨_, allocate_nonneg nonneg positive whole, ?_⟩⟩
    exact (conserves_iff money _).mpr made
  · have iff := truncated_sum_iff negative nonneg positive
    have returned := allocate_negative nonneg positive negative
    constructor
    · intro conserved
      obtain ⟨parts, same, conserves⟩ := conserved
      rw [returned] at same
      cases same
      exact .inr (iff.mp ((conserves_iff money _).mp conserves))
    · intro condition
      rcases condition with whole | whole
      · omega
      · exact ⟨_, returned, (conserves_iff money _).mpr (iff.mpr whole)⟩

theorem allocate_conserves_iff_thirds :
    (∃ parts, allocate ⟨-100, .uzs⟩ [1, 1, 1] = .ok parts ∧ Conserves ⟨-100, .uzs⟩ parts) ↔
      (0 : Int) ≤ -100 ∨ ∀ ratio ∈ [1, 1, 1], [1, 1, 1].sum ∣ (-100 : Int) * ratio :=
  allocate_conserves_iff ⟨-100, .uzs⟩ [1, 1, 1] (by decide) (by decide)

/-- A hundred units owed, in three equal parts: one unit is lost. -/
theorem allocate_loses_unit :
    allocate ⟨-100, .uzs⟩ [1, 1, 1] = .ok [⟨-33, .uzs⟩, ⟨-33, .uzs⟩, ⟨-33, .uzs⟩] ∧
      ¬ ∃ parts, allocate ⟨-100, .uzs⟩ [1, 1, 1] = .ok parts ∧
        Conserves ⟨-100, .uzs⟩ parts := by
  have returned : allocate ⟨-100, .uzs⟩ [1, 1, 1] =
      .ok [⟨-33, .uzs⟩, ⟨-33, .uzs⟩, ⟨-33, .uzs⟩] := by decide
  refine ⟨returned, fun conserved => ?_⟩
  obtain ⟨parts, same, sum, -⟩ := conserved
  rw [returned] at same
  cases same
  exact absurd sum (by decide)

section

variable {total : Int} (positive : 0 < total) (amount ratio : Int)
include positive

/-- A rounded-down share is within the quota. -/
theorem quota_floor : Quota amount total ratio (amount * ratio / total) := by
  refine ⟨.inl (floor_share positive _).symm, fun zero => ?_⟩
  rw [zero, mul_zero, Int.zero_ediv]

/-- One unit more is within the quota exactly when the share is not whole. -/
theorem quota_succ_iff :
    Quota amount total ratio (amount * ratio / total + 1) ↔ ¬ total ∣ amount * ratio := by
  have up := ceil_share positive (amount * ratio)
  rw [Quota, floor_share positive, up]
  constructor
  · intro quota whole
    rw [if_pos whole] at quota
    rcases quota.1 with same | same <;> omega
  · intro fraction
    refine ⟨.inr (if_neg fraction).symm, fun zero => ?_⟩
    exact absurd (by rw [zero, mul_zero]; exact dvd_zero total) fraction

end

/-- Parts that are the rounded-down shares of an amount, with one unit more for each of the
first `extra` of them, whatever their ratios. -/
structure Spread (money : Money) (ratios : List Int) (parts : List Money) (extra : Nat) :
    Prop where
  length : parts.length = ratios.length
  count : (extra : Int) = money.amount - (floors money.amount ratios.sum ratios).sum
  below : extra < ratios.length
  amount : ∀ (index : Nat) (ratio : Int) (part : Money), ratios[index]? = some ratio →
    parts[index]? = some part →
    part.amount = money.amount * ratio / ratios.sum + if index < extra then 1 else 0
  quota : ∀ (index : Nat) (ratio : Int) (part : Money), ratios[index]? = some ratio →
    parts[index]? = some part →
    (Quota money.amount ratios.sum ratio part.amount ↔
      ¬ (index < extra ∧ ratios.sum ∣ money.amount * ratio))

/-- The quota follows from what the part is. -/
theorem quota_part_iff {total : Int} (positive : 0 < total) (amount ratio : Int)
    (index extra : Nat) :
    Quota amount total ratio (amount * ratio / total + if index < extra then 1 else 0) ↔
      ¬ (index < extra ∧ total ∣ amount * ratio) := by
  by_cases first : index < extra
  · have quota := quota_succ_iff positive amount ratio
    simp only [first, if_true, true_and]
    exact quota
  · have quota := quota_floor positive amount ratio
    simp only [first, if_false, false_and, not_false_iff, iff_true, add_zero]
    exact quota

/-- The units that rounding leaves over go to the first parts, one to each; a part keeps its
quota unless it is one of these and its share is whole. -/
theorem allocate_spreads (money : Money) (ratios : List Int) (whole : 0 ≤ money.amount)
    (nonneg : ∀ ratio ∈ ratios, 0 ≤ ratio) (positive : 0 < ratios.sum) :
    ∃ parts extra, allocate money ratios = .ok parts ∧ Spread money ratios parts extra := by
  have least : 0 ≤ leftover money.amount ratios.sum ratios :=
    leftover_nonneg money.amount rfl positive
  have below : leftover money.amount ratios.sum ratios < ratios.length :=
    leftover_lt money.amount rfl positive
  let extra := (leftover money.amount ratios.sum ratios).toNat
  let shares := spread extra (floors money.amount ratios.sum ratios)
  have amount : ∀ (index : Nat) (ratio : Int) (part : Money), ratios[index]? = some ratio →
      (shares.map fun share => Money.mk share money.currency)[index]? = some part →
      part.amount = money.amount * ratio / ratios.sum + if index < extra then 1 else 0 := by
    intro index ratio part listed given
    rw [List.getElem?_map, spread_get, floors, List.getElem?_map, listed] at given
    simp only [Option.map_some, Option.some.injEq] at given
    subst given
    split <;> simp
  refine ⟨_, extra, allocate_nonneg nonneg positive whole, ?_⟩
  exact {
    length := by simp
    count := Int.toNat_of_nonneg least
    below := by omega
    amount := amount
    quota := by
      intro index ratio part listed given
      rw [amount index ratio part listed given]
      exact quota_part_iff positive money.amount ratio index extra }

theorem allocate_spreads_halves :
    ∃ parts extra, allocate ⟨1, .uzs⟩ [0, 1, 1] = .ok parts ∧
      Spread ⟨1, .uzs⟩ [0, 1, 1] parts extra :=
  allocate_spreads ⟨1, .uzs⟩ [0, 1, 1] (by decide) (by decide) (by decide)

/-- The unit left over goes to the first part although its ratio is zero. -/
theorem allocate_pays_zero_ratio :
    allocate ⟨1, .uzs⟩ [0, 1, 1] = .ok [⟨1, .uzs⟩, ⟨0, .uzs⟩, ⟨0, .uzs⟩] ∧
      ¬ Quota 1 [(0 : Int), 1, 1].sum 0 1 := by
  refine ⟨by decide, fun quota => ?_⟩
  exact absurd (quota.2 rfl) (by decide)

end Farzin.MoneyAllocation
