import Mathlib.Algebra.Order.BigOperators.Group.List
import Mathlib.Algebra.Order.Ring.Abs
import Mathlib.Algebra.Order.Ring.Int
import Mathlib.Tactic.Ring
import Mathlib.Tactic.Linarith

set_option autoImplicit false

/- Signed digits over an ordered list of levels, each with a unit of its own. When every
unit exceeds what all lower levels can differ by, comparing the values is comparing the
digits lexicographically. -/
namespace Farzin.MixedRadix

variable {Level : Type} (unit : Level → Int)

/-- The number that the digits denote. -/
def value (levels : List Level) (digit : Level → Int) : Int :=
  (levels.map fun level => unit level * digit level).sum

/-- Every unit exceeds the value of the caps below it. -/
def Dominates (cap : Level → Int) : List Level → Prop
  | [] => True
  | level :: lower => value unit lower cap < unit level ∧ Dominates cap lower

@[simp] theorem value_nil (digit : Level → Int) : value unit [] digit = 0 := rfl

@[simp] theorem value_cons (level : Level) (lower : List Level) (digit : Level → Int) :
    value unit (level :: lower) digit = unit level * digit level + value unit lower digit := by
  rw [value, List.map_cons, List.sum_cons, value]

theorem value_add (levels : List Level) (left right : Level → Int) :
    value unit levels (fun level => left level + right level) =
      value unit levels left + value unit levels right := by
  induction levels with
  | nil => rfl
  | cons level lower ih =>
      rw [value_cons, value_cons, value_cons, ih]
      ring

theorem value_sub (levels : List Level) (left right : Level → Int) :
    value unit levels (fun level => left level - right level) =
      value unit levels left - value unit levels right := by
  have sum := value_add unit levels (fun level => left level - right level) right
  simp only [sub_add_cancel] at sum
  rw [sum]
  ring

theorem value_zero (levels : List Level) : value unit levels (fun _ => 0) = 0 := by
  induction levels with
  | nil => rfl
  | cons level lower ih => rw [value_cons, ih, mul_zero, add_zero]

/-- A single digit counts its unit. -/
theorem value_single [DecidableEq Level] {levels : List Level} (distinct : levels.Nodup)
    {level : Level} (listed : level ∈ levels) (digit : Int) :
    value unit levels (fun l => if l = level then digit else 0) = unit level * digit := by
  induction levels with
  | nil => cases listed
  | cons first lower ih =>
      obtain ⟨apart, distinctLower⟩ := List.nodup_cons.mp distinct
      rw [value_cons]
      by_cases here : first = level
      · subst here
        have rest : value unit lower (fun l => if l = first then digit else 0) =
            value unit lower fun _ => 0 := by
          unfold value
          congr 1
          apply List.map_congr_left
          intro l inside
          dsimp only
          rw [if_neg (ne_of_mem_of_not_mem inside apart)]
        rw [rest, value_zero, if_pos rfl, add_zero]
      · rw [if_neg here, mul_zero, zero_add]
        exact ih distinctLower (List.mem_of_ne_of_mem (Ne.symm here) listed)

/-- Summing values over a list is taking the value of the summed digits. -/
theorem value_sum {Item : Type} (levels : List Level) (items : List Item)
    (digit : Item → Level → Int) :
    value unit levels (fun level => (items.map fun item => digit item level).sum) =
      (items.map fun item => value unit levels (digit item)).sum := by
  induction items with
  | nil => exact value_zero unit levels
  | cons item items ih =>
      simp only [List.map_cons, List.sum_cons]
      rw [value_add, ih]

variable {unit} {cap : Level → Int}

theorem Dominates.tail {level : Level} {lower : List Level}
    (dominates : Dominates unit cap (level :: lower)) : Dominates unit cap lower :=
  dominates.2

theorem Dominates.drop {higher levels : List Level}
    (dominates : Dominates unit cap (higher ++ levels)) : Dominates unit cap levels := by
  induction higher with
  | nil => exact dominates
  | cons level higher ih => exact ih dominates.tail

/-- Digits within their caps stay within the value of the caps. -/
theorem abs_value_le {levels : List Level} {digit : Level → Int}
    (units : ∀ level ∈ levels, 0 ≤ unit level)
    (within : ∀ level ∈ levels, |digit level| ≤ cap level) :
    |value unit levels digit| ≤ value unit levels cap := by
  induction levels with
  | nil => simp
  | cons level lower ih =>
      have rest := ih (fun l inside => units l (List.mem_cons_of_mem _ inside))
        (fun l inside => within l (List.mem_cons_of_mem _ inside))
      have first : |unit level * digit level| ≤ unit level * cap level := by
        rw [abs_mul, abs_of_nonneg (units level List.mem_cons_self)]
        exact mul_le_mul_of_nonneg_left (within level List.mem_cons_self)
          (units level List.mem_cons_self)
      rw [value_cons, value_cons]
      exact (abs_add_le _ _).trans (add_le_add first rest)

/-- With caps that are not negative all units are positive. -/
theorem Dominates.units {levels : List Level} (dominates : Dominates unit cap levels)
    (caps : ∀ level ∈ levels, 0 ≤ cap level) : ∀ level ∈ levels, 0 < unit level := by
  induction levels with
  | nil =>
      intro level inside
      cases inside
  | cons level lower ih =>
      have below := ih dominates.tail fun l inside => caps l (List.mem_cons_of_mem _ inside)
      have nonneg : 0 ≤ value unit lower cap := by
        apply List.sum_nonneg
        intro term inside
        obtain ⟨l, member, rfl⟩ := List.mem_map.mp inside
        exact mul_nonneg (below l member).le (caps l (List.mem_cons_of_mem _ member))
      intro l inside
      rcases List.mem_cons.mp inside with rfl | later
      · exact lt_of_le_of_lt nonneg dominates.1
      · exact below l later

/-- Everything below a level stays under one unit of it. -/
theorem Dominates.lower_lt {level : Level} {lower : List Level}
    (dominates : Dominates unit cap (level :: lower)) {digit : Level → Int}
    (within : ∀ l ∈ lower, |digit l| ≤ cap l) : |value unit lower digit| < unit level := by
  have caps : ∀ l ∈ lower, 0 ≤ cap l := fun l inside => (abs_nonneg _).trans (within l inside)
  have units := dominates.tail.units caps
  exact (abs_value_le (fun l inside => (units l inside).le) within).trans_lt dominates.1

/-- One unit of a level outweighs any difference below it. -/
theorem compare_step (unit left right leftRest rightRest : Int)
    (small : |leftRest - rightRest| < unit) :
    (unit * left + leftRest < unit * right + rightRest ↔
        left < right ∨ (left = right ∧ leftRest < rightRest)) ∧
      (unit * left + leftRest = unit * right + rightRest ↔
        left = right ∧ leftRest = rightRest) := by
  obtain ⟨low, high⟩ := abs_lt.mp small
  rcases lt_trichotomy left right with below | equal | above
  · have step : unit * left + unit ≤ unit * right := by nlinarith
    refine ⟨iff_of_true (by linarith) (.inl below), ?_⟩
    exact iff_of_false (by linarith) fun both => below.ne both.1
  · subst equal
    refine ⟨?_, ?_⟩
    · simp
    · simp
  · have step : unit * right + unit ≤ unit * left := by nlinarith
    refine ⟨iff_of_false (by linarith) ?_, ?_⟩
    · intro either
      rcases either with below | both
      · exact absurd above below.not_gt
      · exact above.ne' both.1
    · exact iff_of_false (by linarith) fun both => above.ne' both.1

/-- Values compare as their digits do, level by level from the highest. -/
theorem Dominates.compare {levels : List Level} (dominates : Dominates unit cap levels)
    (left right : Level → Int)
    (close : ∀ level ∈ levels, |left level - right level| ≤ cap level) :
    (value unit levels left < value unit levels right ↔ levels.map left < levels.map right) ∧
      (value unit levels left = value unit levels right ↔
        levels.map left = levels.map right) := by
  induction levels with
  | nil => simp
  | cons level lower ih =>
      have closeLower : ∀ l ∈ lower, |left l - right l| ≤ cap l :=
        fun l inside => close l (List.mem_cons_of_mem _ inside)
      have rest := ih dominates.tail closeLower
      have small : |value unit lower left - value unit lower right| < unit level := by
        rw [← value_sub]
        exact dominates.lower_lt closeLower
      have step := compare_step (unit level) (left level) (right level) _ _ small
      rw [value_cons, value_cons, List.map_cons, List.map_cons, List.cons_lt_cons_iff,
        List.cons.injEq, ← rest.1, ← rest.2]
      exact step

/-- A value is at most another one when its digits are not the greater ones where they first
differ. -/
theorem Dominates.value_le {levels : List Level} (dominates : Dominates unit cap levels)
    (left right : Level → Int) (close : ∀ level ∈ levels, |left level - right level| ≤ cap level)
    (first : ∀ higher level lower, levels = higher ++ level :: lower →
      (∀ l ∈ higher, left l = right l) → left level ≤ right level) :
    value unit levels left ≤ value unit levels right := by
  induction levels with
  | nil => exact le_rfl
  | cons level lower ih =>
      have closeLower : ∀ l ∈ lower, |left l - right l| ≤ cap l :=
        fun l inside => close l (List.mem_cons_of_mem _ inside)
      have small : |value unit lower left - value unit lower right| < unit level := by
        rw [← value_sub]
        exact dominates.lower_lt closeLower
      rw [value_cons, value_cons]
      rcases (first [] level lower rfl (by simp)).lt_or_eq with below | equal
      · exact ((compare_step _ _ _ _ _ small).1.mpr (.inl below)).le
      · rw [equal]
        apply add_le_add_right
        apply ih dominates.tail closeLower
        intro higher l below parts same
        apply first (level :: higher) l below (by rw [parts]; rfl)
        intro l' inside
        rcases List.mem_cons.mp inside with rfl | later
        · exact equal
        · exact same l' later

theorem value_lt_of_le {level : Level} {lower : List Level} {bound : Int}
    (dominates : Dominates unit cap (level :: lower))
    (room : unit level * (cap level + 1) ≤ bound) :
    value unit (level :: lower) cap < bound := by
  have below := dominates.1
  rw [value_cons]
  linarith

/-- The usual way to choose units: each is the next one times its cap plus one. -/
theorem Dominates.cons {level next : Level} {lower : List Level}
    (dominates : Dominates unit cap (next :: lower))
    (room : unit next * (cap next + 1) ≤ unit level) :
    Dominates unit cap (level :: next :: lower) :=
  ⟨value_lt_of_le dominates room, dominates⟩

end Farzin.MixedRadix
