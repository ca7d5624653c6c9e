import Farzin.RoundRobinTable
import Mathlib.Order.Interval.Finset.Nat
import Mathlib.Data.Int.Interval
import Mathlib.Data.Int.ConditionallyCompleteOrder

set_option autoImplicit false

/- Colours over one leg, counted by opponents. A field of `n` players fills the
seats `1..n`; with `n` odd the fixed seat stays empty. -/
namespace Farzin.RoundRobin

/-- Seat `s` has the colour against seat `t`. -/
def Meets (half : Int) (color : Color) (s t : Int) : Prop :=
  match color with
  | .white => PlaysWhite half s t
  | .black => PlaysWhite half t s

instance (half : Int) (color : Color) (s t : Int) : Decidable (Meets half color s t) := by
  unfold Meets
  cases color <;> infer_instance

/-- The opponents, among the seats `1..n`, against whom seat `s` has the colour. -/
noncomputable def opponents (half n : Int) (color : Color) (s : Int) : Finset Int :=
  (Finset.Icc 1 n).filter fun t => Meets half color s t

theorem mem_opponents {half n s t : Int} {color : Color} :
    t ∈ opponents half n color s ↔ (1 ≤ t ∧ t ≤ n) ∧ Meets half color s t := by
  rw [opponents, Finset.mem_filter, Finset.mem_Icc]

/-- The side of a table that has the colour in a leg. -/
def SeatPair.seat (table : SeatPair) (leg : Nat) : Color → Int
  | .white => if leg = 0 then table.whiteSeat else table.blackSeat
  | .black => if leg = 0 then table.blackSeat else table.whiteSeat

/-- Stepping once around the circle turns every white opponent of a moving seat
into a black one, and back. -/
theorem moving_balance (half s : Int) (first : 1 ≤ s) (moving : s < 2 * half) :
    (opponents half (2 * half - 1) .white s).card =
      (opponents half (2 * half - 1) .black s).card := by
  apply Finset.card_nbij' (fun t => if t = 2 * half - 1 then 1 else t + 1)
    (fun t => if t = 1 then 2 * half - 1 else t - 1)
  · intro t inside
    simp only [Finset.mem_coe, mem_opponents] at inside ⊢
    unfold Meets PlaysWhite at *
    split <;> omega
  · intro t inside
    simp only [Finset.mem_coe, mem_opponents] at inside ⊢
    unfold Meets PlaysWhite at *
    split <;> omega
  · intro t inside
    simp only [Finset.mem_coe, mem_opponents] at inside
    dsimp only
    split_ifs <;> omega
  · intro t inside
    simp only [Finset.mem_coe, mem_opponents] at inside
    dsimp only
    split_ifs <;> omega

theorem icc_fixed (half : Int) (positive : 1 ≤ half) :
    Finset.Icc 1 (2 * half) = insert (2 * half) (Finset.Icc 1 (2 * half - 1)) := by
  ext t
  simp only [Finset.mem_Icc, Finset.mem_insert]
  omega

theorem fixed_whites (half : Int) :
    opponents half (2 * half) .white (2 * half) = Finset.Icc (half + 1) (2 * half - 1) := by
  ext t
  rw [mem_opponents, Finset.mem_Icc]
  unfold Meets PlaysWhite
  omega

theorem fixed_blacks (half : Int) :
    opponents half (2 * half) .black (2 * half) = Finset.Icc 1 half := by
  ext t
  rw [mem_opponents, Finset.mem_Icc]
  unfold Meets PlaysWhite
  omega

/-- With the fixed seat filled, the game against it is the only unbalanced one. -/
theorem even_balance (half s : Int) (positive : 1 ≤ half) (first : 1 ≤ s)
    (last : s ≤ 2 * half) :
    ((opponents half (2 * half) .white s).card - (opponents half (2 * half) .black s).card :
      Int).natAbs = 1 := by
  by_cases fixed : s = 2 * half
  · subst fixed
    rw [fixed_whites, fixed_blacks, Int.card_Icc, Int.card_Icc]
    omega
  · have moving := moving_balance half s first (by omega)
    have new (color : Color) :
        2 * half ∉ (Finset.Icc 1 (2 * half - 1)).filter fun t => Meets half color s t := by
      simp
    unfold opponents at *
    rw [icc_fixed half positive, Finset.filter_insert, Finset.filter_insert]
    by_cases low : s ≤ half
    · have white : Meets half .white s (2 * half) := by
        unfold Meets PlaysWhite
        omega
      have notBlack : ¬ Meets half .black s (2 * half) := by
        unfold Meets PlaysWhite
        omega
      rw [if_pos white, if_neg notBlack, Finset.card_insert_of_notMem (new .white)]
      omega
    · have notWhite : ¬ Meets half .white s (2 * half) := by
        unfold Meets PlaysWhite
        omega
      have black : Meets half .black s (2 * half) := by
        unfold Meets PlaysWhite
        omega
      rw [if_neg notWhite, if_pos black, Finset.card_insert_of_notMem (new .black)]
      omega

/-- Both seats of the table belong to the field of `n` players. -/
def taken (n : Nat) (table : SeatPair) : Bool :=
  decide (table.whiteSeat ≤ n ∧ table.blackSeat ≤ n)

def fullTables (half n : Nat) : List SeatPair := (legTables half).filter (taken n)

theorem mem_fullTables (half n : Nat) (s t : Int) (positive : 1 ≤ half) :
    ⟨s, t⟩ ∈ fullTables half n ↔ PlaysWhite half s t ∧ s ≤ n ∧ t ≤ n := by
  simp only [fullTables, taken, List.mem_filter, mem_legTables half s t positive,
    decide_eq_true_eq]

theorem fullTables_nodup (half n : Nat) (positive : 1 ≤ half) : (fullTables half n).Nodup :=
  (legTables_nodup half positive).filter _

theorem playsWhite_range {half s t : Int} (white : PlaysWhite half s t) : 1 ≤ s ∧ 1 ≤ t := by
  unfold PlaysWhite at white
  omega

/-- The table that gives seat `s` the colour against seat `t`. -/
def tableOf (color : Color) (s t : Int) : SeatPair :=
  match color with
  | .white => ⟨s, t⟩
  | .black => ⟨t, s⟩

theorem tableOf_full {half n : Nat} {color : Color} {s t : Int} (positive : 1 ≤ half)
    (last : s ≤ n) :
    tableOf color s t ∈ fullTables half n ↔ t ∈ opponents half n color s := by
  have ranges : Meets half color s t → 1 ≤ t := by
    intro meets
    cases color with
    | white => exact (playsWhite_range meets).2
    | black => exact (playsWhite_range meets).1
  rw [mem_opponents]
  cases color with
  | white =>
      refine (mem_fullTables half n s t positive).trans ⟨fun table => ?_, fun meets => ?_⟩
      · exact ⟨⟨ranges table.1, table.2.2⟩, table.1⟩
      · exact ⟨meets.2, last, meets.1.2⟩
  | black =>
      refine (mem_fullTables half n t s positive).trans ⟨fun table => ?_, fun meets => ?_⟩
      · exact ⟨⟨ranges table.1, table.2.1⟩, table.1⟩
      · exact ⟨meets.2, meets.1.2, last⟩

/-- The tables that give a seat a colour are as many as the opponents it has it against. -/
theorem count_color (half n : Nat) (color : Color) (s : Int) (positive : 1 ≤ half) (last : s ≤ n) :
    (fullTables half n).countP (fun table => table.seat 0 color = s) =
      (opponents half n color s).card := by
  have nodup := fullTables_nodup half n positive
  have listed : ∀ table : SeatPair, table ∈ (fullTables half n).filter (fun table =>
      table.seat 0 color = s) ↔ ∃ t ∈ opponents half n color s, tableOf color s t = table := by
    rintro ⟨w, b⟩
    simp only [List.mem_filter, decide_eq_true_eq]
    constructor
    · rintro ⟨full, same⟩
      cases color with
      | white =>
          cases same
          exact ⟨b, (tableOf_full positive last).mp full, rfl⟩
      | black =>
          cases same
          exact ⟨w, (tableOf_full positive last).mp full, rfl⟩
    · rintro ⟨t, meets, same⟩
      rw [← same]
      exact ⟨(tableOf_full positive last).mpr meets, by cases color <;> rfl⟩
  rw [List.countP_eq_length_filter, ← List.toFinset_card_of_nodup (nodup.filter _)]
  symm
  apply Finset.card_nbij (tableOf color s)
  · intro t meets
    exact List.mem_toFinset.mpr ((listed _).mpr ⟨t, meets, rfl⟩)
  · intro t _ u _ same
    cases color with
    | white => exact congrArg SeatPair.blackSeat same
    | black => exact congrArg SeatPair.whiteSeat same
  · intro table full
    exact (listed table).mp (List.mem_toFinset.mp full)

/-- Half the size of the table for a field of `n` players. -/
def halfOf (n : Nat) : Nat := (n + 1) / 2

theorem leg_balance (n : Nat) (s : Int) (enough : 2 ≤ n) (first : 1 ≤ s) (last : s ≤ n) :
    (((fullTables (halfOf n) n).countP fun table => table.seat 0 .white = s : Nat) -
      ((fullTables (halfOf n) n).countP fun table => table.seat 0 .black = s : Nat) : Int).natAbs =
        if n % 2 = 0 then 1 else 0 := by
  have positive : 1 ≤ halfOf n := by unfold halfOf; omega
  rw [count_color _ n .white s positive last, count_color _ n .black s positive last]
  split
  · have full : (n : Int) = 2 * halfOf n := by unfold halfOf; omega
    rw [full] at last ⊢
    exact even_balance (halfOf n) s (by omega) first last
  · have short : (n : Int) = 2 * halfOf n - 1 := by unfold halfOf; omega
    rw [short] at last ⊢
    rw [moving_balance (halfOf n) s first (by omega)]
    simp

end Farzin.RoundRobin
