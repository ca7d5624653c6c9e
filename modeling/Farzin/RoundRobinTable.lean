import Farzin.RoundRobin
import Mathlib.Data.List.Perm.Subperm
import Mathlib.Data.List.Nodup
import Mathlib.Tactic.Ring
import Mathlib.Tactic.Linarith

set_option autoImplicit false

/- The Berger table over seats, for a table of `2 * half` seats. Every round is
put in closed form first; what a leg contains then needs linear arithmetic only. -/
namespace Farzin.RoundRobin

/-- Seat `s` plays White against seat `t` somewhere in a leg. Among the moving
seats the colour depends on the parity of the distance alone. -/
def PlaysWhite (half s t : Int) : Prop :=
  (1 ≤ s ∧ s < 2 * half ∧ 1 ≤ t ∧ t < 2 * half ∧
    ((t < s ∧ (s - t) % 2 = 0) ∨ (s < t ∧ (t - s) % 2 = 1))) ∨
  (t = 2 * half ∧ 1 ≤ s ∧ s ≤ half) ∨
  (s = 2 * half ∧ half < t ∧ t < 2 * half)

instance (half s t : Int) : Decidable (PlaysWhite half s t) := by
  unfold PlaysWhite
  infer_instance

/-- The sum of two seats, where the fixed seat counts as its opponent. -/
def seatSum (half s t : Int) : Int :=
  if t = 2 * half then 2 * s else if s = 2 * half then 2 * t else s + t

/-- The only round of a leg in which seats `s` and `t` can sit at one table. -/
def meetingRound (half s t : Int) : Int :=
  if seatSum half s t ≤ 2 * half then seatSum half s t - 1 else seatSum half s t - 2 * half

/-- The opponent the table gives the fixed seat in a round. -/
def leaderOf (half round : Int) : Int :=
  if round % 2 = 1 then (round + 1) / 2 else round / 2 + half

theorem wrapSeat_eq (value modulus : Int) (positive : 0 < modulus)
    (lower : -modulus < value) (upper : value ≤ 2 * modulus) :
    wrapSeat value modulus =
      if value < 1 then value + modulus else if modulus < value then value - modulus
      else value := by
  have wraps : wrapSeat value modulus = (value - 1) % modulus + 1 := by
    have first := Int.tmod_add_mul_tdiv (value - 1) modulus
    have bound := Int.lt_tmod_of_pos (value - 1) positive
    rw [wrapSeat, Int.tmod_eq_emod_of_nonneg (by omega)]
    congr 1
    rw [Int.add_emod_right, ← Int.emod_emod_of_dvd (value - 1) (Int.dvd_refl modulus)]
    conv_rhs => rw [← first]
    simp
  rw [wraps]
  split
  · rw [← Int.add_emod_right, Int.emod_eq_of_lt (by omega) (by omega)]
    omega
  · split
    · rw [← Int.sub_emod_right, Int.emod_eq_of_lt (by omega) (by omega)]
      omega
    · rw [Int.emod_eq_of_lt (by omega) (by omega)]
      omega

/-- The multiplication by `half` inverts a doubling, since `2 * half` is one more
than the modulus. -/
theorem leader_eq (half round : Int) (positive : 1 ≤ half) (lower : 1 ≤ round)
    (upper : round < 2 * half) :
    ((round - 1) * half).tmod (2 * half - 1) + 1 = leaderOf half round := by
  have nonneg : 0 ≤ (round - 1) * half := Int.mul_nonneg (by omega) (by omega)
  rw [Int.tmod_eq_emod_of_nonneg nonneg, leaderOf]
  split
  · rename_i odd
    obtain ⟨k, rfl⟩ : ∃ k, round = 2 * k + 1 := ⟨round / 2, by omega⟩
    have split : (2 * k + 1 - 1) * half = k + (2 * half - 1) * k := by ring
    rw [split, Int.add_mul_emod_self_left, Int.emod_eq_of_lt (by omega) (by omega)]
    omega
  · rename_i even
    obtain ⟨k, rfl⟩ : ∃ k, round = 2 * k := ⟨round / 2, by omega⟩
    have split : (2 * k - 1) * half = k + half - 1 + (2 * half - 1) * (k - 1) := by ring
    rw [split, Int.add_mul_emod_self_left, Int.emod_eq_of_lt (by omega) (by omega)]
    omega

theorem leaderOf_cases (half round : Int) :
    (round % 2 = 1 ∧ 2 * leaderOf half round = round + 1) ∨
      (round % 2 = 0 ∧ 2 * leaderOf half round = round + 2 * half) := by
  unfold leaderOf
  split <;> omega

theorem meetingRound_cases (half s t : Int) :
    (seatSum half s t ≤ 2 * half ∧ meetingRound half s t = seatSum half s t - 1) ∨
      (2 * half < seatSum half s t ∧ meetingRound half s t = seatSum half s t - 2 * half) := by
  unfold meetingRound
  split <;> omega

theorem seatSum_moving (half s t : Int) (left : s < 2 * half) (right : t < 2 * half) :
    seatSum half s t = s + t := by
  rw [seatSum, if_neg (by omega), if_neg (by omega)]

theorem seatSum_fixed_right (half s : Int) : seatSum half s (2 * half) = 2 * s := by
  rw [seatSum, if_pos rfl]

theorem seatSum_fixed_left (half t : Int) (moving : t < 2 * half) :
    seatSum half (2 * half) t = 2 * t := by
  rw [seatSum, if_neg (by omega), if_pos rfl]

theorem meetingRound_comm (half s t : Int) : meetingRound half s t = meetingRound half t s := by
  have sum : seatSum half s t = seatSum half t s := by
    unfold seatSum
    split_ifs <;> omega
  rw [meetingRound, meetingRound, sum]

/-- Every two seats meet, with exactly one of the two colourings. -/
theorem playsWhite_total (half s t : Int) (left : 1 ≤ s ∧ s ≤ 2 * half)
    (right : 1 ≤ t ∧ t ≤ 2 * half) (apart : s ≠ t) :
    PlaysWhite half s t ↔ ¬ PlaysWhite half t s := by
  unfold PlaysWhite
  by_cases moving : s < 2 * half ∧ t < 2 * half
  · rcases Int.lt_or_gt_of_ne apart with behind | ahead <;> omega
  · omega

/-- The fixed table of a round: the leader has White in the odd rounds. -/
def fixedTable (half round : Int) : SeatPair :=
  if round % 2 = 1 then ⟨leaderOf half round, 2 * half⟩ else ⟨2 * half, leaderOf half round⟩

/-- The table `i` seats away from the leader. -/
def circleTable (half round : Int) (i : Nat) : SeatPair :=
  let ahead := leaderOf half round + i
  let behind := leaderOf half round - i
  ⟨if 2 * half ≤ ahead then ahead - (2 * half - 1) else ahead,
    if behind < 1 then behind + (2 * half - 1) else behind⟩

theorem circleTable_white (half round : Int) (i : Nat) :
    (leaderOf half round + i < 2 * half ∧
      (circleTable half round i).whiteSeat = leaderOf half round + i) ∨
    (2 * half ≤ leaderOf half round + i ∧
      (circleTable half round i).whiteSeat = leaderOf half round + i - (2 * half - 1)) := by
  unfold circleTable
  dsimp only
  split <;> omega

theorem circleTable_black (half round : Int) (i : Nat) :
    (1 ≤ leaderOf half round - i ∧
      (circleTable half round i).blackSeat = leaderOf half round - i) ∨
    (leaderOf half round - i < 1 ∧
      (circleTable half round i).blackSeat = leaderOf half round - i + (2 * half - 1)) := by
  unfold circleTable
  dsimp only
  split <;> omega

theorem bergerRound_eq (half : Nat) (round : Int) (positive : 1 ≤ half) (lower : 1 ≤ round)
    (upper : round < 2 * half) :
    bergerRound (2 * half) round =
      fixedTable half round :: (List.range' 1 (half - 1)).map (circleTable half round) := by
  have halves : (2 * (half : Int)).tdiv 2 = half := by
    rw [Int.tdiv_eq_ediv_of_nonneg (by omega)]
    omega
  have leads := leader_eq half round (by omega) lower upper
  have bounds := leaderOf_cases half round
  have parity : round.tmod 2 = round % 2 := Int.tmod_eq_emod_of_nonneg (by omega)
  simp only [bergerRound, halves, leads, parity, Int.toNat_natCast, fixedTable]
  congr 1
  apply List.map_congr_left
  intro i inside
  rw [List.mem_range'_1] at inside
  rw [wrapSeat_eq _ _ (by omega) (by omega) (by omega),
    wrapSeat_eq _ _ (by omega) (by omega) (by omega)]
  simp only [circleTable, SeatPair.mk.injEq]
  constructor
  · split_ifs <;> omega
  · split_ifs <;> omega

/-- The distance to the leader at which seats `s` and `t` face each other. -/
def distance (half s t : Int) : Int :=
  if t < s then (s - t) / 2 else (2 * half - 1 - (t - s)) / 2

theorem fixedTable_plays (half round : Int) (lower : 1 ≤ round) (upper : round < 2 * half) :
    PlaysWhite half (fixedTable half round).whiteSeat (fixedTable half round).blackSeat ∧
      meetingRound half (fixedTable half round).whiteSeat (fixedTable half round).blackSeat =
        round := by
  have leader := leaderOf_cases half round
  unfold fixedTable PlaysWhite
  split
  · have meets := meetingRound_cases half (leaderOf half round) (2 * half)
    rw [seatSum_fixed_right] at meets
    dsimp only
    omega
  · have meets := meetingRound_cases half (2 * half) (leaderOf half round)
    rw [seatSum_fixed_left half _ (by omega)] at meets
    dsimp only
    omega

theorem circleTable_plays (half round : Int) (i : Nat) (lower : 1 ≤ round)
    (upper : round < 2 * half) (apart : 1 ≤ i) (near : i < half) :
    PlaysWhite half (circleTable half round i).whiteSeat (circleTable half round i).blackSeat ∧
      meetingRound half (circleTable half round i).whiteSeat
        (circleTable half round i).blackSeat = round := by
  have leader := leaderOf_cases half round
  have white := circleTable_white half round i
  have black := circleTable_black half round i
  have meets := meetingRound_cases half (circleTable half round i).whiteSeat
    (circleTable half round i).blackSeat
  rw [seatSum_moving half _ _ (by omega) (by omega)] at meets
  -- Around the circle the seats are `2 * i` apart, or as far the other way.
  have gap : (circleTable half round i).whiteSeat - (circleTable half round i).blackSeat = 2 * i ∨
      (circleTable half round i).blackSeat - (circleTable half round i).whiteSeat =
        2 * (half - 1 - i) + 1 := by
    omega
  refine ⟨.inl ⟨?_, ?_, ?_, ?_, ?_⟩, ?_⟩
  · omega
  · omega
  · omega
  · omega
  · clear white black meets leader
    omega
  · clear gap
    omega

/-- What a round of the table contains, without the construction. -/
theorem mem_bergerRound (half : Nat) (round s t : Int) (positive : 1 ≤ half) (lower : 1 ≤ round)
    (upper : round < 2 * half) :
    ⟨s, t⟩ ∈ bergerRound (2 * half) round ↔
      PlaysWhite half s t ∧ meetingRound half s t = round := by
  rw [bergerRound_eq half round positive lower upper]
  simp only [List.mem_cons, List.mem_map, List.mem_range'_1]
  have leader := leaderOf_cases half round
  constructor
  · rintro (fixed | ⟨i, inside, circle⟩)
    · have plays := fixedTable_plays half round lower upper
      rwa [← fixed] at plays
    · have plays := circleTable_plays half round i lower upper inside.1 (by omega)
      rwa [circle] at plays
  · rintro ⟨white, meets⟩
    have sum := meetingRound_cases half s t
    rcases white with ⟨s1, s2, t1, t2, parity⟩ | ⟨rfl, s1, s2⟩ | ⟨rfl, t1, t2⟩
    · right
      rw [seatSum_moving half s t s2 t2] at sum
      have apart : 2 * distance half s t = s - t ∨
          2 * distance half s t = 2 * half - 1 - (t - s) := by
        unfold distance
        split <;> omega
      refine ⟨(distance half s t).toNat, by unfold distance at *; split at apart <;> omega, ?_⟩
      have ahead := circleTable_white half round (distance half s t).toNat
      have behind := circleTable_black half round (distance half s t).toNat
      have near : 1 ≤ distance half s t := by
        unfold distance
        split <;> omega
      rw [Int.toNat_of_nonneg (by omega)] at ahead behind
      have whiteSeat : (circleTable half round (distance half s t).toNat).whiteSeat = s := by
        omega
      have blackSeat : (circleTable half round (distance half s t).toNat).blackSeat = t := by
        omega
      calc
        circleTable half round (distance half s t).toNat
          = ⟨(circleTable half round (distance half s t).toNat).whiteSeat,
              (circleTable half round (distance half s t).toNat).blackSeat⟩ := rfl
        _ = ⟨s, t⟩ := by rw [whiteSeat, blackSeat]
    · left
      rw [seatSum_fixed_right] at sum
      rw [fixedTable, if_pos (by omega), SeatPair.mk.injEq]
      omega
    · left
      rw [seatSum_fixed_left half t t2] at sum
      rw [fixedTable, if_neg (by omega), SeatPair.mk.injEq]
      omega

def SeatPair.seats (table : SeatPair) : List Int := [table.whiteSeat, table.blackSeat]

/-- The seats `1..2 * half`. -/
def seatNumbers (half : Nat) : List Int := (List.range' 1 (2 * half)).map fun (i : Nat) => (i : Int)

theorem mem_seatNumbers (half : Nat) (s : Int) :
    s ∈ seatNumbers half ↔ 1 ≤ s ∧ s ≤ 2 * half := by
  simp only [seatNumbers, List.mem_map, List.mem_range'_1]
  constructor
  · rintro ⟨i, inside, rfl⟩
    omega
  · intro inside
    exact ⟨s.toNat, by omega, by omega⟩

theorem seatNumbers_nodup (half : Nat) : (seatNumbers half).Nodup := by
  apply List.Nodup.map
  · intro i j same
    exact Int.ofNat_inj.mp same
  · exact List.nodup_range'

theorem bergerRound_length (half : Nat) (round : Int) (positive : 1 ≤ half) (lower : 1 ≤ round)
    (upper : round < 2 * half) :
    ((bergerRound (2 * half) round).flatMap SeatPair.seats).length = 2 * half := by
  rw [bergerRound_eq half round positive lower upper, List.length_flatMap]
  simp only [SeatPair.seats, List.map_cons, List.map_map, List.sum_cons, List.length_cons,
    List.length_nil, Function.comp_def, List.map_const', List.sum_replicate_nat,
    List.length_range']
  omega

/-- The seat facing `s` in a round. -/
def opponentSeat (half round s : Int) : Int :=
  if s = 2 * half then leaderOf half round
  else if s = leaderOf half round then 2 * half
  else if s ≤ round then round + 1 - s
  else round + 2 * half - s

/-- The facing seat is another one, and the two meet in that round. -/
theorem opponentSeat_meets (half round s : Int) (lower : 1 ≤ round) (upper : round < 2 * half)
    (first : 1 ≤ s) (last : s ≤ 2 * half) :
    (1 ≤ opponentSeat half round s ∧ opponentSeat half round s ≤ 2 * half) ∧
      opponentSeat half round s ≠ s ∧ meetingRound half s (opponentSeat half round s) = round := by
  have leader := leaderOf_cases half round
  have meets := meetingRound_cases half s (opponentSeat half round s)
  unfold opponentSeat at *
  split_ifs at * with fixed leads low
  · rw [fixed, seatSum_fixed_left half _ (by omega)] at meets
    rw [fixed]
    omega
  · rw [seatSum_fixed_right] at meets
    omega
  · rw [seatSum_moving half _ _ (by omega) (by omega)] at meets
    omega
  · rw [seatSum_moving half _ _ (by omega) (by omega)] at meets
    omega

theorem opponentSeat_plays (half round s : Int) (lower : 1 ≤ round) (upper : round < 2 * half)
    (first : 1 ≤ s) (last : s ≤ 2 * half) :
    (PlaysWhite half s (opponentSeat half round s) ∧
        meetingRound half s (opponentSeat half round s) = round) ∨
      (PlaysWhite half (opponentSeat half round s) s ∧
        meetingRound half (opponentSeat half round s) s = round) := by
  obtain ⟨range, apart, meets⟩ := opponentSeat_meets half round s lower upper first last
  by_cases black : PlaysWhite half (opponentSeat half round s) s
  · rw [meetingRound_comm] at meets
    exact .inr ⟨black, meets⟩
  · have white := (playsWhite_total half s _ ⟨first, last⟩ range apart.symm).mpr black
    exact .inl ⟨white, meets⟩

/-- Every round seats everyone exactly once. -/
theorem bergerRound_seats (half : Nat) (round : Int) (positive : 1 ≤ half) (lower : 1 ≤ round)
    (upper : round < 2 * half) :
    ((bergerRound (2 * half) round).flatMap SeatPair.seats).Perm (seatNumbers half) := by
  have covered : seatNumbers half ⊆ (bergerRound (2 * half) round).flatMap SeatPair.seats := by
    intro s inside
    rw [mem_seatNumbers] at inside
    rw [List.mem_flatMap]
    rcases opponentSeat_plays half round s lower upper inside.1 inside.2 with plays | plays
    · exact ⟨_, (mem_bergerRound half round _ _ positive lower upper).mpr plays,
        by simp [SeatPair.seats]⟩
    · exact ⟨_, (mem_bergerRound half round _ _ positive lower upper).mpr plays,
        by simp [SeatPair.seats]⟩
  have within := List.subperm_of_subset (seatNumbers_nodup half) covered
  refine (within.perm_of_length_le ?_).symm
  rw [bergerRound_length half round positive lower upper]
  simp [seatNumbers]

theorem bergerRound_nodup (half : Nat) (round : Int) (positive : 1 ≤ half) (lower : 1 ≤ round)
    (upper : round < 2 * half) : (bergerRound (2 * half) round).Nodup := by
  have seats := (bergerRound_seats half round positive lower upper).nodup_iff.mpr
    (seatNumbers_nodup half)
  rw [List.nodup_flatMap] at seats
  refine seats.2.imp ?_
  intro left right apart same
  subst same
  exact apart (a := left.whiteSeat) (by simp [SeatPair.seats]) (by simp [SeatPair.seats])

/-- The tables of one leg, round after round. -/
def legTables (half : Nat) : List SeatPair :=
  (List.range' 1 (2 * half - 1)).flatMap fun (r : Nat) => bergerRound (2 * half) r

theorem mem_legTables (half : Nat) (s t : Int) (positive : 1 ≤ half) :
    ⟨s, t⟩ ∈ legTables half ↔ PlaysWhite half s t := by
  simp only [legTables, List.mem_flatMap, List.mem_range'_1]
  constructor
  · rintro ⟨r, inside, table⟩
    exact ((mem_bergerRound half r s t positive (by omega) (by omega)).mp table).1
  · intro white
    have meets := meetingRound_cases half s t
    have bounds : 1 ≤ meetingRound half s t ∧ meetingRound half s t < 2 * half := by
      unfold PlaysWhite at white
      rcases white with moving | ⟨rfl, right⟩ | ⟨rfl, left⟩
      · rw [seatSum_moving half s t (by omega) (by omega)] at meets
        omega
      · rw [seatSum_fixed_right] at meets
        omega
      · rw [seatSum_fixed_left half t (by omega)] at meets
        omega
    refine ⟨(meetingRound half s t).toNat, by omega, ?_⟩
    rw [mem_bergerRound half _ s t positive (by omega) (by omega)]
    exact ⟨white, by omega⟩

theorem legTables_nodup (half : Nat) (positive : 1 ≤ half) : (legTables half).Nodup := by
  rw [legTables, List.nodup_flatMap]
  constructor
  · intro r inside
    rw [List.mem_range'_1] at inside
    exact bergerRound_nodup half r positive (by omega) (by omega)
  · refine (List.nodup_range' (s := 1) (n := 2 * half - 1)).imp_of_mem ?_
    intro i j first second apart ⟨s, t⟩ left right
    rw [List.mem_range'_1] at first second
    have here := (mem_bergerRound half i s t positive (by omega) (by omega)).mp left
    have there := (mem_bergerRound half j s t positive (by omega) (by omega)).mp right
    have same : (i : Int) = j := here.2.symm.trans there.2
    omega

end Farzin.RoundRobin
