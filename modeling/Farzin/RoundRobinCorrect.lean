import Farzin.RoundRobinSchedule

set_option autoImplicit false

/- What the schedule promises: every pair meets, colours balance, nobody sits out twice. -/
namespace Farzin.RoundRobin

/-- The schedule of one or two legs over the players `ids`. -/
structure CompleteSchedule (legs : Legs) (ids : List PlayerId)
    (results : Nat → PairingResult) : Prop where
  meets : ∀ a ∈ ids, ∀ b ∈ ids, a ≠ b →
    meetings (allPairings legs ids.length results) a b = legs.count
  once : ∀ r : Nat, 1 ≤ r → (r : Int) ≤ scheduleLengthOf legs ids.length →
    (results r).playerIds.Perm ids
  byes : ∀ r : Nat, 1 ≤ r → (r : Int) ≤ scheduleLengthOf legs ids.length →
    (results r).byes.length = ids.length % 2
  legBye : ids.length % 2 = 1 → ∀ leg < legs.count, ∀ a ∈ ids,
    (legByes ids.length leg results).count a = 1
  legColors : ∀ leg < legs.count, ∀ a ∈ ids,
    ((whiteGames (legPairings ids.length leg results) a : Int) -
      blackGames (legPairings ids.length leg results) a).natAbs =
        if ids.length % 2 = 0 then 1 else 0
  bothColors : legs = .double → ∀ a ∈ ids, ∀ b ∈ ids, a ≠ b →
    games (allPairings legs ids.length results) a b = 1
  balanced : legs = .double → ∀ a ∈ ids,
    whiteGames (allPairings legs ids.length results) a =
      blackGames (allPairings legs ids.length results) a

theorem allPairings_single (n : Nat) (results : Nat → PairingResult) :
    allPairings .single n results = legPairings n 0 results := by
  simp [allPairings, Legs.count, List.range_succ]

theorem allPairings_double (n : Nat) (results : Nat → PairingResult) :
    allPairings .double n results = legPairings n 0 results ++ legPairings n 1 results := by
  simp [allPairings, Legs.count, List.range_succ]

theorem games_append (left right : List Pairing) (a b : PlayerId) :
    games (left ++ right) a b = games left a b + games right a b :=
  List.countP_append

theorem whiteGames_append (left right : List Pairing) (a : PlayerId) :
    whiteGames (left ++ right) a = whiteGames left a + whiteGames right a :=
  List.countP_append

theorem blackGames_append (left right : List Pairing) (a : PlayerId) :
    blackGames (left ++ right) a = blackGames left a + blackGames right a :=
  List.countP_append

section Attended

variable {roster : List (PlayerId × Int)} {request : Nat → PairingRequest}

/-- Seats name the players of the roster. -/
theorem roster_seat (a : PlayerId) (inside : a ∈ roster.map Prod.fst) :
    ∃ s : Int, (1 ≤ s ∧ s ≤ roster.length) ∧ seatId (rosterIds roster) s = a := by
  have listed := (rosterIds_perm roster).symm.subset inside
  obtain ⟨s, range, found⟩ := exists_seat _ a listed
  rw [rosterIds_length] at range
  exact ⟨s, range, found⟩

/-- Over one leg two players meet once, with one colour or the other. -/
theorem leg_meets (attended : Attended roster request) (leg : Nat) (s t : Int)
    (left : 1 ≤ s ∧ s ≤ roster.length) (right : 1 ≤ t ∧ t ≤ roster.length) (apart : s ≠ t) :
    games (legPairings roster.length leg fun r => roundResult (request r))
        (seatId (rosterIds roster) s) (seatId (rosterIds roster) t) +
      games (legPairings roster.length leg fun r => roundResult (request r))
        (seatId (rosterIds roster) t) (seatId (rosterIds roster) s) = 1 := by
  have size : (roster.length : Int) ≤ 2 * halfOf roster.length := by unfold halfOf; omega
  have total := playsWhite_total (halfOf roster.length) s t (by omega) (by omega) apart
  rw [leg_games attended leg s t left right, leg_games attended leg t s right left]
  by_cases first : leg = 0
  · simp only [first, ↓reduceIte, total]
    by_cases plays : PlaysWhite (halfOf roster.length) t s
    · simp only [plays, not_true_eq_false, ↓reduceIte, Nat.zero_add]
    · simp only [plays, not_false_eq_true, ↓reduceIte, Nat.add_zero]
  · simp only [first, ↓reduceIte, total]
    by_cases plays : PlaysWhite (halfOf roster.length) t s
    · simp only [plays, not_true_eq_false, ↓reduceIte, Nat.add_zero]
    · simp only [plays, not_false_eq_true, ↓reduceIte, Nat.zero_add]

/-- The second leg repeats the first with the colours reversed. -/
theorem second_leg_games (attended : Attended roster request) (s t : Int)
    (left : 1 ≤ s ∧ s ≤ roster.length) (right : 1 ≤ t ∧ t ≤ roster.length) :
    games (legPairings roster.length 1 fun r => roundResult (request r))
        (seatId (rosterIds roster) s) (seatId (rosterIds roster) t) =
      games (legPairings roster.length 0 fun r => roundResult (request r))
        (seatId (rosterIds roster) t) (seatId (rosterIds roster) s) := by
  rw [leg_games attended 1 s t left right, leg_games attended 0 t s right left]
  simp only [Nat.one_ne_zero, ↓reduceIte]

/-- Every round of the schedule is some round of some leg. -/
theorem schedule_round (legs : Legs) (n r : Nat) (enough : 2 ≤ n) (lower : 1 ≤ r)
    (upper : (r : Int) ≤ scheduleLengthOf legs n) :
    ∃ leg k, (1 ≤ k ∧ k < 2 * halfOf n) ∧ r = leg * (2 * halfOf n - 1) + k := by
  have positive : 1 ≤ halfOf n := by unfold halfOf; omega
  rw [scheduleLengthOf, roundsPerLegOf_eq] at upper
  by_cases first : r ≤ 2 * halfOf n - 1
  · exact ⟨0, r, by omega, by omega⟩
  · refine ⟨1, r - (2 * halfOf n - 1), ?_, by omega⟩
    cases legs <;> simp only [Legs.count] at upper <;> omega

theorem round_byes_length (attended : Attended roster request) (leg k : Nat) (low : 1 ≤ k)
    (high : k < 2 * halfOf roster.length) :
    (roundResult (request (leg * (2 * halfOf roster.length - 1) + k))).byes.length =
      roster.length % 2 := by
  have byes := congrArg List.length (round_byes attended leg k low high)
  rw [List.length_map] at byes
  rw [byes]
  by_cases even : roster.length % 2 = 0
  · rw [if_pos even, even, List.length_nil]
  · rw [if_neg even, List.length_singleton]
    omega

theorem round_playerIds (attended : Attended roster request) (r : Nat) (lower : 1 ≤ r) :
    (roundResult (request r)).playerIds.Perm (roster.map Prod.fst) := by
  have length := sameField_length (attended.field r)
  have number := attended.number r
  have enough := attended.enough
  have listed := roundResult_players (request r) (by omega) (by omega)
  have everyone : ((request r).players.filter fun player =>
      isActive player (request r).roundNumber) = (request r).players := by
    apply List.filter_eq_self.mpr
    intro player inside
    rw [number]
    exact attended.present r player inside lower
  rw [everyone] at listed
  refine listed.trans ?_
  have ids := List.Perm.map Prod.fst (attended.field r)
  rwa [List.map_map] at ids

/-- Everybody present: the rounds, run one after the other, form a complete schedule. -/
theorem attended_complete (legs : Legs) (attended : Attended roster request) :
    CompleteSchedule legs (roster.map Prod.fst) fun r => roundResult (request r) where
  meets := by
    intro a aIn b bIn apart
    obtain ⟨s, left, rfl⟩ := roster_seat a aIn
    obtain ⟨t, right, rfl⟩ := roster_seat b bIn
    have seatsApart : s ≠ t := fun same => apart (by rw [same])
    have first := leg_meets attended 0 s t left right seatsApart
    have second := leg_meets attended 1 s t left right seatsApart
    rw [List.length_map, meetings]
    cases legs with
    | single =>
        rw [allPairings_single, first, Legs.count]
    | double =>
        rw [allPairings_double, games_append, games_append, Legs.count]
        omega
  once := by
    intro r lower _
    exact round_playerIds attended r lower
  byes := by
    intro r lower upper
    rw [List.length_map] at upper ⊢
    obtain ⟨leg, k, range, rfl⟩ := schedule_round legs _ r attended.enough lower upper
    exact round_byes_length attended leg k range.1 range.2
  legBye := by
    intro odd leg _ a inside
    rw [List.length_map] at odd ⊢
    exact leg_bye_once attended leg odd a ((rosterIds_perm roster).symm.subset inside)
  legColors := by
    intro leg _ a inside
    obtain ⟨s, range, rfl⟩ := roster_seat a inside
    rw [List.length_map]
    exact leg_colors attended leg s range
  bothColors := by
    rintro rfl a aIn b bIn apart
    obtain ⟨s, left, rfl⟩ := roster_seat a aIn
    obtain ⟨t, right, rfl⟩ := roster_seat b bIn
    have seatsApart : s ≠ t := fun same => apart (by rw [same])
    rw [List.length_map, allPairings_double, games_append,
      second_leg_games attended s t left right]
    exact leg_meets attended 0 s t left right seatsApart
  balanced := by
    rintro rfl a inside
    obtain ⟨s, range, rfl⟩ := roster_seat a inside
    have whites (leg : Nat) : whiteGames _ _ = _ := leg_color attended leg .white s range
    have blacks (leg : Nat) : blackGames _ _ = _ := leg_color attended leg .black s range
    rw [List.length_map, allPairings_double, whiteGames_append, blackGames_append, whites 0,
      whites 1, blacks 0, blacks 1]
    simp only [SeatPair.seat, Nat.one_ne_zero, ↓reduceIte]
    omega

/-- Whoever is away: a round within the schedule names every active player exactly once
and nobody else. -/
theorem round_covers (legs : Legs) (fielded : Fielded roster request) (r : Nat) (lower : 1 ≤ r)
    (upper : (r : Int) ≤ scheduleLengthOf legs roster.length)
    (active : 2 ≤ ((request r).players.filter fun player => isActive player r).length) :
    compute legs (request r) = .ok (roundResult (request r)) ∧
      (roundResult (request r)).playerIds.Perm
        (((request r).players.filter fun player => isActive player r).map
          PlayerPairingState.playerId) := by
  have length := sameField_length (fielded.field r)
  have number := fielded.number r
  have enough := fielded.enough
  refine ⟨?_, ?_⟩
  · apply compute_ok legs (request r) (sameField_numbers (fielded.field r) fielded.numbers)
    · omega
    · omega
    · rwa [length, number]
    · rwa [number]
  · have listed := roundResult_players (request r) (by omega) (by omega)
    rwa [number] at listed

theorem playerIds_nodup (fielded : Fielded roster request) (r : Nat) :
    ((request r).players.map PlayerPairingState.playerId).Nodup := by
  have ids := (List.Perm.map Prod.fst (fielded.field r)).nodup_iff.mpr fielded.ids
  rwa [List.map_map] at ids

end Attended

/-- The engine over one field of players: a complete schedule when everybody attends,
and with any withdrawals and late entries every round still seats exactly the active
players. -/
theorem schedule_correct (legs : Legs) (roster : List (PlayerId × Int))
    (request : Nat → PairingRequest) (fielded : Fielded roster request) :
    ((∀ r : Nat, ∀ player ∈ (request r).players, 1 ≤ r → isActive player r = true) →
      ∃ results : Nat → PairingResult,
        (∀ r : Nat, 1 ≤ r → (r : Int) ≤ scheduleLengthOf legs roster.length →
          compute legs (request r) = .ok (results r)) ∧
        CompleteSchedule legs (roster.map Prod.fst) results) ∧
    (∀ r : Nat, 1 ≤ r → (r : Int) ≤ scheduleLengthOf legs roster.length →
      2 ≤ ((request r).players.filter fun player => isActive player r).length →
      ∃ result, compute legs (request r) = .ok result ∧ result.playerIds.Nodup ∧
        ∀ id, id ∈ result.playerIds ↔
          ∃ player ∈ (request r).players, player.playerId = id ∧ isActive player r = true) := by
  refine ⟨?_, ?_⟩
  · intro present
    have attended : Attended roster request := { fielded with present := present }
    refine ⟨fun r => roundResult (request r), ?_, attended_complete legs attended⟩
    intro r lower upper
    refine (round_covers legs fielded r lower upper ?_).1
    have everyone : ((request r).players.filter fun player => isActive player r) =
        (request r).players :=
      List.filter_eq_self.mpr fun player inside => present r player inside lower
    rw [everyone, sameField_length (fielded.field r)]
    exact fielded.enough
  · intro r lower upper active
    obtain ⟨answered, covered⟩ := round_covers legs fielded r lower upper active
    refine ⟨_, answered, ?_, ?_⟩
    · rw [covered.nodup_iff]
      exact (playerIds_nodup fielded r).sublist (List.filter_sublist.map _)
    · intro id
      rw [covered.mem_iff, List.mem_map]
      simp only [List.mem_filter]
      exact ⟨fun ⟨player, inside, named⟩ => ⟨player, inside.1, named, inside.2⟩,
        fun ⟨player, inside, named, active⟩ => ⟨player, ⟨inside, active⟩, named⟩⟩

/-- Three players under their pairing numbers, asked for round `r`. -/
def threePlayers (r : Nat) : PairingRequest where
  roundId := "round"
  roundNumber := r
  totalRounds := 3
  players := [⟨10, 2, 0, [], [], [], false, false, 1⟩, ⟨20, 1, 0, [], [], [], false, false, 1⟩,
    ⟨30, 5, 0, [], [], [], false, false, 1⟩]
  initialColor := none

theorem threePlayers_schedule :
    ∃ results : Nat → PairingResult,
      (∀ r : Nat, 1 ≤ r → (r : Int) ≤ 3 →
        compute .single (threePlayers r) = .ok (results r)) ∧
      CompleteSchedule .single [10, 20, 30] results := by
  refine (schedule_correct .single [(10, 2), (20, 1), (30, 5)] threePlayers ?_).1 ?_
  · exact ⟨by decide, by decide, by decide, fun _ => .refl _, fun _ => rfl⟩
  · intro r player inside lower
    simp only [threePlayers, List.mem_cons, List.not_mem_nil, or_false] at inside
    rcases inside with rfl | rfl | rfl <;> simp [isActive] <;> omega

end Farzin.RoundRobin
