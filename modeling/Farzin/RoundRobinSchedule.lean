import Farzin.RoundRobinBoards
import Mathlib.Data.List.GetD

set_option autoImplicit false

/- Whole round-robin schedules: all rounds of one or two legs, run in order. -/
namespace Farzin.RoundRobin

/-- The result of a round that passes every check of `compute`. -/
def roundResult (request : PairingRequest) : PairingResult :=
  let seats := sortByNumber request.players
  let n := seats.length
  let boards := (bergerRound (tableSizeOf n)
      ((request.roundNumber - 1).tmod (roundsPerLegOf n) + 1)).foldl
    (Boards.seat seats request.roundNumber (decide (roundsPerLegOf n < request.roundNumber)))
    Boards.empty
  ⟨boards.pairings, boards.byes, "1.0.0", none⟩

theorem sortByNumber_perm (players : List PlayerPairingState) :
    (sortByNumber players).Perm players :=
  List.perm_insertionSort _ players

theorem repeatedNumber_none (players : List PlayerPairingState)
    (distinct : (players.map PlayerPairingState.pairingNumber).Nodup) :
    repeatedNumber players = none := by
  induction players with
  | nil => rfl
  | cons player rest ih =>
      cases rest with
      | nil => rfl
      | cons next rest =>
          rw [List.map_cons, List.nodup_cons] at distinct
          have apart : next.pairingNumber ≠ player.pairingNumber := by
            intro same
            apply distinct.1
            simp [same]
          rw [repeatedNumber, if_neg apart]
          exact ih distinct.2

theorem seatingOrder_ok (request : PairingRequest)
    (distinct : (request.players.map PlayerPairingState.pairingNumber).Nodup) :
    seatingOrder request = .ok (sortByNumber request.players) := by
  have sorted := ((sortByNumber_perm request.players).map
    PlayerPairingState.pairingNumber).nodup_iff.mpr distinct
  rw [seatingOrder, repeatedNumber_none _ sorted]

/-- Within the schedule and with two active players, the engine always answers. -/
theorem compute_ok (legs : Legs) (request : PairingRequest)
    (distinct : (request.players.map PlayerPairingState.pairingNumber).Nodup)
    (enough : 2 ≤ request.players.length) (lower : 1 ≤ request.roundNumber)
    (upper : request.roundNumber ≤ scheduleLengthOf legs request.players.length)
    (active : 2 ≤ (request.players.filter fun player =>
      isActive player request.roundNumber).length) :
    compute legs request = .ok (roundResult request) := by
  have length : (sortByNumber request.players).length = request.players.length :=
    (sortByNumber_perm request.players).length_eq
  have activeLength := ((sortByNumber_perm request.players).filter fun player =>
    isActive player request.roundNumber).length_eq
  have tooFew : ¬ (sortByNumber request.players).length < 2 := by omega
  have inSchedule : ¬ (request.roundNumber < 1 ∨
      scheduleLengthOf legs (sortByNumber request.players).length < request.roundNumber) := by
    rw [length]
    omega
  have attended : ¬ ((sortByNumber request.players).filter fun player =>
      isActive player request.roundNumber).length < 2 := by omega
  simp only [compute, seatingOrder_ok request distinct, bind, Except.bind, pure, Except.pure,
    tooFew, inSchedule, attended, if_false, roundResult]

theorem tableSizeOf_eq (n : Nat) : tableSizeOf n = 2 * halfOf n := by
  unfold tableSizeOf halfOf
  split <;> omega

theorem roundsPerLegOf_eq (n : Nat) : roundsPerLegOf n = 2 * halfOf n - 1 := by
  rw [roundsPerLegOf, tableSizeOf_eq]

theorem legRound_bounds (n : Nat) (round : Int) (enough : 2 ≤ n) (lower : 1 ≤ round) :
    1 ≤ (round - 1).tmod (roundsPerLegOf n) + 1 ∧
      (round - 1).tmod (roundsPerLegOf n) + 1 < 2 * halfOf n := by
  have positive : 1 ≤ halfOf n := by unfold halfOf; omega
  rw [roundsPerLegOf_eq, Int.tmod_eq_emod_of_nonneg (by omega)]
  have low := Int.emod_nonneg (round - 1) (show (2 * (halfOf n : Int) - 1) ≠ 0 by omega)
  have high := Int.emod_lt_of_pos (round - 1) (show 0 < (2 * (halfOf n : Int) - 1) by omega)
  omega

theorem players_flatMap (pairings : List Pairing) :
    pairings.flatMap (fun p => [p.whitePlayerId, p.blackPlayerId]) =
      (pairings.map Pairing.players).flatMap fun p => [p.1, p.2] := by
  rw [List.flatMap_map]
  rfl

/-- A round names exactly the active players, whoever they are. -/
theorem roundResult_players (request : PairingRequest) (enough : 2 ≤ request.players.length)
    (lower : 1 ≤ request.roundNumber) :
    (roundResult request).playerIds.Perm
      ((request.players.filter fun player => isActive player request.roundNumber).map
        PlayerPairingState.playerId) := by
  have sorted := sortByNumber_perm request.players
  have length : (sortByNumber request.players).length = request.players.length :=
    sorted.length_eq
  have bounds := legRound_bounds request.players.length request.roundNumber enough lower
  have positive : 1 ≤ halfOf request.players.length := by unfold halfOf; omega
  have tables := tables_players (sortByNumber request.players) request.roundNumber
    (decide (roundsPerLegOf request.players.length < request.roundNumber))
    (bergerRound (2 * halfOf request.players.length)
      ((request.roundNumber - 1).tmod (roundsPerLegOf request.players.length) + 1))
  have seated := (bergerRound_seats (halfOf request.players.length) _ positive
    bounds.1 bounds.2).filterMap (activeId (sortByNumber request.players) request.roundNumber)
  rw [activeIds_seats (sortByNumber request.players) request.roundNumber _
    (by rw [length]; unfold halfOf; omega)] at seated
  have unsorted := (sorted.filter fun player => isActive player request.roundNumber).map
    PlayerPairingState.playerId
  refine List.Perm.trans ?_ (tables.trans (seated.trans unsorted))
  rw [PairingResult.playerIds, players_flatMap]
  simp only [roundResult, length, tableSizeOf_eq, foldl_pairings, foldl_byes, Boards.empty,
    List.map_nil, List.nil_append]
  exact List.Perm.refl _

/-- The games with the given colours. -/
def games (pairings : List Pairing) (white black : PlayerId) : Nat :=
  pairings.countP fun p => p.whitePlayerId = white ∧ p.blackPlayerId = black

def whiteGames (pairings : List Pairing) (player : PlayerId) : Nat :=
  pairings.countP fun p => p.whitePlayerId = player

def blackGames (pairings : List Pairing) (player : PlayerId) : Nat :=
  pairings.countP fun p => p.blackPlayerId = player

def meetings (pairings : List Pairing) (a b : PlayerId) : Nat :=
  games pairings a b + games pairings b a

/-- The round numbers of one leg, counted from zero. -/
def legRounds (n leg : Nat) : List Nat :=
  List.range' (leg * (2 * halfOf n - 1) + 1) (2 * halfOf n - 1)

def legPairings (n leg : Nat) (results : Nat → PairingResult) : List Pairing :=
  (legRounds n leg).flatMap fun r => (results r).pairings

def legByes (n leg : Nat) (results : Nat → PairingResult) : List PlayerId :=
  (legRounds n leg).flatMap fun r => (results r).byes.map ByeAssignment.playerId

/-- All boards of the whole schedule. -/
def allPairings (legs : Legs) (n : Nat) (results : Nat → PairingResult) : List Pairing :=
  (List.range legs.count).flatMap fun leg => legPairings n leg results

/-- The player at a seat of a full field. -/
def seatId (ids : List PlayerId) (seat : Int) : PlayerId := ids.getD (seat - 1).toNat 0

/-- The two players of a full table; the second leg reverses the colours. -/
def tableIds (ids : List PlayerId) (leg : Nat) (table : SeatPair) : PlayerId × PlayerId :=
  if leg = 0 then (seatId ids table.whiteSeat, seatId ids table.blackSeat)
  else (seatId ids table.blackSeat, seatId ids table.whiteSeat)

theorem seatId_inj (ids : List PlayerId) (distinct : ids.Nodup) (s t : Int)
    (left : 1 ≤ s ∧ s ≤ ids.length) (right : 1 ≤ t ∧ t ≤ ids.length) :
    seatId ids s = seatId ids t ↔ s = t := by
  have insideLeft : (s - 1).toNat < ids.length := by omega
  have insideRight : (t - 1).toNat < ids.length := by omega
  rw [seatId, seatId, List.getD_eq_getElem _ _ insideLeft, List.getD_eq_getElem _ _ insideRight,
    distinct.getElem_inj_iff]
  omega

theorem exists_seat (ids : List PlayerId) (player : PlayerId) (inside : player ∈ ids) :
    ∃ s : Int, (1 ≤ s ∧ s ≤ ids.length) ∧ seatId ids s = player := by
  obtain ⟨i, bound, rfl⟩ := List.getElem_of_mem inside
  refine ⟨i + 1, by omega, ?_⟩
  rw [seatId, List.getD_eq_getElem _ _ (by omega)]
  congr 1
  omega

section FullAttendance

variable (seats : List PlayerPairingState) (round : Int)
  (attending : ∀ player ∈ seats, isActive player round = true)

include attending

theorem activeAtSeat_full (seat : Int) (first : 1 ≤ seat) :
    (activeAtSeat seats round seat).map PlayerPairingState.playerId =
      if seat ≤ seats.length then some (seatId (seats.map PlayerPairingState.playerId) seat)
      else none := by
  rw [activeAtSeat, playerAtSeat, if_pos first]
  split
  · rename_i last
    have inside : (seat - 1).toNat < seats.length := by omega
    rw [List.getElem?_eq_getElem inside, Option.filter_some,
      if_pos (attending _ (List.getElem_mem inside)), seatId,
      List.getD_eq_getElem _ _ (by simpa using inside)]
    simp
  · rename_i last
    rw [List.getElem?_eq_none (by omega)]
    rfl

theorem boardOf_full (leg : Nat) (second : Bool) (legs : second = decide (leg ≠ 0))
    (table : SeatPair) (white : 1 ≤ table.whiteSeat) (black : 1 ≤ table.blackSeat) :
    boardOf seats round second table =
      if table.whiteSeat ≤ seats.length ∧ table.blackSeat ≤ seats.length then
        some (tableIds (seats.map PlayerPairingState.playerId) leg table)
      else none := by
  have whiteSide := activeAtSeat_full seats round attending table.whiteSeat white
  have blackSide := activeAtSeat_full seats round attending table.blackSeat black
  unfold boardOf tableIds
  subst legs
  by_cases first : leg = 0 <;>
    by_cases left : table.whiteSeat ≤ seats.length <;>
    by_cases right : table.blackSeat ≤ seats.length <;>
    simp only [first, left, right, ne_eq, not_true_eq_false, not_false_eq_true, decide_true,
      decide_false, Bool.false_eq_true, and_self, and_true, and_false, ↓reduceIte]
        at whiteSide blackSide ⊢ <;>
    cases whiteCase : activeAtSeat seats round table.whiteSeat <;>
    cases blackCase : activeAtSeat seats round table.blackSeat <;>
    rw [whiteCase] at whiteSide <;> rw [blackCase] at blackSide <;>
    simp_all

theorem byeOf_full (table : SeatPair) (white : 1 ≤ table.whiteSeat)
    (black : 1 ≤ table.blackSeat) :
    byeOf seats round table =
      if table.whiteSeat ≤ seats.length then
        if table.blackSeat ≤ seats.length then none
        else some (seatId (seats.map PlayerPairingState.playerId) table.whiteSeat)
      else if table.blackSeat ≤ seats.length then
        some (seatId (seats.map PlayerPairingState.playerId) table.blackSeat)
      else none := by
  have whiteSide := activeAtSeat_full seats round attending table.whiteSeat white
  have blackSide := activeAtSeat_full seats round attending table.blackSeat black
  unfold byeOf
  by_cases left : table.whiteSeat ≤ seats.length <;>
    by_cases right : table.blackSeat ≤ seats.length <;>
    simp only [left, right, ↓reduceIte] at whiteSide blackSide ⊢ <;>
    cases whiteCase : activeAtSeat seats round table.whiteSeat <;>
    cases blackCase : activeAtSeat seats round table.blackSeat <;>
    rw [whiteCase] at whiteSide <;> rw [blackCase] at blackSide <;>
    simp_all

end FullAttendance

/-- The ids of a roster in pairing-number order: seat by seat. -/
def rosterIds (roster : List (PlayerId × Int)) : List PlayerId :=
  (roster.insertionSort fun a b => a.2 ≤ b.2).map Prod.fst

/-- The players of a request are those of a roster, whatever their other data. -/
def SameField (roster : List (PlayerId × Int)) (players : List PlayerPairingState) : Prop :=
  (players.map fun p => (p.playerId, p.pairingNumber)).Perm roster

theorem sortByNumber_roster (roster : List (PlayerId × Int)) (players : List PlayerPairingState)
    (field : SameField roster players) (distinct : (roster.map Prod.snd).Nodup) :
    (sortByNumber players).map PlayerPairingState.playerId = rosterIds roster := by
  have keyed : ((sortByNumber players).map fun p => (p.playerId, p.pairingNumber)) =
      roster.insertionSort fun a b => a.2 ≤ b.2 := by
    have perm : ((sortByNumber players).map fun p => (p.playerId, p.pairingNumber)).Perm
        (roster.insertionSort fun a b => a.2 ≤ b.2) :=
      (((sortByNumber_perm players).map _).trans field).trans (List.perm_insertionSort _ _).symm
    refine @List.Perm.eq_of_pairwise _ (fun a b => a.2 ≤ b.2) _ _ ?_ ?_ ?_ perm
    · intro a b left right below above
      have leftIn : a ∈ roster := field.subset (((sortByNumber_perm players).map _).subset left)
      have rightIn : b ∈ roster := (List.perm_insertionSort _ roster).subset right
      exact List.inj_on_of_nodup_map distinct leftIn rightIn (Int.le_antisymm below above)
    · rw [List.pairwise_map]
      exact List.pairwise_insertionSort _ players
    · exact List.pairwise_insertionSort _ roster
  rw [rosterIds, ← keyed, List.map_map]
  rfl

theorem sameField_length {roster : List (PlayerId × Int)} {players : List PlayerPairingState}
    (field : SameField roster players) : players.length = roster.length := by
  have same := List.Perm.length_eq field
  rwa [List.length_map] at same

theorem sameField_numbers {roster : List (PlayerId × Int)} {players : List PlayerPairingState}
    (field : SameField roster players) (distinct : (roster.map Prod.snd).Nodup) :
    (players.map PlayerPairingState.pairingNumber).Nodup := by
  have numbers := (List.Perm.map Prod.snd field).nodup_iff.mpr distinct
  rwa [List.map_map] at numbers

theorem rosterIds_perm (roster : List (PlayerId × Int)) :
    (rosterIds roster).Perm (roster.map Prod.fst) :=
  (List.perm_insertionSort _ roster).map _

theorem rosterIds_length (roster : List (PlayerId × Int)) :
    (rosterIds roster).length = roster.length := by
  rw [(rosterIds_perm roster).length_eq, List.length_map]

section WholeSchedule

variable (roster : List (PlayerId × Int)) (request : Nat → PairingRequest)

/-- Every round asks for its own number over one field of at least two players. -/
structure Fielded : Prop where
  enough : 2 ≤ roster.length
  ids : (roster.map Prod.fst).Nodup
  numbers : (roster.map Prod.snd).Nodup
  field : ∀ r, SameField roster (request r).players
  number : ∀ r : Nat, (request r).roundNumber = r

/-- Nobody withdraws and nobody joins late. -/
structure Attended : Prop extends Fielded roster request where
  present : ∀ r : Nat, ∀ player ∈ (request r).players, 1 ≤ r → isActive player r = true

variable {roster request}

theorem Attended.half_positive (attended : Attended roster request) :
    1 ≤ halfOf roster.length := by
  have enough := attended.enough
  unfold halfOf
  omega

/-- Round `k` of leg `leg` uses table round `k`, reversed from the second leg on. -/
theorem leg_round (n leg k : Nat) (enough : 2 ≤ n) (low : 1 ≤ k) (high : k < 2 * halfOf n) :
    ((leg * (2 * halfOf n - 1) + k : Nat) - 1 : Int).tmod (roundsPerLegOf n) + 1 = k ∧
      (roundsPerLegOf n < (leg * (2 * halfOf n - 1) + k : Nat) ↔ leg ≠ 0) := by
  have positive : 1 ≤ halfOf n := by unfold halfOf; omega
  have modulus : roundsPerLegOf n = (2 * halfOf n - 1 : Nat) := by
    rw [roundsPerLegOf_eq]
    omega
  rw [modulus]
  constructor
  · have shifted : ((leg * (2 * halfOf n - 1) + k : Nat) - 1 : Int) =
        ((k - 1 + leg * (2 * halfOf n - 1) : Nat) : Int) := by omega
    rw [shifted, Int.tmod_eq_emod_of_nonneg (by omega), ← Int.natCast_emod,
      Nat.add_mul_mod_self_right, Nat.mod_eq_of_lt (by omega)]
    omega
  · rw [Int.ofNat_lt]
    constructor
    · rintro beyond rfl
      omega
    · intro later
      have least := Nat.le_mul_of_pos_left (2 * halfOf n - 1) (Nat.pos_of_ne_zero later)
      omega

theorem round_pairings (attended : Attended roster request) (leg k : Nat) (low : 1 ≤ k)
    (high : k < 2 * halfOf roster.length) :
    (roundResult (request (leg * (2 * halfOf roster.length - 1) + k))).pairings.map
        Pairing.players =
      ((bergerRound (2 * halfOf roster.length) k).filter (taken roster.length)).map
        (tableIds (rosterIds roster) leg) := by
  have field := attended.field (leg * (2 * halfOf roster.length - 1) + k)
  have ids := sortByNumber_roster roster _ field attended.numbers
  have length : (sortByNumber
      (request (leg * (2 * halfOf roster.length - 1) + k)).players).length = roster.length := by
    rw [(sortByNumber_perm _).length_eq, sameField_length field]
  have number := attended.number (leg * (2 * halfOf roster.length - 1) + k)
  obtain ⟨table, second⟩ := leg_round roster.length leg k attended.enough low high
  have positive := attended.half_positive
  simp only [roundResult, length, number, tableSizeOf_eq, foldl_pairings, Boards.empty,
    List.map_nil, List.nil_append]
  rw [table, ← List.filterMap_eq_map', List.filterMap_filter]
  apply List.filterMap_congr
  rintro ⟨s, t⟩ inside
  have range := playsWhite_range ((mem_bergerRound _ _ s t positive (by omega) (by omega)).mp inside).1
  rw [boardOf_full _ _ ?_ leg _ ?_ _ range.1 range.2]
  · rw [length, ids]
    simp [taken]
  · intro player inField
    exact attended.present _ player ((sortByNumber_perm _).subset inField) (by omega)
  · simp only [second]

theorem legPairings_players (attended : Attended roster request) (leg : Nat) :
    (legPairings roster.length leg fun r => roundResult (request r)).map Pairing.players =
      (fullTables (halfOf roster.length) roster.length).map (tableIds (rosterIds roster) leg) := by
  have shift : legRounds roster.length leg =
      (List.range' 1 (2 * halfOf roster.length - 1)).map
        (leg * (2 * halfOf roster.length - 1) + ·) := by
    rw [legRounds, List.map_add_range']
  rw [legPairings, shift, List.flatMap_map, List.map_flatMap, fullTables, legTables,
    List.filter_flatMap, List.map_flatMap]
  apply List.flatMap_congr
  intro k inside
  rw [List.mem_range'_1] at inside
  exact round_pairings attended leg k (by omega) (by omega)

theorem round_byes (attended : Attended roster request) (leg k : Nat) (low : 1 ≤ k)
    (high : k < 2 * halfOf roster.length) :
    (roundResult (request (leg * (2 * halfOf roster.length - 1) + k))).byes.map
        ByeAssignment.playerId =
      if roster.length % 2 = 0 then []
      else [seatId (rosterIds roster) (leaderOf (halfOf roster.length) k)] := by
  have field := attended.field (leg * (2 * halfOf roster.length - 1) + k)
  have ids := sortByNumber_roster roster _ field attended.numbers
  have length : (sortByNumber
      (request (leg * (2 * halfOf roster.length - 1) + k)).players).length = roster.length := by
    rw [(sortByNumber_perm _).length_eq, sameField_length field]
  have number := attended.number (leg * (2 * halfOf roster.length - 1) + k)
  have table := (leg_round roster.length leg k attended.enough low high).1
  have size : 1 ≤ halfOf roster.length ∧ (roster.length = 2 * halfOf roster.length ∨
      roster.length = 2 * halfOf roster.length - 1) := by
    have := attended.enough
    unfold halfOf
    omega
  have present : ∀ player ∈ sortByNumber
      (request (leg * (2 * halfOf roster.length - 1) + k)).players,
      isActive player ((leg * (2 * halfOf roster.length - 1) + k : Nat) : Int) = true :=
    fun player inField =>
      attended.present _ player ((sortByNumber_perm _).subset inField) (by omega)
  have leader := leaderOf_cases (halfOf roster.length) k
  have circles : ((List.range' 1 (halfOf roster.length - 1)).map
      (circleTable (halfOf roster.length) k)).filterMap
        (byeOf (sortByNumber (request (leg * (2 * halfOf roster.length - 1) + k)).players)
          ((leg * (2 * halfOf roster.length - 1) + k : Nat) : Int)) = [] := by
    rw [List.filterMap_eq_nil_iff]
    simp only [List.mem_map, List.mem_range'_1]
    rintro _ ⟨i, inside, rfl⟩
    have white := circleTable_white (halfOf roster.length) k i
    have black := circleTable_black (halfOf roster.length) k i
    rw [byeOf_full _ _ present _ (by omega) (by omega), length, if_pos (by omega),
      if_pos (by omega)]
  simp only [roundResult, length, number, tableSizeOf_eq, foldl_byes, Boards.empty,
    List.map_nil, List.nil_append]
  rw [table, bergerRound_eq _ _ size.1 (by omega) (by omega), List.filterMap_cons, circles]
  have fixed : byeOf (sortByNumber (request (leg * (2 * halfOf roster.length - 1) + k)).players)
      ((leg * (2 * halfOf roster.length - 1) + k : Nat) : Int)
        (fixedTable (halfOf roster.length) k) =
      if roster.length % 2 = 0 then none
      else some (seatId (rosterIds roster) (leaderOf (halfOf roster.length) k)) := by
    unfold fixedTable
    split
    · rw [byeOf_full _ _ present _ (by dsimp only; omega) (by dsimp only; omega), length, ids]
      dsimp only
      rw [if_pos (by omega)]
      split_ifs <;> first | rfl | omega
    · rw [byeOf_full _ _ present _ (by dsimp only; omega) (by dsimp only; omega), length, ids]
      dsimp only
      rw [if_pos (c := leaderOf (halfOf roster.length) k ≤ roster.length) (by omega)]
      split_ifs <;> first | rfl | omega
  rw [fixed]
  by_cases even : roster.length % 2 = 0
  · simp only [even, ↓reduceIte]
  · simp only [even, ↓reduceIte]

theorem legByes_eq (attended : Attended roster request) (leg : Nat)
    (odd : roster.length % 2 = 1) :
    (legByes roster.length leg fun r => roundResult (request r)) =
      (List.range' 1 (2 * halfOf roster.length - 1)).map fun k : Nat =>
        seatId (rosterIds roster) (leaderOf (halfOf roster.length) k) := by
  have shift : legRounds roster.length leg =
      (List.range' 1 (2 * halfOf roster.length - 1)).map
        (leg * (2 * halfOf roster.length - 1) + ·) := by
    rw [legRounds, List.map_add_range']
  rw [legByes, shift, List.flatMap_map, List.map_eq_flatMap]
  apply List.flatMap_congr
  intro k inside
  rw [List.mem_range'_1] at inside
  rw [round_byes attended leg k (by omega) (by omega), if_neg (by omega)]

/-- The leaders of the odd rounds come first, then those of the even rounds. -/
theorem leaderOf_inj (half i j : Int) (left : 1 ≤ i ∧ i < 2 * half) (right : 1 ≤ j ∧ j < 2 * half)
    (same : leaderOf half i = leaderOf half j) : i = j := by
  have first := leaderOf_cases half i
  have second := leaderOf_cases half j
  omega

theorem leg_bye_once (attended : Attended roster request) (leg : Nat)
    (odd : roster.length % 2 = 1) (player : PlayerId) (inside : player ∈ rosterIds roster) :
    (legByes roster.length leg fun r => roundResult (request r)).count player = 1 := by
  have distinct : (rosterIds roster).Nodup := (rosterIds_perm roster).nodup_iff.mpr attended.ids
  have length := rosterIds_length roster
  have size : roster.length = 2 * halfOf roster.length - 1 ∧ 1 ≤ halfOf roster.length := by
    unfold halfOf
    omega
  rw [legByes_eq attended leg odd]
  apply List.count_eq_one_of_mem
  · refine (List.nodup_range' (s := 1) (n := 2 * halfOf roster.length - 1)).map_on ?_
    intro i left j right same
    rw [List.mem_range'_1] at left right
    have first := leaderOf_cases (halfOf roster.length) i
    have second := leaderOf_cases (halfOf roster.length) j
    have leaders := (seatId_inj _ distinct _ _ (by omega) (by omega)).mp same
    have equal := leaderOf_inj _ _ _ (by omega) (by omega) leaders
    omega
  · obtain ⟨s, range, rfl⟩ := exists_seat _ player inside
    rw [List.mem_map]
    have meets := meetingRound_cases (halfOf roster.length) s (2 * halfOf roster.length)
    rw [seatSum_fixed_right] at meets
    refine ⟨(meetingRound (halfOf roster.length) s (2 * halfOf roster.length)).toNat, ?_, ?_⟩
    · rw [List.mem_range'_1]
      omega
    · have leader := leaderOf_cases (halfOf roster.length)
        (meetingRound (halfOf roster.length) s (2 * halfOf roster.length)).toNat
      congr 1
      omega

/-- A leg contains each ordered pair of players as often as the table contains its seats. -/
theorem leg_games (attended : Attended roster request) (leg : Nat) (s t : Int)
    (left : 1 ≤ s ∧ s ≤ roster.length) (right : 1 ≤ t ∧ t ≤ roster.length) :
    games (legPairings roster.length leg fun r => roundResult (request r))
        (seatId (rosterIds roster) s) (seatId (rosterIds roster) t) =
      if (if leg = 0 then PlaysWhite (halfOf roster.length) s t
        else PlaysWhite (halfOf roster.length) t s) then 1 else 0 := by
  have distinct : (rosterIds roster).Nodup := (rosterIds_perm roster).nodup_iff.mpr attended.ids
  have length := rosterIds_length roster
  have positive := attended.half_positive
  have nodup := fullTables_nodup (halfOf roster.length) roster.length positive
  have counted : games (legPairings roster.length leg fun r => roundResult (request r))
      (seatId (rosterIds roster) s) (seatId (rosterIds roster) t) =
        (fullTables (halfOf roster.length) roster.length).count
          (if leg = 0 then ⟨s, t⟩ else ⟨t, s⟩) := by
    have asPairs : games (legPairings roster.length leg fun r => roundResult (request r))
        (seatId (rosterIds roster) s) (seatId (rosterIds roster) t) =
        ((legPairings roster.length leg fun r => roundResult (request r)).map
          Pairing.players).countP fun p => p.1 = seatId (rosterIds roster) s ∧
            p.2 = seatId (rosterIds roster) t := by
      rw [games, List.countP_map]
      rfl
    rw [asPairs, legPairings_players attended leg, List.countP_map, List.count]
    apply List.countP_congr
    rintro ⟨w, b⟩ inside
    have table := (mem_fullTables _ _ w b positive).mp inside
    have range := playsWhite_range table.1
    simp only [Function.comp_apply, tableIds, decide_eq_true_eq, beq_iff_eq]
    split
    · rw [seatId_inj _ distinct _ _ (by omega) (by omega),
        seatId_inj _ distinct _ _ (by omega) (by omega), SeatPair.mk.injEq]
    · rw [seatId_inj _ distinct _ _ (by omega) (by omega),
        seatId_inj _ distinct _ _ (by omega) (by omega), SeatPair.mk.injEq, and_comm]
  rw [counted, nodup.count]
  by_cases first : leg = 0
  · simp only [first, ↓reduceIte]
    congr 1
    rw [mem_fullTables _ _ s t positive, eq_iff_iff]
    exact ⟨fun plays => plays.1, fun plays => ⟨plays, left.2, right.2⟩⟩
  · simp only [first, ↓reduceIte]
    congr 1
    rw [mem_fullTables _ _ t s positive, eq_iff_iff]
    exact ⟨fun plays => plays.1, fun plays => ⟨plays, right.2, left.2⟩⟩

/-- The player who has the colour on a board. -/
def sideOf (color : Color) (players : PlayerId × PlayerId) : PlayerId :=
  match color with
  | .white => players.1
  | .black => players.2

theorem sideOf_tableIds (ids : List PlayerId) (leg : Nat) (color : Color) (table : SeatPair) :
    sideOf color (tableIds ids leg table) = seatId ids (table.seat leg color) := by
  unfold tableIds
  cases color with
  | white =>
      rw [SeatPair.seat]
      split <;> rfl
  | black =>
      rw [SeatPair.seat]
      split <;> rfl

/-- How often a seat has a colour in a leg, read off its tables. -/
theorem leg_color (attended : Attended roster request) (leg : Nat) (color : Color) (s : Int)
    (range : 1 ≤ s ∧ s ≤ roster.length) :
    (legPairings roster.length leg fun r => roundResult (request r)).countP
        (fun pairing => sideOf color (Pairing.players pairing) = seatId (rosterIds roster) s) =
      (fullTables (halfOf roster.length) roster.length).countP
        fun table => table.seat leg color = s := by
  have distinct : (rosterIds roster).Nodup := (rosterIds_perm roster).nodup_iff.mpr attended.ids
  have length := rosterIds_length roster
  have asPairs : (legPairings roster.length leg fun r => roundResult (request r)).countP
      (fun pairing => sideOf color (Pairing.players pairing) = seatId (rosterIds roster) s) =
      ((legPairings roster.length leg fun r => roundResult (request r)).map
        Pairing.players).countP fun p => sideOf color p = seatId (rosterIds roster) s := by
    rw [List.countP_map]
    rfl
  rw [asPairs, legPairings_players attended leg, List.countP_map]
  apply List.countP_congr
  intro table inside
  have taken := (mem_fullTables _ _ table.whiteSeat table.blackSeat attended.half_positive).mp inside
  have seats := playsWhite_range taken.1
  have seated : 1 ≤ table.seat leg color ∧ table.seat leg color ≤ roster.length := by
    unfold SeatPair.seat
    split <;> split <;> omega
  simp only [Function.comp_apply, sideOf_tableIds, decide_eq_true_eq]
  rw [seatId_inj _ distinct _ _ (by omega) (by omega)]

theorem leg_colors (attended : Attended roster request) (leg : Nat) (s : Int)
    (range : 1 ≤ s ∧ s ≤ roster.length) :
    ((whiteGames (legPairings roster.length leg fun r => roundResult (request r))
        (seatId (rosterIds roster) s) : Int) -
      blackGames (legPairings roster.length leg fun r => roundResult (request r))
        (seatId (rosterIds roster) s)).natAbs = if roster.length % 2 = 0 then 1 else 0 := by
  have balance := leg_balance roster.length s attended.enough range.1 range.2
  have whites : whiteGames _ _ = _ := leg_color attended leg .white s range
  have blacks : blackGames _ _ = _ := leg_color attended leg .black s range
  rw [whites, blacks, ← balance]
  by_cases first : leg = 0
  · rw [first]
  · -- the second leg gives everybody the other colour
    simp only [SeatPair.seat, if_neg first, ↓reduceIte]
    rw [← Int.natAbs_neg, Int.neg_sub]

end WholeSchedule

end Farzin.RoundRobin
