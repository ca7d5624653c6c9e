import Farzin.RoundRobinColors

set_option autoImplicit false

/- What one run of the engine produces, in terms of the table of its round. -/
namespace Farzin.RoundRobin

/-- The board a table yields: both sides have an active player. -/
def boardOf (seats : List PlayerPairingState) (roundNumber : Int) (isSecondLeg : Bool)
    (table : SeatPair) : Option (PlayerId × PlayerId) :=
  let white := activeAtSeat seats roundNumber
    (if isSecondLeg then table.blackSeat else table.whiteSeat)
  let black := activeAtSeat seats roundNumber
    (if isSecondLeg then table.whiteSeat else table.blackSeat)
  white.bind fun w => black.map fun b => (w.playerId, b.playerId)

/-- The bye a table yields: exactly one side has an active player. -/
def byeOf (seats : List PlayerPairingState) (roundNumber : Int) (table : SeatPair) :
    Option PlayerId :=
  match activeAtSeat seats roundNumber table.whiteSeat,
    activeAtSeat seats roundNumber table.blackSeat with
  | some white, none => some white.playerId
  | none, some black => some black.playerId
  | _, _ => none

def Pairing.players (pairing : Pairing) : PlayerId × PlayerId :=
  (pairing.whitePlayerId, pairing.blackPlayerId)

variable (seats : List PlayerPairingState) (roundNumber : Int) (isSecondLeg : Bool)

theorem seat_pairings (boards : Boards) (table : SeatPair) :
    (boards.seat seats roundNumber isSecondLeg table).pairings.map Pairing.players =
      boards.pairings.map Pairing.players ++
        (boardOf seats roundNumber isSecondLeg table).toList := by
  unfold Boards.seat boardOf
  cases activeAtSeat seats roundNumber (if isSecondLeg then table.blackSeat else table.whiteSeat) <;>
    cases activeAtSeat seats roundNumber
      (if isSecondLeg then table.whiteSeat else table.blackSeat) <;>
    simp [Pairing.players]

theorem seat_byes (boards : Boards) (table : SeatPair) :
    (boards.seat seats roundNumber isSecondLeg table).byes.map ByeAssignment.playerId =
      boards.byes.map ByeAssignment.playerId ++ (byeOf seats roundNumber table).toList := by
  unfold Boards.seat byeOf
  cases isSecondLeg <;>
    simp only [Bool.false_eq_true, ↓reduceIte] <;>
    cases activeAtSeat seats roundNumber table.whiteSeat <;>
    cases activeAtSeat seats roundNumber table.blackSeat <;>
    simp [pairingAllocatedBye]

/-- The loop over the tables collects the boards and the byes in table order. -/
theorem foldl_pairings (tables : List SeatPair) (boards : Boards) :
    (tables.foldl (Boards.seat seats roundNumber isSecondLeg) boards).pairings.map
        Pairing.players =
      boards.pairings.map Pairing.players ++
        tables.filterMap (boardOf seats roundNumber isSecondLeg) := by
  induction tables generalizing boards with
  | nil => simp
  | cons table tables ih =>
      rw [List.foldl_cons, ih, seat_pairings, List.filterMap_cons, List.append_assoc]
      cases boardOf seats roundNumber isSecondLeg table <;> rfl

theorem foldl_byes (tables : List SeatPair) (boards : Boards) :
    (tables.foldl (Boards.seat seats roundNumber isSecondLeg) boards).byes.map
        ByeAssignment.playerId =
      boards.byes.map ByeAssignment.playerId ++ tables.filterMap (byeOf seats roundNumber) := by
  induction tables generalizing boards with
  | nil => simp
  | cons table tables ih =>
      rw [List.foldl_cons, ih, seat_byes, List.filterMap_cons, List.append_assoc]
      cases byeOf seats roundNumber table <;> rfl

/-- The id of the active player at a seat. -/
def activeId (seat : Int) : Option PlayerId :=
  (activeAtSeat seats roundNumber seat).map PlayerPairingState.playerId

/-- A table names exactly the active players at its two seats. -/
theorem table_players (table : SeatPair) :
    ((boardOf seats roundNumber isSecondLeg table).toList.flatMap (fun p => [p.1, p.2]) ++
      (byeOf seats roundNumber table).toList).Perm
        (table.seats.filterMap (activeId seats roundNumber)) := by
  unfold boardOf byeOf activeId SeatPair.seats
  cases isSecondLeg <;>
    simp only [Bool.false_eq_true, ↓reduceIte] <;>
    cases white : activeAtSeat seats roundNumber table.whiteSeat <;>
    cases black : activeAtSeat seats roundNumber table.blackSeat <;>
    simp [white, black, List.Perm.swap]

theorem tables_players (tables : List SeatPair) :
    ((tables.filterMap (boardOf seats roundNumber isSecondLeg)).flatMap (fun p => [p.1, p.2]) ++
      tables.filterMap (byeOf seats roundNumber)).Perm
        ((tables.flatMap SeatPair.seats).filterMap (activeId seats roundNumber)) := by
  induction tables with
  | nil => exact .nil
  | cons table tables ih =>
      have here := table_players seats roundNumber isSecondLeg table
      have both := here.append ih
      rw [List.flatMap_cons, List.filterMap_append]
      refine List.Perm.trans ?_ both
      have board : ((table :: tables).filterMap (boardOf seats roundNumber isSecondLeg)) =
          (boardOf seats roundNumber isSecondLeg table).toList ++
            tables.filterMap (boardOf seats roundNumber isSecondLeg) := by
        rw [List.filterMap_cons]
        cases boardOf seats roundNumber isSecondLeg table <;> rfl
      have bye : ((table :: tables).filterMap (byeOf seats roundNumber)) =
          (byeOf seats roundNumber table).toList ++
            tables.filterMap (byeOf seats roundNumber) := by
        rw [List.filterMap_cons]
        cases byeOf seats roundNumber table <;> rfl
      rw [board, bye, List.flatMap_append]
      simp only [List.append_assoc]
      apply List.Perm.append_left
      rw [← List.append_assoc, ← List.append_assoc]
      exact List.perm_append_comm.append_right _

/-- Reading the seats `1..k` in order lists the players, when there are at most `k`. -/
theorem filterMap_seats (k : Nat) (room : seats.length ≤ k) (f : Int → Option PlayerPairingState)
    (reads : ∀ i : Nat, f (i + 1) = seats[i]?) :
    ((List.range' 1 k).map fun (i : Nat) => (i : Int)).filterMap f = seats := by
  induction k generalizing seats f with
  | zero =>
      have empty : seats = [] := List.eq_nil_of_length_eq_zero (by omega)
      rw [empty]
      rfl
  | succ k ih =>
      have shift : (List.range' 1 (k + 1)).map (fun (i : Nat) => (i : Int)) =
          1 :: ((List.range' 1 k).map fun (i : Nat) => (i : Int)).map (· + 1) := by
        rw [List.range'_succ, List.map_cons, List.map_map, List.range'_eq_map_range,
          List.range'_eq_map_range, List.map_map, List.map_map]
        congr 1
        apply List.map_congr_left
        intro i _
        simp only [Function.comp_apply]
        omega
      have first : f 1 = seats[0]? := reads 0
      rw [shift, List.filterMap_cons, List.filterMap_map, first]
      cases seats with
      | nil =>
          have rest := ih [] (by simp) (f ∘ (· + 1)) (fun i => reads (i + 1))
          simpa using rest
      | cons player players =>
          have rest := ih players (by simpa using room) (f ∘ (· + 1)) (fun i => reads (i + 1))
          simpa using rest

theorem playerAtSeat_succ (i : Nat) : playerAtSeat seats (i + 1) = seats[i]? := by
  rw [playerAtSeat, if_pos (by omega)]
  congr 1
  omega

theorem filterMap_active (players : List PlayerPairingState) :
    players.filterMap (fun player =>
        if isActive player roundNumber then some player.playerId else none) =
      (players.filter fun player => isActive player roundNumber).map
        PlayerPairingState.playerId := by
  induction players with
  | nil => rfl
  | cons player players ih =>
      rw [List.filterMap_cons, List.filter_cons]
      split <;> simp_all

/-- All seats of the table together hold the active players, in pairing-number order. -/
theorem activeIds_seats (half : Nat) (room : seats.length ≤ 2 * half) :
    (seatNumbers half).filterMap (activeId seats roundNumber) =
      (seats.filter fun player => isActive player roundNumber).map
        PlayerPairingState.playerId := by
  have listed := filterMap_seats seats (2 * half) room (playerAtSeat seats)
    (playerAtSeat_succ seats)
  have steps : activeId seats roundNumber = fun seat =>
      (playerAtSeat seats seat).bind fun player =>
        if isActive player roundNumber then some player.playerId else none := by
    funext seat
    unfold activeId activeAtSeat
    cases playerAtSeat seats seat with
    | none => rfl
    | some player =>
        simp only [Option.filter_some, Option.bind_some]
        split <;> rfl
  rw [steps, ← List.filterMap_filterMap, seatNumbers, listed, filterMap_active]

end Farzin.RoundRobin
