import Farzin.PairingTypes

set_option autoImplicit false

/- The round-robin engine (`core/pairing/round-robin.engine.ts`). Seat numbers are
integers because the circle construction steps below seat one before wrapping. -/
namespace Farzin.RoundRobin

/-- The `legs` option of the engine, `1 | 2` in the source. -/
inductive Legs where
  | single
  | double
  deriving DecidableEq, Repr

def Legs.count : Legs → Nat
  | .single => 1
  | .double => 2

structure SeatPair where
  whiteSeat : Int
  blackSeat : Int
  deriving DecidableEq, Repr

def pairingAllocatedByePoints : Rat := 1

/-- Wraps a seat into `1..modulus`. The source's `%` truncates, hence the second one. -/
def wrapSeat (value modulus : Int) : Int :=
  ((value - 1).tmod modulus + modulus).tmod modulus + 1

/-- One round of the Berger table, for an even table size. -/
def bergerRound (tableSize round : Int) : List SeatPair :=
  let half := tableSize.tdiv 2
  let modulus := tableSize - 1
  let leader := ((round - 1) * half).tmod modulus + 1
  let first : SeatPair :=
    if round.tmod 2 = 1 then ⟨leader, tableSize⟩ else ⟨tableSize, leader⟩
  first :: (List.range' 1 (half.toNat - 1)).map fun (i : Nat) =>
    ⟨wrapSeat (leader + i) modulus, wrapSeat (leader - i) modulus⟩

/-- The first pairing number that its successor repeats. -/
def repeatedNumber : List PlayerPairingState → Option Int
  | [] => none
  | [_] => none
  | player :: next :: rest =>
      if next.pairingNumber = player.pairingNumber then some player.pairingNumber
      else repeatedNumber (next :: rest)

def sortByNumber (players : List PlayerPairingState) : List PlayerPairingState :=
  players.insertionSort fun a b => a.pairingNumber ≤ b.pairingNumber

def seatingOrder (request : PairingRequest) : Except PairingError (List PlayerPairingState) :=
  let sorted := sortByNumber request.players
  match repeatedNumber sorted with
  | some number => .error (.impossible request.roundId
      s!"pairingNumber={number} takrorlangan — jadval o'rni aniqlanmaydi")
  | none => .ok sorted

/-- The phantom seat of an odd field has no player. -/
def playerAtSeat (seats : List PlayerPairingState) (seat : Int) : Option PlayerPairingState :=
  if 1 ≤ seat then seats[(seat - 1).toNat]? else none

def pairingAllocatedBye (player : PlayerPairingState) : ByeAssignment :=
  ⟨player.playerId, .pairingAllocated, pairingAllocatedByePoints⟩

/-- The accumulators of the loop over the tables of one round. -/
structure Boards where
  pairings : List Pairing
  byes : List ByeAssignment
  boardNumber : Nat

def Boards.empty : Boards := ⟨[], [], 1⟩

/-- The player of a seat, when there is one and it plays this round. -/
def activeAtSeat (seats : List PlayerPairingState) (roundNumber seat : Int) :
    Option PlayerPairingState :=
  (playerAtSeat seats seat).filter fun player => isActive player roundNumber

/-- One iteration of the table loop: a board, a bye for the side left alone, or nothing. -/
def Boards.seat (seats : List PlayerPairingState) (roundNumber : Int) (isSecondLeg : Bool)
    (boards : Boards) (seatPair : SeatPair) : Boards :=
  let white := activeAtSeat seats roundNumber
    (if isSecondLeg then seatPair.blackSeat else seatPair.whiteSeat)
  let black := activeAtSeat seats roundNumber
    (if isSecondLeg then seatPair.whiteSeat else seatPair.blackSeat)
  match white, black with
  | some white, some black =>
      { boards with
        pairings := boards.pairings ++ [⟨boards.boardNumber, white.playerId, black.playerId⟩]
        boardNumber := boards.boardNumber + 1 }
  | some white, none => { boards with byes := boards.byes ++ [pairingAllocatedBye white] }
  | none, some black => { boards with byes := boards.byes ++ [pairingAllocatedBye black] }
  | none, none => boards

/-- An odd field is completed by a phantom player. -/
def tableSizeOf (n : Nat) : Int := if n % 2 = 0 then n else n + 1

def roundsPerLegOf (n : Nat) : Int := tableSizeOf n - 1

def scheduleLengthOf (legs : Legs) (n : Nat) : Int := legs.count * roundsPerLegOf n

def compute (legs : Legs) (request : PairingRequest) : Except PairingError PairingResult := do
  let seats ← seatingOrder request
  let n := seats.length
  if n < 2 then
    throw (.impossible request.roundId
      s!"round-robin uchun kamida 2 o'yinchi kerak, berilgani {n} ta")
  let tableSize := tableSizeOf n
  let roundsPerLeg := roundsPerLegOf n
  let scheduleLength := scheduleLengthOf legs n
  let roundNumber := request.roundNumber
  if roundNumber < 1 ∨ scheduleLength < roundNumber then
    throw (.impossible request.roundId
      (s!"roundNumber={roundNumber} jadvaldan tashqarida " ++
        s!"(1..{scheduleLength}, N={n}, legs={legs.count})"))
  let activeCount := (seats.filter fun player => isActive player roundNumber).length
  if activeCount < 2 then
    throw (.impossible request.roundId
      s!"kamida 2 aktiv o'yinchi kerak, hozir {activeCount} ta")
  -- The second leg replays the table with the colours reversed.
  let legRound := (roundNumber - 1).tmod roundsPerLeg + 1
  let isSecondLeg := decide (roundsPerLeg < roundNumber)
  let boards := (bergerRound tableSize legRound).foldl
    (Boards.seat seats roundNumber isSecondLeg) Boards.empty
  return ⟨boards.pairings, boards.byes, "1.0.0", none⟩

end Farzin.RoundRobin
