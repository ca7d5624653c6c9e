import Mathlib.Data.Rat.Floor
import Mathlib.Data.List.Sort

set_option autoImplicit false

/- The values the pairing engines read and return (`core/pairing/pairing.types.ts`).
Points are rationals, since the source keeps them as exact half steps. -/
namespace Farzin

/-- An opaque registration id. The engines only ever compare two of them. -/
abbrev PlayerId := Nat

abbrev RoundId := String

inductive Color where
  | white
  | black
  deriving DecidableEq, Repr

/-- Strength of a colour preference (Article 1.7). -/
inductive ColorPreferenceStrength where
  | absolute
  | strong
  | mild
  | none
  deriving DecidableEq, Repr

structure ColorPreference where
  color : Option Color
  strength : ColorPreferenceStrength
  deriving DecidableEq, Repr

inductive FloatDirection where
  | none
  | down
  | up
  deriving DecidableEq, Repr

inductive ByeType where
  | pairingAllocated
  | requested
  | zeroPoint
  deriving DecidableEq, Repr

/-- Everything an engine knows about one player before a round. -/
structure PlayerPairingState where
  playerId : PlayerId
  pairingNumber : Int
  points : Rat
  /-- The source keeps a set; only membership is read. -/
  opponentIds : List PlayerId
  colorHistory : List Color
  floatHistory : List FloatDirection
  hasReceivedBye : Bool
  isWithdrawn : Bool
  joinedAtRound : Int
  deriving DecidableEq, Repr

structure PairingRequest where
  roundId : RoundId
  roundNumber : Int
  totalRounds : Int
  players : List PlayerPairingState
  initialColor : Option Color
  deriving DecidableEq, Repr

structure Pairing where
  boardNumber : Nat
  whitePlayerId : PlayerId
  blackPlayerId : PlayerId
  deriving DecidableEq, Repr

structure ByeAssignment where
  playerId : PlayerId
  type : ByeType
  points : Rat
  deriving DecidableEq, Repr

/-- What the engine tells the arbiter about a result. The source also stores the
measured duration, which no decision reads. -/
structure PairingDiagnostics where
  scoreGroupCount : Nat
  floatCount : Nat
  relaxedCriteria : List String
  deriving DecidableEq, Repr

structure PairingResult where
  pairings : List Pairing
  byes : List ByeAssignment
  engineVersion : String
  diagnostics : Option PairingDiagnostics
  deriving DecidableEq, Repr

/-- The closed set of absolute criteria a finished pairing is checked against. -/
inductive PairingCriterion where
  | c1Repeat
  | c2Bye
  | c3Color
  | coverage
  deriving DecidableEq, Repr

/-- Every way an engine run can end without a result. `internal` is a plain
`Error` of the source: a defect of the engine itself. -/
inductive PairingError where
  | impossible (roundId : RoundId) (reason : String)
  | integrity (roundId : RoundId) (criterion : PairingCriterion) (reason : String)
  | internal (message : String)
  deriving DecidableEq, Repr

/-- Neither engine pairs a player who left or has not joined yet. -/
def isActive (player : PlayerPairingState) (roundNumber : Int) : Bool :=
  !player.isWithdrawn && decide (player.joinedAtRound ≤ roundNumber)

/-- The players named by a result: both sides of every board, then every bye. -/
def PairingResult.playerIds (result : PairingResult) : List PlayerId :=
  result.pairings.flatMap (fun p => [p.whitePlayerId, p.blackPlayerId]) ++
    result.byes.map ByeAssignment.playerId

end Farzin
