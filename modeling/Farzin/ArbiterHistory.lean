import Farzin.PairingTypes

set_option autoImplicit false

/- From the results of a section to the states its next round is paired from
(`modules/arbiter/result-mapping.ts`, `modules/arbiter/pairing-state.builder.ts`). Registrations
play the part of players. -/
namespace Farzin.Arbiter

inductive PairingResultValue where
  | whiteWin
  | blackWin
  | draw
  | whiteWinForfeit
  | blackWinForfeit
  | doubleForfeit
  | byeFull
  | byeHalf
  | byeZero
  | unplayed
  deriving DecidableEq, Repr

inductive Side where
  | white
  | black
  deriving DecidableEq, Repr

structure SideOutcome where
  score : Rat
  playedOverBoard : Bool
  deriving DecidableEq, Repr

/-- One pairing of a section; without Black it is a bye. -/
structure PairingHistoryEntry where
  roundNumber : Nat
  whiteRegistrationId : PlayerId
  blackRegistrationId : Option PlayerId
  result : PairingResultValue
  deriving DecidableEq, Repr

/-- The source also keeps a rating here, which no engine reads. -/
structure ParticipantSeed where
  registrationId : PlayerId
  pairingNumber : Int
  isWithdrawn : Bool
  joinedAtRound : Option Int
  deriving DecidableEq, Repr

/-- What a result is for one side; `none` where it does not count. -/
def outcomeFor (result : PairingResultValue) (side : Side) : Option SideOutcome :=
  match result with
  | .whiteWin => some ⟨if side = .white then 1 else 0, true⟩
  | .blackWin => some ⟨if side = .white then 0 else 1, true⟩
  | .draw => some ⟨1 / 2, true⟩
  | .whiteWinForfeit => some ⟨if side = .white then 1 else 0, false⟩
  | .blackWinForfeit => some ⟨if side = .white then 0 else 1, false⟩
  | .doubleForfeit => some ⟨0, false⟩
  | .byeFull => if side = .white then some ⟨1, false⟩ else none
  | .byeHalf => if side = .white then some ⟨1 / 2, false⟩ else none
  | .byeZero => if side = .white then some ⟨0, false⟩ else none
  | .unplayed => none

def sideOf (entry : PairingHistoryEntry) (registrationId : PlayerId) : Option Side :=
  if entry.whiteRegistrationId = registrationId then some .white
  else if entry.blackRegistrationId = some registrationId then some .black
  else none

/-- The entries in the order of their rounds. -/
def sortEntries (history : List PairingHistoryEntry) : List PairingHistoryEntry :=
  history.insertionSort fun a b => a.roundNumber ≤ b.roundNumber

section Floats

/-- The floats that one entry sets, from the points before its round. -/
def floatsOf (pointsOf : PlayerId → Rat) (entry : PairingHistoryEntry) :
    List (PlayerId × FloatDirection) :=
  let white := entry.whiteRegistrationId
  match entry.blackRegistrationId with
  | none => if entry.result = .byeFull ∨ entry.result = .byeHalf then [(white, .down)] else []
  | some black =>
      match entry.result with
      | .whiteWin | .blackWin | .draw =>
          if pointsOf black < pointsOf white then [(white, .down), (black, .up)]
          else if pointsOf white < pointsOf black then [(black, .down), (white, .up)]
          else []
      | .whiteWinForfeit => [(white, .down)]
      | .blackWinForfeit => [(black, .down)]
      | _ => []

def addPoints (pointsOf : PlayerId → Rat) (id : PlayerId) (score : Rat) : PlayerId → Rat :=
  fun other => if other = id then pointsOf id + score else pointsOf other

/-- The points of one entry, at the end of its round. -/
def addEntry (pointsOf : PlayerId → Rat) (entry : PairingHistoryEntry) : PlayerId → Rat :=
  let pointsOf := match outcomeFor entry.result .white with
    | some outcome => addPoints pointsOf entry.whiteRegistrationId outcome.score
    | none => pointsOf
  match entry.blackRegistrationId, outcomeFor entry.result .black with
  | some black, some outcome => addPoints pointsOf black outcome.score
  | _, _ => pointsOf

def entriesOf (sorted : List PairingHistoryEntry) (round : Nat) : List PairingHistoryEntry :=
  sorted.filter fun entry => entry.roundNumber = round

/-- The points before a round; the first round is number 1. -/
def runningPoints (sorted : List PairingHistoryEntry) : Nat → PlayerId → Rat
  | 0 => fun _ => 0
  | 1 => fun _ => 0
  | round + 2 => (entriesOf sorted (round + 1)).foldl addEntry (runningPoints sorted (round + 1))

/-- The float of a player in one round; the last entry that sets it counts. -/
def floatIn (sorted : List PairingHistoryEntry) (round : Nat) (id : PlayerId) : FloatDirection :=
  ((entriesOf sorted round).flatMap (floatsOf (runningPoints sorted round))).foldl
    (fun found float => if float.1 = id then float.2 else found) .none

def maxRound (sorted : List PairingHistoryEntry) : Nat :=
  sorted.foldl (fun acc entry => max acc entry.roundNumber) 0

/-- One float for every round so far. -/
def floatHistory (sorted : List PairingHistoryEntry) (id : PlayerId) : List FloatDirection :=
  (List.range' 1 (maxRound sorted)).map fun round => floatIn sorted round id

end Floats

/-- What the second pass collects about one participant. -/
structure Record where
  points : Rat
  hasReceivedBye : Bool
  opponentIds : List PlayerId
  colorHistory : List Color
  deriving DecidableEq, Repr

/-- The opponent and the blocker of a bye, from one entry on one side. -/
def Record.meet (record : Record) (entry : PairingHistoryEntry) (side : Side) : Record :=
  match entry.blackRegistrationId with
  | none =>
      if entry.result = .byeFull then { record with hasReceivedBye := true } else record
  | some black =>
      let opponentId := if side = .white then black else entry.whiteRegistrationId
      let record := { record with
        opponentIds := if opponentId ∈ record.opponentIds then record.opponentIds
          else record.opponentIds ++ [opponentId] }
      if side = .white ∧ entry.result = .whiteWinForfeit ∨
          side = .black ∧ entry.result = .blackWinForfeit then
        { record with hasReceivedBye := true }
      else record

def Side.color : Side → Color
  | .white => .white
  | .black => .black

/-- The score and the colour of one entry. -/
def Record.score (record : Record) (side : Side) (outcome : SideOutcome) : Record :=
  { record with
    points := record.points + outcome.score
    colorHistory := if outcome.playedOverBoard then record.colorHistory ++ [side.color]
      else record.colorHistory }

def Record.add (id : PlayerId) (record : Record) (entry : PairingHistoryEntry) : Record :=
  match sideOf entry id with
  | none => record
  | some side =>
      let record := record.meet entry side
      match outcomeFor entry.result side with
      | none => record
      | some outcome => record.score side outcome

def recordOf (sorted : List PairingHistoryEntry) (id : PlayerId) : Record :=
  sorted.foldl (Record.add id) ⟨0, false, [], []⟩

def buildPairingState (sorted : List PairingHistoryEntry) (participant : ParticipantSeed) :
    PlayerPairingState :=
  let record := recordOf sorted participant.registrationId
  { playerId := participant.registrationId
    pairingNumber := participant.pairingNumber
    points := record.points
    opponentIds := record.opponentIds
    colorHistory := record.colorHistory
    floatHistory := floatHistory sorted participant.registrationId
    hasReceivedBye := record.hasReceivedBye
    isWithdrawn := participant.isWithdrawn
    joinedAtRound := participant.joinedAtRound.getD 1 }

def buildPairingStates (participants : List ParticipantSeed)
    (history : List PairingHistoryEntry) : List PlayerPairingState :=
  participants.map (buildPairingState (sortEntries history))

end Farzin.Arbiter
