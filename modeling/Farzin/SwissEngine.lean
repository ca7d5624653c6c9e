import Farzin.SwissBrackets
import Farzin.SwissVerify

set_option autoImplicit false

/- The Swiss engine (`core/pairing/swiss-dutch.engine.ts`). -/
namespace Farzin.Swiss

/-- Article 1.2: points descending, then pairing numbers ascending. -/
def beforeOrEqual (a b : PlayerPairingState) : Prop :=
  scoreX2Of b.points < scoreX2Of a.points ∨
    scoreX2Of a.points = scoreX2Of b.points ∧ a.pairingNumber ≤ b.pairingNumber

instance : DecidableRel beforeOrEqual := fun a b => by
  unfold beforeOrEqual
  infer_instance

def sortPlayers (players : List PlayerPairingState) : List PlayerPairingState :=
  players.insertionSort beforeOrEqual

/-- The first pairing number that was seen before. -/
def repeatedNumber : List Int → List PlayerPairingState → Option Int
  | _, [] => none
  | seen, p :: rest =>
      if p.pairingNumber ∈ seen then some p.pairingNumber
      else repeatedNumber (p.pairingNumber :: seen) rest

/-- Article 5, inside one pair. -/
def colorPair (initialColor : Color) (pair : SwissPlayer × SwissPlayer) : ColoredPair :=
  let alloc := allocateColors (toAllocationSide pair.1) (toAllocationSide pair.2) initialColor
  if alloc.firstIsWhite then ⟨pair.1, pair.2⟩ else ⟨pair.2, pair.1⟩

def ColoredPair.topRank (pair : ColoredPair) : Nat :=
  min pair.white.rankIndex pair.black.rankIndex

/-- Boards in the order of the higher ranked player. -/
def sortBoards (pairs : List ColoredPair) : List ColoredPair :=
  pairs.insertionSort fun a b => a.topRank ≤ b.topRank

/-- A set of relaxed criteria, in the order in which they were added. -/
def relax (applies : Bool) (criterion : String) (relaxed : List String) : List String :=
  if applies ∧ criterion ∉ relaxed then relaxed ++ [criterion] else relaxed

def relaxColors (pens : ColorPenalties) (relaxed : List String) : List String :=
  relax (0 < pens.c13) "C13" <| relax (0 < pens.c12) "C12" <|
    relax (0 < pens.c11) "C11" <| relax (0 < pens.c10) "C10" relaxed

def relaxFloats (down up : SwissPlayer) (relaxed : List String) : List String :=
  relax (up.floatPrevPrev = .up) "C17" <| relax (down.floatPrevPrev = .down) "C16" <|
    relax (up.floatPrev = .up) "C15" <| relax (down.floatPrev = .down) "C14" relaxed

def relaxBye (pab : SwissPlayer) (relaxed : List String) : List String :=
  relax (pab.floatPrevPrev = .down) "C16" <| relax (pab.floatPrev = .down) "C14" relaxed

def relaxPair (initialColor : Color) (relaxed : List String) (pair : ColoredPair) : List String :=
  let relaxed := relaxColors (colorPenaltiesFor pair.white pair.black initialColor) relaxed
  if pair.white.scoreX2 = pair.black.scoreX2 then relaxed
  else if pair.black.scoreX2 < pair.white.scoreX2 then relaxFloats pair.white pair.black relaxed
  else relaxFloats pair.black pair.white relaxed

/-- Every criterion that can be relaxed, by its number. -/
def relaxable : List String := ["C10", "C11", "C12", "C13", "C14", "C15", "C16", "C17"]

def buildDiagnostics (players : List SwissPlayer) (pairs : List ColoredPair)
    (pab : Option SwissPlayer) (initialColor : Color) : PairingDiagnostics :=
  let relaxed := pairs.foldl (relaxPair initialColor) []
  let relaxed := match pab with
    | none => relaxed
    | some pab => relaxBye pab relaxed
  let floats := (pairs.filter fun pair => pair.white.scoreX2 ≠ pair.black.scoreX2).length
  { scoreGroupCount := (players.map SwissPlayer.scoreX2).dedup.length
    floatCount := 2 * floats + if pab.isSome then 1 else 0
    relaxedCriteria := relaxable.filter (· ∈ relaxed) }

def pairingAllocatedBye (pab : SwissPlayer) : ByeAssignment :=
  ⟨pab.state.playerId, .pairingAllocated, 1⟩

def schemeParams (players : List SwissPlayer) (roundNumber : Int) (initialColor : Color) :
    WeightSchemeParams :=
  let scores := players.map SwissPlayer.scoreX2
  { n := players.length
    minScoreX2 := scores.min?.getD 0
    maxScoreX2 := scores.max?.getD 0
    maxUnplayed := (roundNumber - 1).toNat
    initialColor }

/-- The pairing of the prepared active players. -/
def pairPlayers (players : List SwissPlayer) (roundId : RoundId) (roundNumber : Int)
    (initialColor : Color) : Except PairingError PairingResult := do
  let needPab := decide (players.length % 2 = 1)
  let scheme := weightScheme (schemeParams players roundNumber initialColor)
  let outcome ← pairAllBrackets players scheme needPab roundId
  let colored := sortBoards (outcome.pairs.map (colorPair initialColor))
  verifyAbsoluteCriteria roundId players colored outcome.pab
  let pairings := colored.mapIdx fun index (p : ColoredPair) =>
    ({ boardNumber := index + 1, whitePlayerId := p.white.state.playerId,
       blackPlayerId := p.black.state.playerId } : Pairing)
  return { pairings
           byes := (outcome.pab.map pairingAllocatedBye).toList
           engineVersion := "1.0.0"
           diagnostics := some (buildDiagnostics players colored outcome.pab initialColor) }

def compute (request : PairingRequest) : Except PairingError PairingResult :=
  let roundId := request.roundId
  let roundNumber := request.roundNumber
  let totalRounds := request.totalRounds
  if roundNumber < 1 then
    .error (.impossible roundId s!"roundNumber={roundNumber} yaroqsiz (>= 1 butun son kutiladi)")
  else if totalRounds < roundNumber then
    .error (.impossible roundId
      (s!"totalRounds={totalRounds} yaroqsiz (roundNumber={roundNumber} dan " ++
        "kichik bo'lmasligi kerak — topscorer aniqlash, Article 1.8, shunga bog'liq)"))
  else
    let sorted := sortPlayers request.players
    match repeatedNumber [] sorted with
    | some number => .error (.impossible roundId
        s!"pairingNumber={number} takrorlangan — tartib aniqlanmaydi")
    | none =>
        let activeStates := sorted.filter fun p => isActive p roundNumber
        if activeStates.length = 0 then
          .error (.impossible roundId "birorta ham aktiv o'yinchi yo'q")
        else
          pairPlayers (prepareSwissPlayers activeStates roundNumber totalRounds) roundId
            roundNumber (request.initialColor.getD .white)

end Farzin.Swiss
