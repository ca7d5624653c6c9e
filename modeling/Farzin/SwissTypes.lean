import Farzin.SwissColors

set_option autoImplicit false

/- Players as the Swiss engine prepares them (`core/pairing/swiss/swiss-types.ts`). -/
namespace Farzin.Swiss

structure SwissPlayer where
  state : PlayerPairingState
  /-- Place in the order of Article 1.2, from zero. -/
  rankIndex : Nat
  scoreX2 : Int
  colorDiff : Int
  pref : ColorPreference
  isTopscorer : Bool
  unplayedCount : Nat
  floatPrev : FloatDirection
  floatPrevPrev : FloatDirection
  pabEligible : Bool
  deriving DecidableEq, Repr

/-- `Math.round` of doubled points: halves round up. -/
def scoreX2Of (points : Rat) : Int := (points * 2 + 1 / 2).floor

/-- One player of the prepared list, at its place in the order. -/
def prepareSwissPlayer (roundNumber totalRounds : Int) (rankIndex : Nat)
    (state : PlayerPairingState) : SwissPlayer where
  state := state
  rankIndex := rankIndex
  scoreX2 := scoreX2Of state.points
  colorDiff := colorDifference state.colorHistory
  pref := colorPreferenceOf state.colorHistory
  isTopscorer := decide (roundNumber = totalRounds) &&
    decide (roundNumber - 1 < scoreX2Of state.points)
  unplayedCount := (roundNumber - 1 - state.colorHistory.length).toNat
  floatPrev := state.floatHistory.getLast?.getD .none
  floatPrevPrev := state.floatHistory.dropLast.getLast?.getD .none
  pabEligible := !state.hasReceivedBye

def prepareSwissPlayers (sortedActive : List PlayerPairingState)
    (roundNumber totalRounds : Int) : List SwissPlayer :=
  sortedActive.mapIdx fun rankIndex state =>
    prepareSwissPlayer roundNumber totalRounds rankIndex state

/-- C1 and C3. The first test only looks at the first player's opponents. -/
def canMeet (a b : SwissPlayer) : Bool :=
  if b.state.playerId ∈ a.state.opponentIds then false
  else if a.isTopscorer = false ∧ b.isTopscorer = false ∧ a.pref.strength = .absolute ∧
      b.pref.strength = .absolute ∧ a.pref.color = b.pref.color then false
  else true

def toAllocationSide (p : SwissPlayer) : ColorAllocationSide where
  pref := p.pref
  colorDiff := p.colorDiff
  history := p.state.colorHistory
  rankIndex := p.rankIndex
  pairingNumber := p.state.pairingNumber

structure ColorOutcomeFlags where
  exceedsColorDiff : Bool
  threeInARow : Bool
  deriving DecidableEq, Repr

def colorOutcomeFlags (p : SwissPlayer) (received : Color) : ColorOutcomeFlags :=
  let newCd := p.colorDiff + if received = .white then 1 else -1
  let h := p.state.colorHistory
  { exceedsColorDiff := decide (2 < newCd.natAbs)
    threeInARow := decide (h.getLast? = some received ∧ h.dropLast.getLast? = some received) }

end Farzin.Swiss
