import Farzin.SwissTypes

set_option autoImplicit false

/- The check of a finished pairing against the absolute criteria
(`core/pairing/swiss/verify.ts`). -/
namespace Farzin.Swiss

structure ColoredPair where
  white : SwissPlayer
  black : SwissPlayer
  deriving DecidableEq, Repr

def ColoredPair.sides (pair : ColoredPair) : List SwissPlayer := [pair.white, pair.black]

section Verify

variable (roundId : RoundId)

/-- A player is seen; nobody may be seen twice. -/
def take (place : String) (seen : List PlayerId) (p : SwissPlayer) :
    Except PairingError (List PlayerId) :=
  if p.state.playerId ∈ seen then
    .error (.integrity roundId .coverage
      s!"o'yinchi {p.state.playerId} ikki marta ishtirok etdi ({place})")
  else return p.state.playerId :: seen

def verifyRepeat (pair : ColoredPair) : Except PairingError Unit :=
  if pair.black.state.playerId ∈ pair.white.state.opponentIds ∨
      pair.white.state.playerId ∈ pair.black.state.opponentIds then
    .error (.integrity roundId .c1Repeat
      (s!"C1 buzildi: {pair.white.state.playerId} va {pair.black.state.playerId} " ++
        "avval o'ynagan"))
  else return ()

/-- The colour bounds of one side. -/
def verifyColor (p : SwissPlayer) (got : Color) : Except PairingError Unit :=
  let flags := colorOutcomeFlags p got
  if flags.exceedsColorDiff then
    .error (.integrity roundId .c3Color
      s!"rang chegarasi buzildi: {p.state.playerId} uchun |CD| > 2 (topscorer emas)")
  else if flags.threeInARow then
    .error (.integrity roundId .c3Color
      (s!"rang chegarasi buzildi: {p.state.playerId} uch marta ketma-ket bir xil rang " ++
        "(topscorer emas)"))
  else return ()

/-- The colour bounds do not bind a pair with a topscorer. -/
def verifyColors (pair : ColoredPair) : Except PairingError Unit :=
  if pair.white.isTopscorer || pair.black.isTopscorer then return ()
  else do
    verifyColor roundId pair.white .white
    verifyColor roundId pair.black .black

def verifyPair (seen : List PlayerId) (pair : ColoredPair) :
    Except PairingError (List PlayerId) := do
  let seen ← take roundId "juftlik" seen pair.white
  let seen ← take roundId "juftlik" seen pair.black
  verifyRepeat roundId pair
  verifyColors roundId pair
  return seen

def verifyBye (seen : List PlayerId) : Option SwissPlayer → Except PairingError (List PlayerId)
  | none => return seen
  | some pab => do
      let seen ← take roundId "PAB" seen pab
      if pab.pabEligible then return seen
      else .error (.integrity roundId .c2Bye
        (s!"C2 buzildi: {pab.state.playerId} allaqachon bye/o'ynamasdan g'alaba olgan, " ++
          "PAB mumkin emas"))

def verifyCovered (seen : List PlayerId) (p : SwissPlayer) : Except PairingError Unit :=
  if p.state.playerId ∈ seen then return ()
  else .error (.integrity roundId .coverage
    s!"qamrov buzildi: {p.state.playerId} juftliksiz va bye'siz qoldi")

def verifyAbsoluteCriteria (activePlayers : List SwissPlayer) (pairs : List ColoredPair)
    (pab : Option SwissPlayer) : Except PairingError Unit := do
  let seen ← pairs.foldlM (verifyPair roundId) []
  let seen ← verifyBye roundId seen pab
  if seen.length ≠ activePlayers.length then
    .error (.integrity roundId .coverage
      (s!"qamrov buzildi: {activePlayers.length} aktiv o'yinchidan {seen.length} tasi " ++
        "qamrab olindi"))
  else activePlayers.forM (verifyCovered roundId seen)

end Verify

end Farzin.Swiss
