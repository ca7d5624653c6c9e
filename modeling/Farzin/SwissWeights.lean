import Farzin.SwissTypes

set_option autoImplicit false

/- The edge weights of a bracket (`core/pairing/swiss/bracket-weights.ts`). -/
namespace Farzin.Swiss

structure BracketSlot where
  player : SwissPlayer
  /-- In-bracket sequence number, from zero. -/
  bsn : Nat
  carried : Bool
  deriving DecidableEq, Repr

structure WeightSchemeParams where
  n : Nat
  minScoreX2 : Int
  maxScoreX2 : Int
  maxUnplayed : Nat
  initialColor : Color
  deriving DecidableEq, Repr

structure ColorPenalties where
  c10 : Nat
  c11 : Nat
  c12 : Nat
  c13 : Nat
  firstIsWhite : Bool
  deriving DecidableEq, Repr

/-- What one side adds to the colour penalties when it gets a colour. -/
def ColorPenalties.charge (pens : ColorPenalties) (p : SwissPlayer) (got : Color) :
    ColorPenalties :=
  let flags := colorOutcomeFlags p got
  let denied := p.pref.color.isSome && decide (p.pref.color ≠ some got)
  { pens with
    c10 := pens.c10 + if flags.exceedsColorDiff then 1 else 0
    c11 := pens.c11 + if flags.threeInARow then 1 else 0
    c12 := pens.c12 + if denied then 1 else 0
    c13 := pens.c13 + if denied && decide (p.pref.strength = .strong) then 1 else 0 }

def colorPenaltiesFor (a b : SwissPlayer) (initialColor : Color) : ColorPenalties :=
  let alloc := allocateColors (toAllocationSide a) (toAllocationSide b) initialColor
  let colorA := if alloc.firstIsWhite then Color.white else Color.black
  let colorB := if alloc.firstIsWhite then Color.black else Color.white
  ((⟨0, 0, 0, 0, alloc.firstIsWhite⟩ : ColorPenalties).charge a colorA).charge b colorB

def bpow (base : Int) (exp : Int) : Int :=
  (List.range exp.toNat).foldl (fun result _ => result * base) 1

/-- The units of the levels, under the source's names. -/
structure LevelBases where
  baseTB : Int
  baseC21 : Int
  baseC20 : Int
  baseC19 : Int
  baseC18 : Int
  baseC17 : Int
  baseC16 : Int
  baseC15 : Int
  baseC14 : Int
  baseC13 : Int
  baseC12 : Int
  baseC11 : Int
  baseC10 : Int
  baseC9 : Int
  baseSD : Int
  baseC7 : Int
  baseC5 : Int
  basePair : Int
  deriving DecidableEq, Repr

structure WeightScheme where
  params : WeightSchemeParams
  betaTB : Int
  vPow : List Int
  tbPow : List Int
  bases : LevelBases
  deriving DecidableEq, Repr

def levelBases (params : WeightSchemeParams) (maxTbTotal maxExpTotal maxCount span : Int) :
    LevelBases :=
  let baseTB := 1
  let baseC21 := baseTB * (maxTbTotal + 1)
  let baseC20 := baseC21 * (maxExpTotal + 1)
  let baseC19 := baseC20 * (maxExpTotal + 1)
  let baseC18 := baseC19 * (maxExpTotal + 1)
  let baseC17 := baseC18 * (maxExpTotal + 1)
  let baseC16 := baseC17 * (maxCount + 1)
  let baseC15 := baseC16 * (maxCount + 1)
  let baseC14 := baseC15 * (maxCount + 1)
  let baseC13 := baseC14 * (maxCount + 1)
  let baseC12 := baseC13 * (maxCount + 1)
  let baseC11 := baseC12 * (maxCount + 1)
  let baseC10 := baseC11 * (maxCount + 1)
  let baseC9 := baseC10 * (maxCount + 1)
  let baseSD := baseC9 * (params.maxUnplayed + 1)
  let baseC7 := baseSD * (maxExpTotal + 1)
  let baseC5 := baseC7 * (maxExpTotal + 1)
  let basePair := baseC5 * (span + 1) * 2 + 1
  { baseTB, baseC21, baseC20, baseC19, baseC18, baseC17, baseC16, baseC15, baseC14, baseC13,
    baseC12, baseC11, baseC10, baseC9, baseSD, baseC7, baseC5, basePair }

/-- The constructor of `WeightScheme`. -/
def weightScheme (params : WeightSchemeParams) : WeightScheme :=
  let n := params.n
  let span := params.maxScoreX2 - params.minScoreX2
  let betaTB : Int := 2 * n + 3
  let vBase : Int := n + 1
  { params
    betaTB
    vPow := (List.range (span + 3).toNat).map fun (e : Nat) => bpow vBase e
    tbPow := (List.range (n + 1)).map fun (e : Nat) => bpow betaTB e
    bases := levelBases params (bpow betaTB (n + 1)) (bpow vBase (span + 2)) n span }

/-- An array read at an index that may lie outside. -/
def readAt (values : List Int) (index : Int) : Option Int :=
  if 0 ≤ index then values[index.toNat]? else none

namespace WeightScheme

variable (scheme : WeightScheme)

def vp (exp : Int) (what : String) : Except PairingError Int :=
  match readAt scheme.vPow exp with
  | some v => .ok v
  | none => .error (.internal s!"WeightScheme: (n+1)^{exp} tayyorlanmagan ({what})")

def tb (exp : Int) : Except PairingError Int :=
  match readAt scheme.tbPow exp with
  | some v => .ok v
  | none => .error (.internal s!"WeightScheme: betaTB^{exp} tayyorlanmagan")

/-- C14 and C16: what one slot adds when it is paired. -/
def residentBonus (slot : BracketSlot) : Int :=
  (if slot.carried = false ∧ slot.player.floatPrev = .down then scheme.bases.baseC14 else 0) +
    if slot.carried = false ∧ slot.player.floatPrevPrev = .down then scheme.bases.baseC16 else 0

/-- A power that is looked up only where its penalty applies. -/
def vpIf (applies : Prop) [Decidable applies] (exp : Int) (what : String) :
    Except PairingError Int :=
  if applies then scheme.vp exp what else pure 0

/-- C15 and C17 to C21, for a pair with different scores. -/
def floatPenalty (down up : SwissPlayer) (dX2 : Int) : Except PairingError Int := do
  let bases := scheme.bases
  let c19 ← scheme.vpIf (up.floatPrev = .up) dX2 "C19"
  let c21 ← scheme.vpIf (up.floatPrevPrev = .up) dX2 "C21"
  let c18 ← scheme.vpIf (down.floatPrev = .down) dX2 "C18"
  let c20 ← scheme.vpIf (down.floatPrevPrev = .down) dX2 "C20"
  return (if up.floatPrev = .up then bases.baseC15 else 0) + bases.baseC19 * c19 +
    (if up.floatPrevPrev = .up then bases.baseC17 else 0) + bases.baseC21 * c21 +
    bases.baseC18 * c18 + bases.baseC20 * c20

/-- The side with the higher score floats down, the other one up. -/
def mixedPenalty (pu pv : SwissPlayer) (dX2 : Int) : Except PairingError Int :=
  if 0 < dX2 then
    if pv.scoreX2 < pu.scoreX2 then scheme.floatPenalty pu pv dX2
    else scheme.floatPenalty pv pu dX2
  else pure 0

/-- The TB level: the canonical order of candidates. -/
def orderBonus (u v : BracketSlot) (split : Int) : Except PairingError Int := do
  let n : Int := scheme.params.n
  let lo := if u.bsn < v.bsn then u else v
  let hi := if u.bsn < v.bsn then v else u
  let matchedBonus := 2 * n + 2
  let loPower ← scheme.tb (n - 1 - lo.bsn)
  let hiPower ← scheme.tb (n - 1 - hi.bsn)
  let rank : Int := if split ≤ hi.bsn then hi.bsn else 2 * n - hi.bsn
  return loPower * matchedBonus + hiPower * matchedBonus - loPower * rank

/-- The weight of a real pair; `split` is the border between S1 and S2. -/
def realEdgeWeight (u v : BracketSlot) (split : Int) : Except PairingError Int := do
  let bases := scheme.bases
  let pu := u.player
  let pv := v.player
  let powerU ← scheme.vp (pu.scoreX2 - scheme.params.minScoreX2) "C7"
  let powerV ← scheme.vp (pv.scoreX2 - scheme.params.minScoreX2) "C7"
  let dX2 : Int := (pu.scoreX2 - pv.scoreX2).natAbs
  let distance ← scheme.vpIf (0 < dX2) dX2 "SD"
  let pens := colorPenaltiesFor pu pv scheme.params.initialColor
  let colors := bases.baseC10 * pens.c10 + bases.baseC11 * pens.c11 + bases.baseC12 * pens.c12 +
    bases.baseC13 * pens.c13
  let residents := scheme.residentBonus u + scheme.residentBonus v
  let floats ← scheme.mixedPenalty pu pv dX2
  let order ← scheme.orderBonus u v split
  return bases.basePair + bases.baseC7 * (powerU + powerV) - bases.baseSD * distance - colors +
    residents - floats + order

/-- The weight of giving a player the bye of an odd field. -/
def dummyEdgeWeight (slot : BracketSlot) : Int :=
  scheme.bases.basePair +
    scheme.bases.baseC5 * (scheme.params.maxScoreX2 - slot.player.scoreX2) +
    scheme.bases.baseC9 * max 0 ((scheme.params.maxUnplayed : Int) - slot.player.unplayedCount)

end WeightScheme

end Farzin.Swiss
