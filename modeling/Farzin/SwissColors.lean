import Farzin.PairingTypes

set_option autoImplicit false

/- Colour rules (`core/pairing/swiss/colors.ts`). Histories hold the colours of games
played over the board only, oldest first. -/
namespace Farzin.Swiss

def oppositeColor : Color → Color
  | .white => .black
  | .black => .white

/-- Article 1.6: White games minus Black games. -/
def colorDifference (history : List Color) : Int :=
  (history.map fun c => if c = .white then (1 : Int) else -1).sum

/-- Article 1.7. -/
def colorPreferenceOf (history : List Color) : ColorPreference :=
  match history.getLast? with
  | none => ⟨none, .none⟩
  | some last =>
      let cd := colorDifference history
      if 1 < cd then ⟨some .black, .absolute⟩
      else if cd < -1 then ⟨some .white, .absolute⟩
      else if history.dropLast.getLast? = some last then ⟨some (oppositeColor last), .absolute⟩
      else if cd = 1 then ⟨some .black, .strong⟩
      else if cd = -1 then ⟨some .white, .strong⟩
      else ⟨some (oppositeColor last), .mild⟩

/-- One side as the colour allocation sees it. -/
structure ColorAllocationSide where
  pref : ColorPreference
  colorDiff : Int
  history : List Color
  rankIndex : Nat
  pairingNumber : Int
  deriving DecidableEq, Repr

inductive AllocationRule where
  | r521
  | r522
  | r523
  | r524
  | r525
  deriving DecidableEq, Repr

structure ColorAllocation where
  firstIsWhite : Bool
  rule : AllocationRule
  deriving DecidableEq, Repr

def strengthOrder : ColorPreferenceStrength → Nat
  | .absolute => 3
  | .strong => 2
  | .mild => 1
  | .none => 0

/-- Rule 5.2.3: the first side's colour in the latest games, counted from the end, in
which the two sides had different colours. -/
def lastDifference (a b : List Color) : Option Color :=
  ((a.reverse.zip b.reverse).find? fun games => games.1 ≠ games.2).map Prod.fst

/-- Rules 5.2.4 and 5.2.5, from the higher ranked side. -/
def allocateByRank (a b : ColorAllocationSide) (initialColor : Color) : ColorAllocation :=
  let firstHigher := decide (a.rankIndex < b.rankIndex)
  let higher := if firstHigher then a else b
  match higher.pref.color with
  | some color =>
      let higherWantsWhite := decide (color = .white)
      ⟨if firstHigher then higherWantsWhite else !higherWantsWhite, .r524⟩
  | none =>
      let higherGets :=
        if higher.pairingNumber.tmod 2 = 1 then initialColor else oppositeColor initialColor
      let higherGetsWhite := decide (higherGets = .white)
      ⟨if firstHigher then higherGetsWhite else !higherGetsWhite, .r525⟩

def allocateByHistory (a b : ColorAllocationSide) (initialColor : Color) : ColorAllocation :=
  match lastDifference a.history b.history with
  | some color => ⟨decide (oppositeColor color = .white), .r523⟩
  | none => allocateByRank a b initialColor

/-- Article 5.2, for two sides that do not want different colours. -/
def allocateSamePreference (a b : ColorAllocationSide) (color : Color) (initialColor : Color) :
    ColorAllocation :=
  let wantsWhite := decide (color = .white)
  if strengthOrder a.pref.strength ≠ strengthOrder b.pref.strength then
    let first := decide (strengthOrder b.pref.strength < strengthOrder a.pref.strength)
    ⟨if first then wantsWhite else !wantsWhite, .r522⟩
  else if a.pref.strength = .absolute ∧ a.colorDiff.natAbs ≠ b.colorDiff.natAbs then
    let first := decide (b.colorDiff.natAbs < a.colorDiff.natAbs)
    ⟨if first then wantsWhite else !wantsWhite, .r522⟩
  else allocateByHistory a b initialColor

/-- Article 5.2: who has White, by the first rule that decides. -/
def allocateColors (a b : ColorAllocationSide) (initialColor : Color) : ColorAllocation :=
  match a.pref.color, b.pref.color with
  | some prefA, some prefB =>
      if prefA ≠ prefB then ⟨decide (prefA = .white), .r521⟩
      else allocateSamePreference a b prefA initialColor
  | some prefA, none => ⟨decide (prefA = .white), .r521⟩
  | none, some prefB => ⟨decide (prefB = .black), .r521⟩
  | none, none => allocateByHistory a b initialColor

end Farzin.Swiss
