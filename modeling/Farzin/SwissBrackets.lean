import Farzin.Blossom
import Farzin.SwissWeights

set_option autoImplicit false

/- The sequence of score brackets (`core/pairing/swiss/score-brackets.ts`). -/
namespace Farzin.Swiss

open Blossom (WeightedEdge maximumWeightMatching)

structure BracketsOutcome where
  /-- Each pair starts with its higher ranked player. -/
  pairs : List (SwissPlayer × SwissPlayer)
  pab : Option SwissPlayer
  mergeCount : Nat
  deriving DecidableEq, Repr

structure BracketResult where
  pairs : List (SwissPlayer × SwissPlayer)
  floaters : List SwissPlayer
  pab : Option SwissPlayer
  deriving DecidableEq, Repr

/-- Score groups in descending order; the players are sorted already. -/
def groupByScore (players : List SwissPlayer) : List (List SwissPlayer) :=
  players.splitBy fun a b => decide (a.scoreX2 = b.scoreX2)

def mergeLastTwo (groups : List (List SwissPlayer)) :
    Except PairingError (List (List SwissPlayer)) :=
  match groups.reverse with
  | last :: beforeLast :: head => return head.reverse ++ [beforeLast ++ last]
  | _ => .error (.internal "score-brackets ichki xato: birlashtirishga guruh yetmadi")

def bracketSlots (slots0 : List SwissPlayer) (carriedCount : Nat) : List BracketSlot :=
  slots0.mapIdx fun bsn player => { player, bsn, carried := decide (bsn < carriedCount) }

/-- Article 3.2: the border between S1 and S2. -/
def bracketSplit (carriedCount size : Nat) : Nat :=
  if 0 < carriedCount then min carriedCount (size / 2) else size / 2

def allSameScore (players : List SwissPlayer) : Bool :=
  match players with
  | [] => true
  | first :: _ => players.all fun p => decide (p.scoreX2 = first.scoreX2)

/-- May this pair stand in a straight candidate? -/
def straightPair (scheme : WeightScheme) (hi lo : SwissPlayer) : Bool :=
  let pens := colorPenaltiesFor hi lo scheme.params.initialColor
  canMeet hi lo && decide (pens.c10 + pens.c11 + pens.c12 + pens.c13 = 0)

/-- The candidate that pairs S1 with S2 in order, if it breaks no criterion. -/
def tryStraightCandidate (players : List SwissPlayer) (scheme : WeightScheme) :
    Option (List (SwissPlayer × SwissPlayer)) :=
  let half := players.length / 2
  let pairs := (players.take half).zip (players.drop half)
  if pairs.all fun pair => straightPair scheme pair.1 pair.2 then some pairs else none

/-- The edges from one slot to the slots after it. -/
def realEdges (scheme : WeightScheme) (split : Nat) (si : BracketSlot) (later : List BracketSlot) :
    Except PairingError (List WeightedEdge) :=
  (later.filter fun sj => canMeet si.player sj.player).mapM fun sj => do
    let weight ← scheme.realEdgeWeight si sj split
    return ⟨si.bsn, sj.bsn, weight⟩

/-- The edge to the dummy vertex, which stands for the bye. -/
def dummyEdges (scheme : WeightScheme) (size : Nat) (withDummy : Bool) (si : BracketSlot) :
    List WeightedEdge :=
  if withDummy && si.player.pabEligible then [⟨si.bsn, size, scheme.dummyEdgeWeight si⟩] else []

def bracketEdges (scheme : WeightScheme) (split size : Nat) (withDummy : Bool) :
    List BracketSlot → Except PairingError (List WeightedEdge)
  | [] => return []
  | si :: later => do
      let real ← realEdges scheme split si later
      let edges ← bracketEdges scheme split size withDummy later
      return real ++ dummyEdges scheme size withDummy si ++ edges

/-- What the matching says; `none` when somebody is left over in the last bracket. -/
def readMatching (slots : List BracketSlot) (mate : List (Option Nat)) (isLast withDummy : Bool) :
    List BracketSlot → BracketResult → Except PairingError (Option BracketResult)
  | [], found => return some found
  | slot :: rest, found =>
      match mate[slot.bsn]? with
      | none => .error (.internal "score-brackets ichki xato: matching natijasi to'liq emas")
      | some none =>
          if isLast then return none
          else readMatching slots mate isLast withDummy rest
            { found with floaters := found.floaters ++ [slot.player] }
      | some (some m) =>
          if withDummy ∧ m = slots.length then
            readMatching slots mate isLast withDummy rest { found with pab := some slot.player }
          else if slot.bsn < m then
            match slots[m]? with
            | none => .error (.internal "score-brackets ichki xato: juftlik sheriги topilmadi")
            | some other => readMatching slots mate isLast withDummy rest
                { found with pairs := found.pairs ++ [(slot.player, other.player)] }
          else readMatching slots mate isLast withDummy rest found

/-- A bracket by the maximum weight matching of its graph. -/
def matchBracket (slots0 : List SwissPlayer) (carriedCount : Nat) (scheme : WeightScheme)
    (isLast withDummy : Bool) : Except PairingError (Option BracketResult) := do
  let size := slots0.length
  let slots := bracketSlots slots0 carriedCount
  let vertexCount := size + if withDummy then 1 else 0
  let edges ← bracketEdges scheme (bracketSplit carriedCount size) size withDummy slots
  let mate ← maximumWeightMatching vertexCount edges
  let result ← readMatching slots mate isLast withDummy slots ⟨[], [], none⟩
  match result with
  | none => return none
  | some found => return if withDummy ∧ found.pab = none then none else some found

/-- One bracket; `none` only in the last one, when it cannot be completed. -/
def pairBracket (slots0 : List SwissPlayer) (carriedCount : Nat) (scheme : WeightScheme)
    (isLast withDummy : Bool) : Except PairingError (Option BracketResult) :=
  if slots0.length = 0 then return if withDummy then none else some ⟨[], [], none⟩
  else
    let straight :=
      if !withDummy ∧ carriedCount = 0 ∧ slots0.length % 2 = 0 ∧ allSameScore slots0 then
        tryStraightCandidate slots0 scheme
      else none
    match straight with
    | some pairs => return some ⟨pairs, [], none⟩
    | none => matchBracket slots0 carriedCount scheme isLast withDummy

/-- The brackets from the top to the bottom; floaters are carried to the next one. -/
def attemptFrom (scheme : WeightScheme) (needPab : Bool) :
    List (List SwissPlayer) → List SwissPlayer → BracketResult →
      Except PairingError (Option BracketResult)
  | [], _, found => return some found
  | residents :: rest, carried, found => do
      let isLast := rest.isEmpty
      let result ← pairBracket (carried ++ residents) carried.length scheme isLast
        (isLast && needPab)
      match result with
      | none => return none
      | some result =>
          attemptFrom scheme needPab rest result.floaters
            { found with pairs := found.pairs ++ result.pairs, pab := result.pab.or found.pab }

def attempt (groups : List (List SwissPlayer)) (scheme : WeightScheme) (needPab : Bool) :
    Except PairingError (Option BracketResult) :=
  attemptFrom scheme needPab groups [] ⟨[], [], none⟩

def impossibleReason (count : Nat) (needPab : Bool) : String :=
  let pab := if needPab then " (yoki C2 bo'yicha PAB olishga haqli o'yinchi qolmadi)" else ""
  s!"{count} aktiv o'yinchini C1 (takror juftlik) va C3 " ++
    "(bir xil absolyut rang afzalligi) cheklovlarini buzmasdan to'liq " ++
    s!"juftlab bo'lmaydi{pab}. " ++
    "Hakam qo'lda aralashishi kerak (FIDE C.04.3 Article 1.9.3)."

/-- The merge cascade. Every merge leaves one group fewer, so as many turns as there are
groups are enough. -/
def pairGroups (scheme : WeightScheme) (needPab : Bool) (roundId : RoundId) (count : Nat) :
    Nat → List (List SwissPlayer) → Nat → Except PairingError BracketsOutcome
  | 0, _, _ => .error (.internal "score-brackets: merge cascade")
  | fuel + 1, groups, mergeCount => do
      let outcome ← attempt groups scheme needPab
      match outcome with
      | some found => return ⟨found.pairs, found.pab, mergeCount⟩
      | none =>
          if groups.length = 1 then .error (.impossible roundId (impossibleReason count needPab))
          else do
            let merged ← mergeLastTwo groups
            pairGroups scheme needPab roundId count fuel merged (mergeCount + 1)

def pairAllBrackets (players : List SwissPlayer) (scheme : WeightScheme) (needPab : Bool)
    (roundId : RoundId) : Except PairingError BracketsOutcome :=
  let groups := groupByScore players
  pairGroups scheme needPab roundId players.length (groups.length + 1) groups 0

end Farzin.Swiss
