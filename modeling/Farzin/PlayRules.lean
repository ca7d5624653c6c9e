import Farzin.PlayClock

set_option autoImplicit false

/- The rules of chess as `core/chess/rules.ts` takes them from the chess.js package. The
package itself is a parameter; a position is its FEN text. -/
namespace Farzin.Play

inductive OnlineGameStatusValue where
  | pending
  | active
  | checkmate
  | stalemate
  | resignation
  | timeout
  | drawAgreed
  | threefoldRepetition
  | fiftyMoveRule
  | insufficientMaterial
  | timeoutVsInsufficientMaterial
  | abandoned
  | aborted
  deriving DecidableEq, Repr

inductive SquareColor where
  | light
  | dark
  deriving DecidableEq, Repr

structure SidePieces where
  p : Nat
  n : Nat
  b : Nat
  r : Nat
  q : Nat
  bishopSquares : List SquareColor
  deriving DecidableEq, Repr

/-- What `chess.move` reports of an accepted move. -/
structure ChessMove where
  san : String
  fenAfter : String
  isCapture : Bool
  isPawn : Bool
  deriving DecidableEq, Repr

/-- The calls into chess.js; `move` is `none` where the package throws. -/
structure ChessJs where
  move : (fen start target : String) → (promotion : Option Char) → Option ChessMove
  isCheckmate : String → Bool
  isStalemate : String → Bool
  countPieces : String → ClockSide → SidePieces
  zobristHash : String → String

structure ValidatedMove where
  san : String
  uci : String
  fenAfter : String
  positionHash : String
  irreversible : Bool
  deriving DecidableEq, Repr

def isFile (c : Char) : Bool := decide ('a' ≤ c ∧ c ≤ 'h')

def isRank (c : Char) : Bool := decide ('1' ≤ c ∧ c ≤ '8')

def isPromotion (c : Char) : Bool := decide (c ∈ ['q', 'r', 'b', 'n'])

/-- `UCI_RE`: two squares and perhaps a promotion. -/
def parseUci (uci : String) : Option (String × String × Option Char) :=
  match uci.toList with
  | [f, r, g, s] =>
      if isFile f && isRank r && isFile g && isRank s then
        some (String.ofList [f, r], String.ofList [g, s], none)
      else none
  | [f, r, g, s, p] =>
      if isFile f && isRank r && isFile g && isRank s && isPromotion p then
        some (String.ofList [f, r], String.ofList [g, s], some p)
      else none
  | _ => none

def fenFields (fen : String) : List String := (fen.toList.splitOn ' ').map String.ofList

def sideToMove (fen : String) : ClockSide := if (fenFields fen)[1]? = some "b" then .b else .w

/-- `Number` of a field of digits; anything else counts as no number. -/
def numberOf (field : String) : Option Nat :=
  if field.toList.all Char.isDigit then
    some (field.toList.foldl (fun n c => 10 * n + (c.toNat - '0'.toNat)) 0)
  else none

def halfmoveClock (fen : String) : Nat := ((fenFields fen)[4]?.bind numberOf).getD 0

/-- The first four fields of a FEN. -/
def positionKey (fen : String) : String := String.intercalate " " ((fenFields fen).take 4)

def startingFen : String := "rnbqkbnr/pppppppp/8/8/8/8/PPPPPPPP/RNBQKBNR w KQkq - 0 1"

namespace ChessJs

variable (chess : ChessJs)

def validateMove (fen uci : String) : Option ValidatedMove := do
  let (start, target, promotion) ← parseUci uci
  let move ← chess.move fen start target promotion
  return ⟨move.san, uci, move.fenAfter, chess.zobristHash move.fenAfter,
    move.isCapture || move.isPawn⟩

def isDeadPosition (fen : String) : Bool :=
  let w := chess.countPieces fen .w
  let b := chess.countPieces fen .b
  if 0 < w.p + b.p ∨ 0 < w.r + b.r ∨ 0 < w.q + b.q then false
  else
    let minorsW := w.n + w.b
    let minorsB := b.n + b.b
    if minorsW = 0 ∧ minorsB = 0 then true
    else if (minorsW = 1 ∧ minorsB = 0) ∨ (minorsW = 0 ∧ minorsB = 1) then true
    else if w.b = 1 ∧ b.b = 1 ∧ minorsW = 1 ∧ minorsB = 1 then
      decide (w.bishopSquares[0]? = b.bishopSquares[0]?)
    else false

def hasMatingMaterial (fen : String) (side : ClockSide) : Bool :=
  let c := chess.countPieces fen side
  if 0 < c.p ∨ 0 < c.r ∨ 0 < c.q then true else decide (2 ≤ c.n + c.b)

def gameEndFromPosition (fen : String) (priorFens : List String) :
    Option OnlineGameStatusValue :=
  if chess.isCheckmate fen then some .checkmate
  else if chess.isStalemate fen then some .stalemate
  else if chess.isDeadPosition fen then some .insufficientMaterial
  else if 100 ≤ halfmoveClock fen then some .fiftyMoveRule
  else if 3 ≤ 1 + (priorFens.filter fun f => positionKey f = positionKey fen).length then
    some .threefoldRepetition
  else none

/-- A move of chess.js gives the turn to the other side. -/
structure Alternates : Prop where
  turn : ∀ fen start target promotion move, chess.move fen start target promotion = some move →
    sideToMove move.fenAfter = (sideToMove fen).other

variable {chess}

theorem Alternates.validated (alternates : chess.Alternates) {fen uci : String}
    {move : ValidatedMove} (legal : chess.validateMove fen uci = some move) :
    sideToMove move.fenAfter = (sideToMove fen).other := by
  unfold validateMove at legal
  simp only [Option.bind_eq_bind, Option.bind_eq_some_iff, pure, Option.some.injEq] at legal
  obtain ⟨squares, _, played, moved, rfl⟩ := legal
  exact alternates.turn _ _ _ _ _ moved

/-- No position ends a game on time. -/
theorem gameEnd_cases {fen : String} {priorFens : List String} {status : OnlineGameStatusValue}
    (ended : chess.gameEndFromPosition fen priorFens = some status) :
    status ≠ .timeout ∧ status ≠ .active := by
  unfold gameEndFromPosition at ended
  split at ended
  · cases ended
    decide
  · split at ended
    · cases ended
      decide
    · split at ended
      · cases ended
        decide
      · split at ended
        · cases ended
          decide
        · split at ended
          · cases ended
            decide
          · cases ended

end ChessJs

end Farzin.Play
