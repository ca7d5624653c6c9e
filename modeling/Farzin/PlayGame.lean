import Farzin.PlayRules
import Mathlib.Data.List.Sort

set_option autoImplicit false

/- One online game: its rows in the database (`play/play.repository.ts`) and its clock
entry in Redis (`play/clock.store.ts`). -/
namespace Farzin.Play

inductive ColorValue where
  | white
  | black
  deriving DecidableEq, Repr

def ClockSide.color : ClockSide → ColorValue
  | .w => .white
  | .b => .black

structure GameRow where
  whitePlayerId : Nat
  blackPlayerId : Nat
  status : OnlineGameStatusValue
  clockType : ChessClockType
  baseTimeSeconds : Int
  incrementSeconds : Int
  fen : String
  winnerColor : Option ColorValue
  whiteTimeLeftMs : Option Int
  blackTimeLeftMs : Option Int
  deriving DecidableEq, Repr

structure MoveRow where
  ply : Nat
  san : String
  uci : String
  fenAfter : String
  positionHash : String
  thinkTimeMs : Option Int
  clockAfterMs : Option Int
  deriving DecidableEq, Repr

structure FinishGameInput where
  status : OnlineGameStatusValue
  winnerColor : Option ColorValue
  whiteTimeLeftMs : Int
  blackTimeLeftMs : Int
  deriving DecidableEq, Repr

structure ClockEntry where
  version : Nat
  state : ClockState
  deriving DecidableEq, Repr

/-- The rows of a game. A game is never deleted here. -/
structure GameDb where
  row : GameRow
  moves : List MoveRow
  deriving DecidableEq, Repr

/-- A game row as `findGame` returns it, with the number of its moves. -/
structure LoadedGame extends GameRow where
  plyCount : Nat
  deriving DecidableEq, Repr

def clockConfig (game : GameRow) : ClockConfig where
  clockType := game.clockType
  baseMs := game.baseTimeSeconds * 1000
  incrementMs := game.incrementSeconds * 1000

namespace GameDb

variable (db : GameDb)

def findGame : LoadedGame := { db.row with plyCount := db.moves.length }

def listMoves : List MoveRow := db.moves.insertionSort fun a b => a.ply ≤ b.ply

def positionOccurrences (positionHash : String) : List String :=
  (db.moves.filter fun move => move.positionHash = positionHash).map MoveRow.fenAfter

def finished (row : GameRow) (finish : FinishGameInput) : GameRow :=
  { row with
    status := finish.status
    winnerColor := finish.winnerColor
    whiteTimeLeftMs := some finish.whiteTimeLeftMs
    blackTimeLeftMs := some finish.blackTimeLeftMs }

/-- `appendMove`, one transaction; `none` is its `ConflictError`. -/
def appendMove (move : MoveRow) (finish : Option FinishGameInput) : Option GameDb :=
  if db.moves.any fun m => m.ply = move.ply then none
  else if db.row.status ≠ .active then none
  else
    let moved := { db.row with fen := move.fenAfter }
    some {
      row := match finish with
        | none => moved
        | some input => finished moved input
      moves := db.moves ++ [move] }

/-- `finishGame`, one transaction; `none` when the game is over already. -/
def finishGame (finish : FinishGameInput) : Option GameDb :=
  if db.row.status ≠ .active then none else some { db with row := finished db.row finish }

end GameDb

/-- One turn of the loop of `reconstructClock`, which keeps both sides' times. -/
def recordTimes (ms : Int × Int) (m : MoveRow) : Int × Int :=
  match m.clockAfterMs with
  | none => ms
  | some after => if m.ply % 2 = 1 then (after, ms.2) else (ms.1, after)

def reconstructClock (game : LoadedGame) (moves : List MoveRow) (nowMs : Int) : ClockState :=
  let config := clockConfig game.toGameRow
  let times := moves.foldl recordTimes (config.baseMs, config.baseMs)
  { whiteRemainingMs := times.1
    blackRemainingMs := times.2
    turn := sideToMove game.fen
    lastEventAtMs := nowMs }

def recordTime (side : ClockSide) (ms : Int) (m : MoveRow) : Int :=
  match m.clockAfterMs with
  | none => ms
  | some after => if m.ply % 2 = 1 ↔ side = .w then after else ms

/-- The clock time recorded with a side's last move, or the base time. -/
def recordedMs (config : ClockConfig) (moves : List MoveRow) (side : ClockSide) : Int :=
  moves.foldl (recordTime side) config.baseMs

theorem recordTimes_eq (white black : Int) (m : MoveRow) :
    recordTimes (white, black) m = (recordTime .w white m, recordTime .b black m) := by
  unfold recordTimes recordTime
  cases m.clockAfterMs with
  | none => rfl
  | some after =>
      by_cases odd : m.ply % 2 = 1
      · simp [odd]
      · simp [odd]

/-- The reconstruction takes each side's last recorded time. -/
theorem foldl_recordTimes (moves : List MoveRow) (white black : Int) :
    moves.foldl recordTimes (white, black) =
      (moves.foldl (recordTime .w) white, moves.foldl (recordTime .b) black) := by
  induction moves generalizing white black with
  | nil => rfl
  | cons m moves ih => rw [List.foldl_cons, recordTimes_eq, ih, List.foldl_cons, List.foldl_cons]

theorem recordedMs_append (config : ClockConfig) (moves : List MoveRow) (move : MoveRow)
    (after : Int) (recorded : move.clockAfterMs = some after) (side : ClockSide) :
    recordedMs config (moves ++ [move]) side =
      if (move.ply % 2 = 1 ↔ side = .w) then after else recordedMs config moves side := by
  unfold recordedMs
  rw [List.foldl_append, List.foldl_cons, List.foldl_nil, recordTime, recorded]

/-- The side to move after a number of moves. -/
def sideAfter (plyCount : Nat) : ClockSide := if plyCount % 2 = 0 then .w else .b

theorem sideAfter_succ (plyCount : Nat) : sideAfter (plyCount + 1) = (sideAfter plyCount).other := by
  unfold sideAfter
  rcases Nat.mod_two_eq_zero_or_one plyCount with even | odd
  · have next : (plyCount + 1) % 2 ≠ 0 := by omega
    rw [if_pos even, if_neg next]
    rfl
  · have next : (plyCount + 1) % 2 = 0 := by omega
    have now : plyCount % 2 ≠ 0 := by omega
    rw [if_pos next, if_neg now]
    rfl

/-- A clock is that of a move log when it shows the side to move and, for both sides, the
last recorded times. -/
structure Agrees (config : ClockConfig) (moves : List MoveRow) (state : ClockState) : Prop where
  turn : state.turn = sideAfter moves.length
  times : ∀ side, remainingOf state side = recordedMs config moves side

end Farzin.Play
