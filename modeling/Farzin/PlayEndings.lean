import Farzin.PlayRequests

set_option autoImplicit false

/- All requests of `play/play.service.ts` that write to one game: the moves and timeouts of
`PlayRequests`, and with them resignation, draws, abort and abandonment. The game row and its
moves are loaded in one snapshot, and a transaction of the repository is one step. -/
namespace Farzin.Play

inductive EndingRequest where
  | resign (userId : Nat)
  | offerDraw (userId : Nat)
  | acceptDraw (userId : Nat)
  | abort (userId : Nat)
  | abandonAfterDisconnect (goneSide : ClockSide) (opponentConnected : Bool)
  deriving DecidableEq, Repr

/-- A game that is to end without a move, as `finishNoMove` is told. -/
structure Ending where
  game : LoadedGame
  status : OnlineGameStatusValue
  winnerColor : Option ColorValue
  deriving DecidableEq, Repr

/-- Where a request stands before its next await. -/
inductive Stage where
  | timed (progress : Progress)
  | endMove (clock : Option Progress)
  | begun (request : EndingRequest)
  | offering (side : ClockSide)
  | answering (side : ClockSide) (game : LoadedGame)
  | listing (ending : Ending)
  | loading (ending : Ending) (moves : List MoveRow) (now : Int)
  | finishing (finish : FinishGameInput)
  | clearing
  deriving DecidableEq, Repr

/-- One game in the database and in Redis, with all requests in flight. -/
structure Board where
  db : GameDb
  clock : Option StoredClock
  drawOffer : Option ClockSide
  inFlight : List Stage
  deriving DecidableEq, Repr

/-- The part that `PlayRequests` works on. -/
def Board.world (b : Board) : World where
  db := b.db
  clock := b.clock
  inFlight := []
  playedAt := 0
  decidedAt := 0

section Service

variable (chess : ChessJs) (players : Nat → Option Nat)

/-- `requireActivePlayer`. -/
def requireActivePlayer (userId : Nat) (game : LoadedGame) : Option ClockSide :=
  if game.status ≠ .active then none else sideOf players userId game

/-- From `findGame` to the next await of each request. -/
def checkEnding (game : LoadedGame) : EndingRequest → Option Stage
  | .resign userId => do
      let side ← requireActivePlayer players userId game
      return .listing ⟨game, .resignation, some side.other.color⟩
  | .offerDraw userId => do
      let side ← requireActivePlayer players userId game
      return .offering side
  | .acceptDraw userId => do
      let side ← requireActivePlayer players userId game
      return .answering side game
  | .abort userId => do
      let _ ← requireActivePlayer players userId game
      if 2 ≤ game.plyCount then none else some (.listing ⟨game, .aborted, none⟩)
  | .abandonAfterDisconnect goneSide opponentConnected =>
      if game.status ≠ .active then none
      else
        let winner := if opponentConnected then some goneSide.other.color else none
        some (.listing ⟨game, .abandoned, winner⟩)

/-- `acceptDraw` with the offer in hand: one's own offer cannot be accepted. -/
def answerDraw (side : ClockSide) (game : LoadedGame) (offer : Option ClockSide) : Option Stage :=
  if offer = none ∨ offer = some side then none
  else some (.listing ⟨game, .drawAgreed, none⟩)

/-- A side's time at the end of a game that ends without a move. -/
def endTime (game : LoadedGame) (state : ClockState) (side : ClockSide) (now : Int) : Option Int :=
  let config := clockConfig game.toGameRow
  if game.plyCount = 0 then some config.baseMs else toOption (remaining config state side now)

/-- `finishNoMove` with the moves and the clock in hand. -/
def finishNoMove (ending : Ending) (moves : List MoveRow) (now : Int)
    (clock : Option StoredClock) : Option Stage := do
  let state := match clock with
    | some stored => stored.entry.state
    | none => reconstructClock ending.game moves now
  let white ← endTime ending.game state .w now
  let black ← endTime ending.game state .b now
  return .finishing ⟨ending.status, ending.winnerColor, white, black⟩

/-- A step of a timed request. Clearing the clock takes the draw offer along, and the last thing
that a move does is to withdraw the draw offer. -/
def advanceTimed (b : Board) (progress : Progress) : Board × Option Stage :=
  let (w, rest) := Play.advance chess players b.world progress
  let next := { b with db := w.db, clock := w.clock }
  match progress with
  | .writing write =>
      if write.ended then ({ next with drawOffer := none }, none) else (next, some (.endMove rest))
  | .clearing => ({ next with drawOffer := none }, none)
  | _ => (next, rest.map .timed)

/-- What a request does between two awaits; `now` is the time when it goes on. -/
def Board.advance (b : Board) (now : Int) : Stage → Board × Option Stage
  | .timed progress => advanceTimed chess players b progress
  | .endMove (some _) => ({ b with clock := none, drawOffer := none }, some (.endMove none))
  | .endMove none => ({ b with drawOffer := none }, none)
  | .begun request => (b, checkEnding players b.db.findGame request)
  | .offering side => ({ b with drawOffer := some side }, none)
  | .answering side game => (b, answerDraw side game b.drawOffer)
  | .listing ending => (b, some (.loading ending b.db.listMoves now))
  | .loading ending moves started => (b, finishNoMove ending moves started b.clock)
  | .finishing finish =>
      match b.db.finishGame finish with
      | none => (b, none)
      | some db => ({ b with db }, some .clearing)
  | .clearing => ({ b with clock := none, drawOffer := none }, none)

/-- A request arrives or goes on, or an entry in Redis runs into its time limit. -/
inductive BoardLabel where
  | arrive (request : Request) (now : Int)
  | arriveEnding (request : EndingRequest)
  | advance (index : Nat) (now : Int)
  | expireClock
  | expireOffer
  deriving DecidableEq, Repr

def Board.step (b : Board) : BoardLabel → Option Board
  | .arrive request now => some { b with inFlight := b.inFlight ++ [.timed (.begun request now)] }
  | .arriveEnding request => some { b with inFlight := b.inFlight ++ [.begun request] }
  | .advance index now =>
      match b.inFlight[index]? with
      | none => none
      | some stage =>
          let (next, rest) := b.advance chess players now stage
          some { next with inFlight := b.inFlight.eraseIdx index ++ rest.toList }
  | .expireClock => some { b with clock := none }
  | .expireOffer => some { b with drawOffer := none }

/-- A game that has just been created. -/
structure Board.Initial (b : Board) : Prop where
  active : b.db.row.status = .active
  fen : b.db.row.fen = startingFen
  moves : b.db.moves = []
  drawOffer : b.drawOffer = none
  inFlight : b.inFlight = []

def boards : Transition.System Board BoardLabel where
  initial := Board.Initial
  step := Board.step chess players

end Service

end Farzin.Play
