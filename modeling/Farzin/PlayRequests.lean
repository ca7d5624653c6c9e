import Farzin.PlayGame
import Farzin.Transition

set_option autoImplicit false

/- The requests of `play/play.service.ts` that read or write the clock of one game, cut at
their awaits, so that any number of them can run at once. -/
namespace Farzin.Play

inductive Request where
  | makeMove (userId : Nat) (uci : String)
  | checkFlag
  | claimTimeout (userId : Nat)
  deriving DecidableEq, Repr

/-- What a request wants once the game is loaded and its checks have passed. -/
inductive Intent where
  | move (side : ClockSide) (uci : String)
  | flag
  | claim (opponent : ClockSide)
  deriving DecidableEq, Repr

/-- A clock entry in Redis. The ply of the move it was written for is bookkeeping: the code
does not store it. -/
structure StoredClock where
  entry : ClockEntry
  ply : Nat
  deriving DecidableEq, Repr

/-- The clock a request goes by. `version` is none for a reconstructed clock, and `source` is
the bookkeeping of the entry that was read. -/
structure ClockReading where
  state : ClockState
  version : Option Nat
  source : Option Nat
  deriving DecidableEq, Repr

/-- A legal move on its way to the database. -/
structure PendingMove where
  now : Int
  game : LoadedGame
  side : ClockSide
  move : ValidatedMove
  newClock : ClockState
  elapsedMs : Int
  entryVersion : Option Nat
  source : Option Nat
  deriving DecidableEq, Repr

/-- A recorded move on its way to Redis. -/
structure ClockWrite where
  ply : Nat
  newClock : ClockState
  entryVersion : Option Nat
  source : Option Nat
  ended : Bool
  deriving DecidableEq, Repr

/-- A decision that the time of one side is up. -/
structure TimeoutDecision where
  now : Int
  game : LoadedGame
  intent : Intent
  reading : ClockReading
  loser : ClockSide
  finalClock : ClockState
  deriving DecidableEq, Repr

/-- Where a request stands: each constructor is the wait before its next await. -/
inductive Progress where
  | begun (request : Request) (now : Int)
  | loaded (intent : Intent) (now : Int) (game : LoadedGame)
  | noEntry (intent : Intent) (now : Int) (game : LoadedGame)
  | counting (pending : PendingMove)
  | appending (pending : PendingMove) (finish : Option FinishGameInput)
  | timingOut (decision : TimeoutDecision)
  | writing (write : ClockWrite)
  | clearing
  deriving DecidableEq, Repr

/-- One game with the requests in flight. `playedAt` is when the last recorded move was
made and `decidedAt` when a timeout was decided; both are bookkeeping. -/
structure World where
  db : GameDb
  clock : Option StoredClock
  inFlight : List Progress
  playedAt : Int
  decidedAt : Int
  deriving DecidableEq, Repr

section Service

variable (chess : ChessJs) (players : Nat → Option Nat)

/-- `sideOf`, where `players` finds the player of a user. -/
def sideOf (userId : Nat) (game : LoadedGame) : Option ClockSide :=
  match players userId with
  | none => none
  | some player =>
      if player = game.whitePlayerId then some .w
      else if player = game.blackPlayerId then some .b
      else none

def PendingMove.finish (pending : PendingMove) (status : OnlineGameStatusValue) :
    FinishGameInput where
  status := status
  winnerColor := if status = .checkmate then some pending.side.color else none
  whiteTimeLeftMs := pending.newClock.whiteRemainingMs
  blackTimeLeftMs := pending.newClock.blackRemainingMs

/-- Steps 5 and 6 of `makeMove`: is the move legal, does it end the game. -/
def playMove (side : ClockSide) (uci : String) (now : Int) (game : LoadedGame)
    (newClock : ClockState) (elapsedMs : Int) (entryVersion source : Option Nat) :
    Option Progress :=
  match chess.validateMove game.fen uci with
  | none => none
  | some move =>
      let pending : PendingMove :=
        { now, game, side, move, newClock, elapsedMs, entryVersion, source }
      match chess.gameEndFromPosition move.fenAfter [] with
      | some status => some (.appending pending (some (pending.finish status)))
      | none => if move.irreversible then some (.appending pending none) else some (.counting pending)

/-- The threefold check of `makeMove`. -/
def countPositions (db : GameDb) (pending : PendingMove) : Option FinishGameInput :=
  let occurrences := db.positionOccurrences pending.move.positionHash
  let key := positionKey pending.move.fenAfter
  let inHistory := (occurrences.filter fun fen => positionKey fen = key).length
  let startBonus := if positionKey startingFen = key then 1 else 0
  if 3 ≤ inHistory + startBonus + 1 then some (pending.finish .threefoldRepetition) else none

/-- The clock of White's first move, which is free. -/
def firstClock (config : ClockConfig) (now : Int) : ClockState where
  whiteRemainingMs := config.baseMs
  blackRemainingMs := config.baseMs
  turn := .b
  lastEventAtMs := now

/-- From `findGame` to the clock: the checks of each request. -/
def checkRequest (request : Request) (now : Int) (game : LoadedGame) : Option Progress :=
  if game.status ≠ .active then none
  else match request with
    | .makeMove userId uci => do
        let side ← sideOf players userId game
        if sideToMove game.fen ≠ side then none
        else if game.plyCount + 1 = 1 then
          playMove chess side uci now game (firstClock (clockConfig game.toGameRow) now) 0 none none
        else some (.loaded (.move side uci) now game)
    | .checkFlag => if game.plyCount = 0 then none else some (.loaded .flag now game)
    | .claimTimeout userId => do
        let side ← sideOf players userId game
        if game.plyCount = 0 then none else some (.loaded (.claim side.other) now game)

def toOption {ε α : Type} : Except ε α → Option α
  | .ok a => some a
  | .error _ => none

/-- Step 4 of `makeMove`: charge the clock. -/
def chargeMove (side : ClockSide) (uci : String) (now : Int) (game : LoadedGame)
    (reading : ClockReading) : Option Progress := do
  let applied ← toOption (applyMove (clockConfig game.toGameRow) reading.state now)
  if applied.flagged then
    return .timingOut ⟨now, game, .move side uci, reading, side, applied.state⟩
  playMove chess side uci now game applied.state applied.elapsedMs reading.version reading.source

/-- The times that `checkFlag` stores: none for the side that lost, what is left for the
other one. -/
def flaggedTime (config : ClockConfig) (state : ClockState) (mover side : ClockSide) (now : Int) :
    Option Int :=
  if mover = side then some 0 else toOption (remaining config state side now)

/-- `checkFlag` with the clock in hand. -/
def judgeFlag (now : Int) (game : LoadedGame) (reading : ClockReading) : Option Progress := do
  let config := clockConfig game.toGameRow
  let state := reading.state
  let mover := state.turn
  let rem ← toOption (remaining config state mover now)
  if 0 < rem then none
  else
    let white ← flaggedTime config state mover .w now
    let black ← flaggedTime config state mover .b now
    return .timingOut ⟨now, game, .flag, reading, mover,
      ⟨white, black, state.turn, state.lastEventAtMs⟩⟩

/-- `claimTimeout` with the clock in hand. -/
def judgeClaim (opponent : ClockSide) (now : Int) (game : LoadedGame) (reading : ClockReading) :
    Option Progress := do
  let state := reading.state
  let rem ← toOption (remaining (clockConfig game.toGameRow) state opponent now)
  if 0 < rem then none
  else
    return .timingOut ⟨now, game, .claim opponent, reading, opponent,
      ⟨if opponent = .w then 0 else state.whiteRemainingMs,
        if opponent = .b then 0 else state.blackRemainingMs, state.turn, state.lastEventAtMs⟩⟩

def judge (intent : Intent) (now : Int) (game : LoadedGame) (reading : ClockReading) :
    Option Progress :=
  match intent with
  | .move side uci => chargeMove chess side uci now game reading
  | .flag => judgeFlag now game reading
  | .claim opponent => judgeClaim opponent now game reading

def PendingMove.row (pending : PendingMove) : MoveRow where
  ply := pending.game.plyCount + 1
  san := pending.move.san
  uci := pending.move.uci
  fenAfter := pending.move.fenAfter
  positionHash := pending.move.positionHash
  thinkTimeMs := if pending.game.plyCount + 1 = 1 then none else some pending.elapsedMs
  clockAfterMs := some (remainingOf pending.newClock pending.side)

/-- The input of `finishByTimeout`. -/
def TimeoutDecision.finish (decision : TimeoutDecision) : FinishGameInput :=
  let winner := decision.loser.other
  let winnerHasMaterial := chess.hasMatingMaterial decision.game.fen winner
  { status := if winnerHasMaterial then .timeout else .timeoutVsInsufficientMaterial
    winnerColor := if winnerHasMaterial then some winner.color else none
    whiteTimeLeftMs := decision.finalClock.whiteRemainingMs
    blackTimeLeftMs := decision.finalClock.blackRemainingMs }

/-- `ClockStore.update`: the compare-and-set. -/
def ClockWrite.compareAndSet (write : ClockWrite) (expectedVersion : Nat)
    (clock : Option StoredClock) : Option StoredClock :=
  match clock with
  | none => none
  | some stored =>
      if stored.entry.version = expectedVersion then
        some ⟨⟨expectedVersion + 1, write.newClock⟩, write.ply⟩
      else none

/-- Step 8 of `makeMove`. -/
def writeClock (w : World) (write : ClockWrite) : World × Option Progress :=
  if write.ended then ({ w with clock := none }, none)
  else match write.entryVersion with
    | none => ({ w with clock := some ⟨⟨1, write.newClock⟩, write.ply⟩ }, none)
    | some version =>
        if write.ply = 1 then ({ w with clock := some ⟨⟨1, write.newClock⟩, write.ply⟩ }, none)
        else match write.compareAndSet version w.clock with
          | some stored => ({ w with clock := some stored }, none)
          | none => (w, some .clearing)

/-- Step 7 of `makeMove`. -/
def appendPending (w : World) (pending : PendingMove) (finish : Option FinishGameInput) :
    World × Option Progress :=
  match w.db.appendMove pending.row finish with
  | none => (w, none)
  | some db =>
      ({ w with db, playedAt := pending.now },
        some (.writing ⟨pending.row.ply, pending.newClock, pending.entryVersion, pending.source,
          finish.isSome⟩))

def finishByTimeout (w : World) (decision : TimeoutDecision) : World × Option Progress :=
  match w.db.finishGame (decision.finish chess) with
  | none => (w, none)
  | some db => ({ w with db, decidedAt := decision.now }, some .clearing)

def loadClock (w : World) (intent : Intent) (now : Int) (game : LoadedGame) : Option Progress :=
  match w.clock with
  | none => some (.noEntry intent now game)
  | some stored =>
      judge chess intent now game ⟨stored.entry.state, some stored.entry.version, some stored.ply⟩

/-- What a request does between two awaits; `none` when it is over. -/
def advance (w : World) : Progress → World × Option Progress
  | .begun request now => (w, checkRequest chess players request now w.db.findGame)
  | .loaded intent now game => (w, loadClock chess w intent now game)
  | .noEntry intent now game =>
      (w, judge chess intent now game ⟨reconstructClock game w.db.listMoves now, none, none⟩)
  | .counting pending => (w, some (.appending pending (countPositions w.db pending)))
  | .appending pending finish => appendPending w pending finish
  | .timingOut decision => finishByTimeout chess w decision
  | .writing write => writeClock w write
  | .clearing => ({ w with clock := none }, none)

/-- A request arrives at a time of its own, goes on to its next await, or the clock entry
runs into its time limit. -/
inductive WorldLabel where
  | arrive (request : Request) (now : Int)
  | advance (index : Nat)
  | expire
  deriving DecidableEq, Repr

def World.step (w : World) : WorldLabel → Option World
  | .arrive request now => some { w with inFlight := w.inFlight ++ [.begun request now] }
  | .advance index =>
      match w.inFlight[index]? with
      | none => none
      | some progress =>
          let (next, rest) := Play.advance chess players w progress
          some { next with inFlight := w.inFlight.eraseIdx index ++ rest.toList }
  | .expire => some { w with clock := none }

/-- A game that `createGameWithClock` has just created, with its clock or without. -/
structure World.Initial (w : World) : Prop where
  active : w.db.row.status = .active
  fen : w.db.row.fen = startingFen
  moves : w.db.moves = []
  clock : ∀ stored, w.clock = some stored → ∃ now state,
    createClock (clockConfig w.db.row) .w now = .ok state ∧ stored = ⟨⟨1, state⟩, 0⟩
  inFlight : w.inFlight = []

def worlds : Transition.System World WorldLabel where
  initial := World.Initial
  step := World.step chess players

end Service

end Farzin.Play
