import Farzin.PlaySerial

set_option autoImplicit false

/- The clock put together from the stored moves, beside the entry that Redis holds when the
moves of a game are served one at a time. -/
namespace Farzin.Play

/-- A call of `makeMove`. -/
structure MoveCall where
  userId : Nat
  uci : String
  now : Int
  deriving DecidableEq, Repr

section Service

variable (chess : ChessJs) (players : Nat → Option Nat)

def MoveCall.served (w : World) (call : MoveCall) : World :=
  serve chess players w (.makeMove call.userId call.uci) call.now

/-- Moves one at a time; a step is a call whose move is recorded. -/
def serialMoves : Transition.System World MoveCall where
  initial := World.Initial
  step w call :=
    if (call.served chess players w).db.moves.length = w.db.moves.length + 1 then
      some (call.served chess players w)
    else none

end Service

/-- The clock that an accepted move leaves: the free first move's, or the charged one. -/
def ClockAfter (w : World) (now : Int) (newClock : ClockState) : Prop :=
  (w.db.moves = [] ∧ newClock = firstClock (clockConfig w.db.row) now) ∨
    ∃ result, applyMove (clockConfig w.db.row) (clockReading w now).state now = .ok result ∧
      result.flagged = false ∧ newClock = result.state

/-- A move is on its way with the clock just charged, and a version that is still in force. -/
structure OnItsWay (w : World) (now : Int) (pending : PendingMove) : Prop where
  game : pending.game = w.db.findGame
  side : pending.side = sideToMove w.db.row.fen
  clock : ClockAfter w now pending.newClock
  version : pending.entryVersion = none ∨
    ∃ stored, w.clock = some stored ∧ pending.entryVersion = some stored.entry.version

/-- A move that ends the game stores the times of its clock. -/
def EndsWith (newClock : ClockState) (finish : Option FinishGameInput) : Prop :=
  ∀ input, finish = some input →
    input.status ≠ .active ∧ input.whiteTimeLeftMs = newClock.whiteRemainingMs ∧
      input.blackTimeLeftMs = newClock.blackRemainingMs

/-- What a recorded move leaves in the database and in Redis. -/
structure Recording (w next : World) (now : Int) : Prop where
  recorded : ∃ pending finish, OnItsWay w now pending ∧
    w.db.appendMove pending.row finish = some next.db ∧
    (finish = none → ∃ stored, next.clock = some stored ∧
      stored.entry.state = pending.newClock) ∧
    (finish ≠ none → next.clock = none) ∧ EndsWith pending.newClock finish

section Stages

variable {chess : ChessJs} {players : Nat → Option Nat} {w : World} {now : Int}

/-- The last step of a move that goes on: its clock is in Redis. -/
theorem finishAlone_writing {write : ClockWrite} (goesOn : write.ended = false)
    (version : write.entryVersion = none ∨
      ∃ stored, w.clock = some stored ∧ write.entryVersion = some stored.entry.version) :
    (finishAlone chess players w (.writing write)).db = w.db ∧
      ∃ stored, (finishAlone chess players w (.writing write)).clock = some stored ∧
        stored.entry.state = write.newClock := by
  rw [finishAlone_eq]
  simp only [advance, writeClock, goesOn]
  rcases version with init | ⟨stored, found, version⟩
  · simp only [init]
    exact ⟨rfl, _, rfl, rfl⟩
  · simp only [version]
    by_cases first : write.ply = 1
    · simp only [first, if_true]
      exact ⟨rfl, _, rfl, rfl⟩
    · simp only [first, if_false, ClockWrite.compareAndSet, found]
      exact ⟨rfl, _, rfl, rfl⟩

theorem finishAlone_ended {write : ClockWrite} (ended : write.ended = true) :
    (finishAlone chess players w (.writing write)).db = w.db ∧
      (finishAlone chess players w (.writing write)).clock = none := by
  rw [finishAlone_eq]
  simp only [advance, writeClock, ended]
  exact ⟨rfl, rfl⟩

theorem finishAlone_appending {pending : PendingMove} {finish : Option FinishGameInput}
    (way : OnItsWay w now pending) (ends : EndsWith pending.newClock finish) :
    (finishAlone chess players w (.appending pending finish)).db.moves = w.db.moves ∨
      Recording w (finishAlone chess players w (.appending pending finish)) now := by
  rw [finishAlone_eq]
  simp only [advance, appendPending]
  cases appended : w.db.appendMove pending.row finish with
  | none => exact .inl rfl
  | some db =>
      refine .inr ⟨pending, finish, way, ?_⟩
      cases finish with
      | none =>
          obtain ⟨kept, held⟩ := @finishAlone_writing chess players
            { w with db, playedAt := pending.now } ⟨pending.row.ply, pending.newClock,
              pending.entryVersion, pending.source, false⟩ rfl way.version
          exact ⟨appended.trans (congrArg some kept.symm), fun _ => held,
            fun apart => absurd rfl apart, ends⟩
      | some input =>
          obtain ⟨kept, cleared⟩ := @finishAlone_ended chess players
            { w with db, playedAt := pending.now } ⟨pending.row.ply, pending.newClock,
              pending.entryVersion, pending.source, true⟩ rfl
          exact ⟨appended.trans (congrArg some kept.symm), fun none => (by cases none),
            fun _ => cleared, ends⟩

theorem PendingMove.endsWith (pending : PendingMove) {status : OnlineGameStatusValue}
    (finished : status ≠ .active) : EndsWith pending.newClock (some (pending.finish status)) := by
  intro input same
  cases same
  exact ⟨finished, rfl, rfl⟩

theorem countPositions_endsWith (db : GameDb) (pending : PendingMove) :
    EndsWith pending.newClock (countPositions db pending) := by
  intro input counted
  unfold countPositions at counted
  simp only [Option.ite_none_right_eq_some, Option.some.injEq] at counted
  exact pending.endsWith (by decide) input (congrArg some counted.2)

/-- A legal move with its clock charged is recorded, unless the database refuses it. -/
theorem finishAlone_played {uci : String} {newClock : ClockState} {elapsed : Int}
    {version source : Option Nat} {next : Progress} (clock : ClockAfter w now newClock)
    (inForce : version = none ∨
      ∃ stored, w.clock = some stored ∧ version = some stored.entry.version)
    (played : playMove chess (sideToMove w.db.row.fen) uci now w.db.findGame newClock elapsed
      version source = some next) :
    (finishAlone chess players w next).db.moves = w.db.moves ∨
      Recording w (finishAlone chess players w next) now := by
  unfold playMove at played
  cases legal : chess.validateMove w.db.findGame.fen uci with
  | none =>
      simp only [legal] at played
      cases played
  | some move =>
      simp only [legal] at played
      have way : OnItsWay w now ⟨now, w.db.findGame, sideToMove w.db.row.fen, move, newClock,
        elapsed, version, source⟩ := ⟨rfl, rfl, clock, inForce⟩
      cases ended : chess.gameEndFromPosition move.fenAfter [] with
      | some status =>
          simp only [ended] at played
          cases played
          exact finishAlone_appending way (PendingMove.endsWith _ (ChessJs.gameEnd_cases ended).2)
      | none =>
          simp only [ended] at played
          split at played
          · cases played
            exact finishAlone_appending way fun input none => by cases none
          · cases played
            rw [finishAlone_eq]
            exact finishAlone_appending way (countPositions_endsWith w.db _)

theorem checkRequest_move {userId : Nat} {uci : String} {game : LoadedGame} {next : Progress}
    (checked : checkRequest chess players (.makeMove userId uci) now game = some next) :
    (game.plyCount = 0 ∧
      playMove chess (sideToMove game.fen) uci now game
        (firstClock (clockConfig game.toGameRow) now) 0 none none = some next) ∨
      next = .loaded (.move (sideToMove game.fen) uci) now game := by
  unfold checkRequest at checked
  split at checked
  · cases checked
  · simp only [Option.bind_eq_bind, Option.bind_eq_some_iff] at checked
    obtain ⟨side, -, checked⟩ := checked
    by_cases turn : sideToMove game.fen = side
    · rw [if_neg (fun apart => apart turn), ← turn] at checked
      by_cases first : game.plyCount + 1 = 1
      · rw [if_pos first] at checked
        exact .inl ⟨by omega, checked⟩
      · rw [if_neg first] at checked
        exact .inr (Option.some.inj checked).symm
    · rw [if_pos turn] at checked
      cases checked

theorem clockReading_version (w : World) (now : Int) :
    (clockReading w now).version = none ∨
      ∃ stored, w.clock = some stored ∧
        (clockReading w now).version = some stored.entry.version := by
  unfold clockReading
  cases entry : w.clock with
  | none => exact .inl rfl
  | some stored => exact .inr ⟨stored, rfl, rfl⟩

/-- A timeout leaves the move log alone. -/
theorem finishAlone_timeout (decision : TimeoutDecision) :
    (finishAlone chess players w (.timingOut decision)).db.moves = w.db.moves := by
  rw [finishAlone_eq]
  simp only [advance, finishByTimeout]
  cases done : w.db.finishGame (decision.finish chess) with
  | none => rfl
  | some db =>
      obtain ⟨-, rfl⟩ := finishGame_some done
      dsimp only
      rw [finishAlone_eq]
      rfl

/-- A served move leaves the log alone or is recorded with its clock. -/
theorem served_cases (w : World) (call : MoveCall) :
    (call.served chess players w).db.moves = w.db.moves ∨
      Recording w (call.served chess players w) call.now := by
  unfold MoveCall.served serve
  rw [finishAlone_eq]
  simp only [advance]
  cases checked : checkRequest chess players (.makeMove call.userId call.uci) call.now
      w.db.findGame with
  | none => exact .inl rfl
  | some next =>
      rcases checkRequest_move checked with ⟨first, played⟩ | rfl
      · exact finishAlone_played (.inl ⟨List.length_eq_zero_iff.mp first, rfl⟩) (.inl rfl) played
      · simp only [finishAlone_loaded]
        cases judged : judge chess (.move (sideToMove w.db.findGame.fen) call.uci) call.now
            w.db.findGame (clockReading w call.now) with
        | none => exact .inl rfl
        | some next =>
            rcases chargeMove_cases judged with ⟨final, rfl, -⟩ | ⟨result, applied, kept, played⟩
            · exact .inl (finishAlone_timeout _)
            · exact finishAlone_played (.inr ⟨result, applied, kept, rfl⟩)
                (clockReading_version w call.now) played

end Stages

section Invariant

/-- Redis holds the clock of the last move while the game goes on, and the row holds its times
when the game is over. -/
structure Live (w : World) : Prop where
  quiet : w.inFlight = []
  logged : Logged w
  entry : ∀ stored, w.clock = some stored →
    Agrees (clockConfig w.db.row) w.db.moves stored.entry.state
  held : w.db.row.status = .active → w.db.moves ≠ [] → ∃ stored, w.clock = some stored
  finished : w.db.row.status ≠ .active → ∃ state,
    Agrees (clockConfig w.db.row) w.db.moves state ∧
      w.db.row.whiteTimeLeftMs = some state.whiteRemainingMs ∧
      w.db.row.blackTimeLeftMs = some state.blackRemainingMs

variable {chess : ChessJs} {players : Nat → Option Nat} {w w' : World}

theorem clockReading_agrees (logged : Logged w)
    (entry : ∀ stored, w.clock = some stored →
      Agrees (clockConfig w.db.row) w.db.moves stored.entry.state) (now : Int) :
    Agrees (clockConfig w.db.row) w.db.moves (clockReading w now).state := by
  unfold clockReading
  cases found : w.clock with
  | none => exact reconstruct_agrees now (findGame_fits logged) logged.plies rfl
  | some stored => exact entry stored found

/-- The clock that an accepted move leaves is one that the log may go on with. -/
theorem ClockAfter.continues {now : Int} {newClock : ClockState}
    (after : ClockAfter w now newClock)
    (agrees : Agrees (clockConfig w.db.row) w.db.moves (clockReading w now).state) :
    Continues (clockConfig w.db.row) w.db.moves newClock := by
  rcases after with ⟨none, rfl⟩ | ⟨result, applied, accepted, rfl⟩
  · rw [none]
    exact firstClock_continues now
  · exact agrees.applyMove applied accepted

theorem appendMove_times {db db' : GameDb} {move : MoveRow} {input : FinishGameInput}
    (appended : db.appendMove move (some input) = some db') :
    db'.row.whiteTimeLeftMs = some input.whiteTimeLeftMs ∧
      db'.row.blackTimeLeftMs = some input.blackTimeLeftMs := by
  unfold GameDb.appendMove at appended
  split at appended
  · cases appended
  · split at appended
    · cases appended
    · cases appended
      exact ⟨rfl, rfl⟩

theorem initial_live (initial : w.Initial) : Live w := by
  refine ⟨initial.inFlight, initial_logged w initial, fun stored found => ?_, fun _ made => ?_,
    fun finished => absurd initial.active finished⟩
  · exact (initial_heals w initial).settled initial.inFlight found
  · exact absurd initial.moves made

/-- A served call keeps the log in order. -/
theorem served_logged (alternates : chess.Alternates) (live : Live w) (call : MoveCall) :
    Logged (call.served chess players w) := by
  obtain ⟨awaits, ran⟩ := @serve_run chess players w live.quiet
    (.makeMove call.userId call.uci) call.now
  have steps := Transition.System.run_steps w _ _ ran
    (Transition.System.guarded_always w _)
  exact steps.preserve Logged
    (fun s label t logged _ taken => step_logged alternates s label t logged taken) live.logged

/-- An accepted move keeps Redis and the rows together. -/
theorem serialMoves_live (alternates : chess.Alternates) (live : Live w) (call : MoveCall)
    (taken : (serialMoves chess players).step w call = some w') : Live w' := by
  simp only [serialMoves, Option.ite_none_right_eq_some, Option.some.injEq] at taken
  obtain ⟨longer, rfl⟩ := taken
  have logged := @served_logged chess players w alternates live call
  rcases @served_cases chess players w call with same | ⟨pending, finish, way, appended, goesOn,
    cleared, ends⟩
  · rw [same] at longer
    omega
  obtain ⟨active, -, moves, -, config, status⟩ := appendMove_some appended
  have agrees : Agrees (clockConfig (call.served chess players w).db.row)
      (call.served chess players w).db.moves pending.newClock := by
    rw [config, moves]
    have continues := way.clock.continues (clockReading_agrees live.logged live.entry call.now)
    apply continues.append
    · change pending.game.plyCount + 1 = w.db.moves.length + 1
      rw [way.game]
      rfl
    · change some (remainingOf pending.newClock pending.side) = _
      rw [way.side, live.logged.turn]
  refine ⟨serve_quiet live.quiet _ _, logged, fun stored found => ?_, fun still _ => ?_,
    fun finished => ?_⟩
  · cases finish with
    | none =>
        obtain ⟨held, found', state⟩ := goesOn rfl
        rw [found] at found'
        cases found'
        rw [state]
        exact agrees
    | some input =>
        rw [cleared (by simp)] at found
        cases found
  · rcases status with ⟨none, -⟩ | ⟨input, given, ended⟩
    · obtain ⟨stored, found, -⟩ := goesOn none
      exact ⟨stored, found⟩
    · exact absurd (ended.symm.trans still) (ends input given).1
  · rcases status with ⟨-, still⟩ | ⟨input, given, ended⟩
    · exact absurd still finished
    · subst given
      obtain ⟨white, black⟩ := appendMove_times appended
      obtain ⟨-, whiteLeft, blackLeft⟩ := ends input rfl
      exact ⟨pending.newClock, agrees, by rw [white, whiteLeft], by rw [black, blackLeft]⟩

end Invariant

/-- After every serial run of accepted moves, the clock that is put together from the stored
moves shows the same times for both sides and the same side to move as the entry in Redis,
which is there from the first move on; once a move has ended the game, the row holds those
times. -/
theorem reconstruction_agrees (chess : ChessJs) (alternates : chess.Alternates)
    (players : Nat → Option Nat) (w : World) (now : Int)
    (reached : (serialMoves chess players).Reachable w) :
    (∀ stored, w.clock = some stored →
      (reconstructClock w.db.findGame w.db.listMoves now).turn = stored.entry.state.turn ∧
      ∀ side, remainingOf (reconstructClock w.db.findGame w.db.listMoves now) side =
        remainingOf stored.entry.state side) ∧
    (w.db.row.status = .active → w.db.moves ≠ [] → ∃ stored, w.clock = some stored) ∧
    (w.db.row.status ≠ .active →
      w.db.row.whiteTimeLeftMs =
        some (reconstructClock w.db.findGame w.db.listMoves now).whiteRemainingMs ∧
      w.db.row.blackTimeLeftMs =
        some (reconstructClock w.db.findGame w.db.listMoves now).blackRemainingMs) := by
  have live : Live w := by
    apply reached.invariant Live
    · intro s initial
      exact initial_live initial
    · intro s call t live _ taken
      exact serialMoves_live alternates live call taken
  have rebuilt := reconstruct_agrees now (findGame_fits live.logged) live.logged.plies rfl
  refine ⟨fun stored found => ?_, live.held, fun finished => ?_⟩
  · have agrees := live.entry stored found
    exact ⟨rebuilt.turn.trans agrees.turn.symm,
      fun side => (rebuilt.times side).trans (agrees.times side).symm⟩
  · obtain ⟨state, agrees, white, black⟩ := live.finished finished
    have whiteSame := (rebuilt.times .w).trans (agrees.times .w).symm
    have blackSame := (rebuilt.times .b).trans (agrees.times .b).symm
    exact ⟨white.trans (congrArg some whiteSame.symm), black.trans (congrArg some blackSame.symm)⟩

def kingsPawns : List MoveCall := [⟨1, "e2e4", 0⟩, ⟨2, "e7e5", 1000⟩]

theorem kingsPawns_end :
    ((serialMoves openGame some).run newGame kingsPawns).map
      (fun w => (w.db.moves.length, w.clock.map fun stored => stored.entry.state)) =
      some (2, some ⟨60000, 59000, .w, 1000⟩) := by
  decide +kernel

/-- One move of each side. -/
theorem kingsPawns_rebuilt :
    ∃ w, (serialMoves openGame some).run newGame kingsPawns = some w ∧ w.db.moves.length = 2 ∧
      remainingOf (reconstructClock w.db.findGame w.db.listMoves 5000) .b = 59000 := by
  obtain ⟨w, ran, seen⟩ := Option.map_eq_some_iff.mp kingsPawns_end
  simp only [Prod.mk.injEq, Option.map_eq_some_iff] at seen
  obtain ⟨two, stored, found, state⟩ := seen
  refine ⟨w, ran, two, ?_⟩
  obtain ⟨same, -⟩ := reconstruction_agrees openGame openGame_alternates some w 5000
    (Transition.System.run_reachable newGame w kingsPawns newGame_initial ran)
  rw [(same stored found).2 .b, state]
  rfl

end Farzin.Play
