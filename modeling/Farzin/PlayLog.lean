import Farzin.PlayRequests

set_option autoImplicit false

/- What holds of the move log and of every request in flight, whatever the order of their
steps. -/
namespace Farzin.Play

section Shapes

variable {chess : ChessJs} {players : Nat → Option Nat}

/-- The move a request is about to record. -/
def Progress.pending : Progress → Option PendingMove
  | .counting pending => some pending
  | .appending pending _ => some pending
  | _ => none

/-- A position may end the game, but not on time. -/
def EndsOnBoard (finish : Option FinishGameInput) : Prop :=
  ∀ input, finish = some input → input.status ≠ .timeout ∧ input.status ≠ .active

theorem countPositions_onBoard (db : GameDb) (pending : PendingMove) :
    EndsOnBoard (countPositions db pending) := by
  intro input counted
  unfold countPositions at counted
  simp only [Option.ite_none_right_eq_some, Option.some.injEq] at counted
  rw [← counted.2]
  constructor <;> simp [PendingMove.finish]

/-- A legal move waits for the count of its position or goes to the database at once. -/
theorem playMove_cases {side : ClockSide} {uci : String} {now : Int} {game : LoadedGame}
    {newClock : ClockState} {elapsed : Int} {version source : Option Nat} {next : Progress}
    (played : playMove chess side uci now game newClock elapsed version source = some next) :
    ∃ move, chess.validateMove game.fen uci = some move ∧
      (next = .counting ⟨now, game, side, move, newClock, elapsed, version, source⟩ ∨
        ∃ finish, EndsOnBoard finish ∧
          next = .appending ⟨now, game, side, move, newClock, elapsed, version, source⟩ finish) := by
  unfold playMove at played
  cases legal : chess.validateMove game.fen uci with
  | none =>
      rw [legal] at played
      cases played
  | some move =>
      refine ⟨move, rfl, ?_⟩
      simp only [legal] at played
      cases ended : chess.gameEndFromPosition move.fenAfter [] with
      | some status =>
          simp only [ended, Option.some.injEq] at played
          refine .inr ⟨_, ?_, played.symm⟩
          intro input same
          cases same
          exact ChessJs.gameEnd_cases ended
      | none =>
          simp only [ended] at played
          split at played
          · cases played
            refine .inr ⟨none, ?_, rfl⟩
            intro input impossible
            cases impossible
          · cases played
            exact .inl rfl

/-- What a decision has found out about the clock it was given. -/
structure Decided (decision : TimeoutDecision) : Prop where
  used : decision.loser = decision.reading.state.turn →
    ∃ charge, chargeableMs (clockConfig decision.game.toGameRow)
      (elapsedMs decision.reading.state decision.now) = .ok charge ∧
      remainingOf decision.reading.state decision.loser ≤ charge
  loser : match decision.intent with
    | .move side _ => decision.loser = side
    | .flag => decision.loser = decision.reading.state.turn
    | .claim opponent => decision.loser = opponent

theorem toOption_some {ε α : Type} {result : Except ε α} {a : α} (some : toOption result = some a) :
    result = .ok a := by
  cases result with
  | error e => cases some
  | ok b =>
      cases some
      rfl

theorem used_of_remaining {config : ClockConfig} {state : ClockState} {side : ClockSide}
    {now left : Int} (read : remaining config state side now = .ok left) (out : ¬ 0 < left)
    (running : side = state.turn) :
    ∃ charge, chargeableMs config (elapsedMs state now) = .ok charge ∧
      remainingOf state side ≤ charge := by
  subst running
  exact remaining_le_zero read (by omega)

theorem judgeFlag_cases {now : Int} {game : LoadedGame} {reading : ClockReading} {next : Progress}
    (judged : judgeFlag now game reading = some next) :
    ∃ loser final, next = .timingOut ⟨now, game, .flag, reading, loser, final⟩ ∧
      Decided ⟨now, game, .flag, reading, loser, final⟩ := by
  unfold judgeFlag at judged
  simp only [Option.bind_eq_bind, Option.bind_eq_some_iff] at judged
  obtain ⟨left, read, judged⟩ := judged
  by_cases running : 0 < left
  · rw [if_pos running] at judged
    cases judged
  · rw [if_neg running, Option.bind_eq_some_iff] at judged
    obtain ⟨white, _, judged⟩ := judged
    rw [Option.bind_eq_some_iff] at judged
    obtain ⟨black, _, judged⟩ := judged
    cases judged
    refine ⟨_, _, rfl, ?_, rfl⟩
    exact used_of_remaining (toOption_some read) running

theorem judgeClaim_cases {opponent : ClockSide} {now : Int} {game : LoadedGame}
    {reading : ClockReading} {next : Progress}
    (judged : judgeClaim opponent now game reading = some next) :
    ∃ loser final, next = .timingOut ⟨now, game, .claim opponent, reading, loser, final⟩ ∧
      Decided ⟨now, game, .claim opponent, reading, loser, final⟩ := by
  unfold judgeClaim at judged
  simp only [Option.bind_eq_bind, Option.bind_eq_some_iff] at judged
  obtain ⟨left, read, judged⟩ := judged
  by_cases running : 0 < left
  · rw [if_pos running] at judged
    cases judged
  · rw [if_neg running] at judged
    cases judged
    refine ⟨_, _, rfl, ?_, rfl⟩
    exact used_of_remaining (toOption_some read) running

theorem chargeMove_cases {side : ClockSide} {uci : String} {now : Int} {game : LoadedGame}
    {reading : ClockReading} {next : Progress}
    (charged : chargeMove chess side uci now game reading = some next) :
    (∃ final, next = .timingOut ⟨now, game, .move side uci, reading, side, final⟩ ∧
      Decided ⟨now, game, .move side uci, reading, side, final⟩) ∨
    ∃ result, applyMove (clockConfig game.toGameRow) reading.state now = .ok result ∧
      result.flagged = false ∧
      playMove chess side uci now game result.state result.elapsedMs reading.version
        reading.source = some next := by
  unfold chargeMove at charged
  simp only [Option.bind_eq_bind, Option.bind_eq_some_iff] at charged
  obtain ⟨result, applied, charged⟩ := charged
  have applied := toOption_some applied
  obtain ⟨charge, known, outcome⟩ := applyMove_cases applied
  rcases outcome with ⟨fallen, exceeded⟩ | ⟨accepted, -, -, -⟩
  · rw [if_pos fallen] at charged
    cases charged
    refine .inl ⟨_, rfl, ?_, rfl⟩
    intro running
    refine ⟨charge, known, ?_⟩
    change remainingOf reading.state side ≤ charge
    rw [show side = reading.state.turn from running]
    exact exceeded.le
  · rw [accepted] at charged
    exact .inr ⟨result, applied, accepted, charged⟩

/-- With a clock in hand a request decides that time is up, or plays its move. -/
theorem judge_cases {intent : Intent} {now : Int} {game : LoadedGame} {reading : ClockReading}
    {next : Progress} (judged : judge chess intent now game reading = some next) :
    (∃ loser final, next = .timingOut ⟨now, game, intent, reading, loser, final⟩ ∧
      Decided ⟨now, game, intent, reading, loser, final⟩) ∨
    ∃ side uci result, intent = .move side uci ∧
      applyMove (clockConfig game.toGameRow) reading.state now = .ok result ∧
      result.flagged = false ∧
      playMove chess side uci now game result.state result.elapsedMs reading.version
        reading.source = some next := by
  cases intent with
  | move side uci =>
      rcases chargeMove_cases judged with ⟨final, timed⟩ | ⟨result, played⟩
      · exact .inl ⟨side, final, timed⟩
      · exact .inr ⟨side, uci, result, rfl, played⟩
  | flag => exact .inl (judgeFlag_cases judged)
  | claim opponent => exact .inl (judgeClaim_cases judged)

/-- Only a player on move, or someone asking about a started clock, gets past the checks. -/
theorem checkRequest_cases {request : Request} {now : Int} {game : LoadedGame} {next : Progress}
    (checked : checkRequest chess players request now game = some next) :
    (∃ uci, game.plyCount = 0 ∧
      playMove chess (sideToMove game.fen) uci now game
        (firstClock (clockConfig game.toGameRow) now) 0 none none = some next) ∨
    ∃ intent, next = .loaded intent now game ∧ game.plyCount ≠ 0 ∧
      ∀ side uci, intent = .move side uci → side = sideToMove game.fen := by
  unfold checkRequest at checked
  split at checked
  · cases checked
  · cases request with
    | makeMove userId uci =>
        simp only [Option.bind_eq_bind, Option.bind_eq_some_iff] at checked
        obtain ⟨side, _, checked⟩ := checked
        by_cases turn : sideToMove game.fen = side
        · rw [if_neg (fun apart => apart turn)] at checked
          by_cases first : game.plyCount + 1 = 1
          · rw [if_pos first] at checked
            refine .inl ⟨uci, by omega, ?_⟩
            rw [turn]
            exact checked
          · rw [if_neg first] at checked
            cases checked
            refine .inr ⟨_, rfl, by omega, ?_⟩
            intro s u same
            cases same
            exact turn.symm
        · rw [if_pos turn] at checked
          cases checked
    | checkFlag =>
        by_cases first : game.plyCount = 0
        · simp only [first, if_true] at checked
          cases checked
        · simp only [first, if_false] at checked
          cases checked
          exact .inr ⟨_, rfl, first, fun _ _ same => by cases same⟩
    | claimTimeout userId =>
        simp only [Option.bind_eq_bind, Option.bind_eq_some_iff] at checked
        obtain ⟨side, _, checked⟩ := checked
        by_cases first : game.plyCount = 0
        · rw [if_pos first] at checked
          cases checked
        · rw [if_neg first] at checked
          cases checked
          exact .inr ⟨_, rfl, first, fun _ _ same => by cases same⟩

end Shapes

section Database

variable {db db' : GameDb}

/-- An appended move is the only one with its ply, and the game was still running. -/
theorem appendMove_some {move : MoveRow} {finish : Option FinishGameInput}
    (appended : db.appendMove move finish = some db') :
    db.row.status = .active ∧ (∀ m ∈ db.moves, m.ply ≠ move.ply) ∧
      db'.moves = db.moves ++ [move] ∧ db'.row.fen = move.fenAfter ∧
      clockConfig db'.row = clockConfig db.row ∧
      ((finish = none ∧ db'.row.status = .active) ∨
        ∃ input, finish = some input ∧ db'.row.status = input.status) := by
  unfold GameDb.appendMove at appended
  split at appended
  · cases appended
  · rename_i unique
    split at appended
    · cases appended
    · rename_i active
      rw [not_not] at active
      cases appended
      refine ⟨active, ?_, rfl, ?_, ?_, ?_⟩
      · intro m inside same
        apply unique
        rw [List.any_eq_true]
        exact ⟨m, inside, decide_eq_true same⟩
      · cases finish <;> rfl
      · cases finish <;> rfl
      · cases finish with
        | none => exact .inl ⟨rfl, active⟩
        | some input => exact .inr ⟨input, rfl, rfl⟩

theorem finishGame_some {finish : FinishGameInput} (done : db.finishGame finish = some db') :
    db.row.status = .active ∧ db' = { db with row := GameDb.finished db.row finish } := by
  unfold GameDb.finishGame at done
  split at done
  · cases done
  · rename_i active
    rw [not_not] at active
    cases done
    exact ⟨active, rfl⟩

end Database

section Invariant

/-- What a request knows of the game it has loaded. -/
structure GameFits (db : GameDb) (game : LoadedGame) : Prop where
  plies : game.plyCount ≤ db.moves.length
  turn : sideToMove game.fen = sideAfter game.plyCount
  config : clockConfig game.toGameRow = clockConfig db.row

def IntentFits (intent : Intent) (game : LoadedGame) : Prop :=
  ∀ side uci, intent = .move side uci → side = sideAfter game.plyCount

structure PendingFits (db : GameDb) (pending : PendingMove) : Prop where
  game : GameFits db pending.game
  side : pending.side = sideAfter pending.game.plyCount
  after : sideToMove pending.move.fenAfter = sideAfter (pending.game.plyCount + 1)

def Progress.Fits (db : GameDb) : Progress → Prop
  | .begun _ _ => True
  | .loaded intent _ game => GameFits db game ∧ game.plyCount ≠ 0 ∧ IntentFits intent game
  | .noEntry intent _ game => GameFits db game ∧ game.plyCount ≠ 0 ∧ IntentFits intent game
  | .counting pending => PendingFits db pending
  | .appending pending finish => PendingFits db pending ∧ EndsOnBoard finish
  | .timingOut decision =>
      GameFits db decision.game ∧ IntentFits decision.intent decision.game ∧ Decided decision
  | .writing write => write.ply ≤ db.moves.length
  | .clearing => True

/-- The plies of the log are one to its length, the stored position is the one after the
last move, and the requests fit. -/
structure Logged (w : World) : Prop where
  plies : w.db.moves.map MoveRow.ply = List.range' 1 w.db.moves.length
  turn : sideToMove w.db.row.fen = sideAfter w.db.moves.length
  requests : ∀ p ∈ w.inFlight, p.Fits w.db

/-- A log only grows, and the time control stays. -/
structure Grows (db db' : GameDb) : Prop where
  moves : db.moves.length ≤ db'.moves.length
  config : clockConfig db'.row = clockConfig db.row

theorem Grows.refl (db : GameDb) : Grows db db := ⟨le_rfl, rfl⟩

variable {db db' : GameDb}

theorem GameFits.grow {game : LoadedGame} (fits : GameFits db game) (grows : Grows db db') :
    GameFits db' game :=
  ⟨fits.plies.trans grows.moves, fits.turn, fits.config.trans grows.config.symm⟩

theorem PendingFits.grow {pending : PendingMove} (fits : PendingFits db pending)
    (grows : Grows db db') : PendingFits db' pending :=
  ⟨fits.game.grow grows, fits.side, fits.after⟩

theorem Progress.Fits.grow {p : Progress} (fits : p.Fits db) (grows : Grows db db') :
    p.Fits db' := by
  cases p with
  | begun | clearing => trivial
  | loaded | noEntry => exact ⟨fits.1.grow grows, fits.2⟩
  | counting => exact PendingFits.grow fits grows
  | appending => exact ⟨fits.1.grow grows, fits.2⟩
  | timingOut => exact ⟨fits.1.grow grows, fits.2⟩
  | writing => exact le_trans fits grows.moves

/-- A move appended by a request that fits is the next one of the log. -/
theorem Logged.append_ply {w : World} (logged : Logged w) {pending : PendingMove}
    {finish : Option FinishGameInput} (fits : PendingFits w.db pending)
    (appended : w.db.appendMove pending.row finish = some db') :
    pending.game.plyCount = w.db.moves.length := by
  obtain ⟨-, unique, -⟩ := appendMove_some appended
  by_contra apart
  have below : pending.game.plyCount < w.db.moves.length := by
    have := fits.game.plies
    omega
  have listed : pending.game.plyCount + 1 ∈ w.db.moves.map MoveRow.ply := by
    rw [logged.plies, List.mem_range'_1]
    omega
  obtain ⟨m, inside, ply⟩ := List.mem_map.mp listed
  exact unique m inside ply

theorem append_grows {pending : PendingMove} {finish : Option FinishGameInput}
    (appended : db.appendMove pending.row finish = some db') : Grows db db' := by
  obtain ⟨-, -, moves, -, config, -⟩ := appendMove_some appended
  exact ⟨by rw [moves, List.length_append]; omega, config⟩

theorem finish_grows {finish : FinishGameInput} (done : db.finishGame finish = some db') :
    Grows db db' := by
  obtain ⟨-, rfl⟩ := finishGame_some done
  exact ⟨le_rfl, rfl⟩

variable {chess : ChessJs} {players : Nat → Option Nat}

theorem playMove_fits (alternates : chess.Alternates) {side : ClockSide} {uci : String} {now : Int}
    {game : LoadedGame} {newClock : ClockState} {elapsed : Int} {version source : Option Nat}
    {next : Progress} (fits : GameFits db game) (mover : side = sideAfter game.plyCount)
    (played : playMove chess side uci now game newClock elapsed version source = some next) :
    next.Fits db := by
  obtain ⟨move, legal, shape⟩ := playMove_cases played
  have after : sideToMove move.fenAfter = sideAfter (game.plyCount + 1) := by
    rw [alternates.validated legal, fits.turn, sideAfter_succ]
  rcases shape with rfl | ⟨finish, onBoard, rfl⟩
  · exact ⟨fits, mover, after⟩
  · exact ⟨⟨fits, mover, after⟩, onBoard⟩

theorem judge_fits (alternates : chess.Alternates) {intent : Intent} {now : Int} {game : LoadedGame}
    {reading : ClockReading} {next : Progress} (fits : GameFits db game)
    (intended : IntentFits intent game) (judged : judge chess intent now game reading = some next) :
    next.Fits db := by
  rcases judge_cases judged with ⟨loser, final, rfl, decided⟩ | ⟨side, uci, _, same, -, -, played⟩
  · exact ⟨fits, intended, decided⟩
  · exact playMove_fits alternates fits (intended side uci same) played

theorem findGame_fits {w : World} (logged : Logged w) : GameFits w.db w.db.findGame :=
  ⟨le_rfl, logged.turn, rfl⟩

theorem checkRequest_fits (alternates : chess.Alternates) {w : World} (logged : Logged w)
    {request : Request} {now : Int} {next : Progress}
    (checked : checkRequest chess players request now w.db.findGame = some next) : next.Fits w.db := by
  have fits := findGame_fits logged
  rcases checkRequest_cases checked with ⟨uci, -, played⟩ | ⟨intent, rfl, started, mover⟩
  · exact playMove_fits alternates fits fits.turn played
  · exact ⟨fits, started, fun side uci same => (mover side uci same).trans fits.turn⟩

/-- What a request in flight does next leaves a log in order and goes on fitting it. -/
structure Moves (w next : World) (rest : Option Progress) : Prop where
  grows : Grows w.db next.db
  plies : next.db.moves.map MoveRow.ply = List.range' 1 next.db.moves.length
  turn : sideToMove next.db.row.fen = sideAfter next.db.moves.length
  rest : ∀ q ∈ rest, q.Fits next.db

theorem Moves.same {w next : World} {rest : Option Progress} (logged : Logged w)
    (kept : next.db = w.db) (fits : ∀ q ∈ rest, q.Fits w.db) : Moves w next rest := by
  refine ⟨?_, ?_, ?_, ?_⟩
  all_goals rw [kept]
  · exact .refl w.db
  · exact logged.plies
  · exact logged.turn
  · exact fits

theorem appendPending_moves {w : World} (logged : Logged w) {pending : PendingMove}
    {finish : Option FinishGameInput} (fits : PendingFits w.db pending) :
    Moves w (appendPending w pending finish).1 (appendPending w pending finish).2 := by
  unfold appendPending
  cases appended : w.db.appendMove pending.row finish with
  | none => exact .same logged rfl fun q none => by cases none
  | some db =>
      have last := logged.append_ply fits appended
      obtain ⟨-, -, moves, fen, -, -⟩ := appendMove_some appended
      have length : db.moves.length = w.db.moves.length + 1 := by
        rw [moves, List.length_append, List.length_singleton]
      refine ⟨append_grows appended, ?_, ?_, ?_⟩
      · change db.moves.map MoveRow.ply = List.range' 1 db.moves.length
        rw [length, List.range'_concat, moves, List.map_append, logged.plies, ← last]
        simp [PendingMove.row, add_comm]
      · change sideToMove db.row.fen = sideAfter db.moves.length
        rw [length, fen, ← last]
        exact fits.after
      · intro q same
        cases same
        change pending.game.plyCount + 1 ≤ db.moves.length
        omega

theorem finishByTimeout_moves {w : World} (logged : Logged w) (decision : TimeoutDecision) :
    Moves w (finishByTimeout chess w decision).1 (finishByTimeout chess w decision).2 := by
  unfold finishByTimeout
  cases done : w.db.finishGame (decision.finish chess) with
  | none => exact .same logged rfl fun q none => by cases none
  | some db =>
      obtain ⟨-, rfl⟩ := finishGame_some done
      refine ⟨finish_grows done, logged.plies, logged.turn, ?_⟩
      intro q same
      cases same
      trivial

theorem writeClock_db (w : World) (write : ClockWrite) :
    (writeClock w write).1.db = w.db ∧
      ((writeClock w write).2 = none ∨ (writeClock w write).2 = some .clearing) := by
  unfold writeClock
  split
  · exact ⟨rfl, .inl rfl⟩
  · split
    · exact ⟨rfl, .inl rfl⟩
    · split
      · exact ⟨rfl, .inl rfl⟩
      · split
        · exact ⟨rfl, .inl rfl⟩
        · exact ⟨rfl, .inr rfl⟩

theorem advance_moves (alternates : chess.Alternates) {w : World} (logged : Logged w)
    {p : Progress} (fits : p.Fits w.db) :
    Moves w (advance chess players w p).1 (advance chess players w p).2 := by
  cases p with
  | begun request now => exact .same logged rfl fun q next => checkRequest_fits alternates logged next
  | loaded intent now game =>
      refine .same logged rfl fun q next => ?_
      change loadClock chess w intent now game = some q at next
      unfold loadClock at next
      cases entry : w.clock with
      | none =>
          rw [entry] at next
          cases next
          exact fits
      | some stored =>
          rw [entry] at next
          exact judge_fits alternates fits.1 fits.2.2 next
  | noEntry intent now game =>
      exact .same logged rfl fun q next => judge_fits alternates fits.1 fits.2.2 next
  | counting pending =>
      refine .same logged rfl fun q next => ?_
      cases next
      exact ⟨fits, countPositions_onBoard w.db pending⟩
  | appending pending finish => exact appendPending_moves logged fits.1
  | timingOut decision => exact finishByTimeout_moves logged decision
  | writing write =>
      obtain ⟨kept, ended | clearing⟩ := writeClock_db w write
      · exact .same logged kept fun q next => by
          change q ∈ (writeClock w write).2 at next
          rw [ended] at next
          cases next
      · exact .same logged kept fun q next => by
          change q ∈ (writeClock w write).2 at next
          rw [clearing] at next
          cases next
          trivial
  | clearing => exact .same logged rfl fun q none => by cases none

/-- A step of a request in flight replaces it by what is left of it. -/
theorem advance_taken {w w' : World} {index : Nat}
    (taken : (worlds chess players).step w (.advance index) = some w') :
    ∃ p, w.inFlight[index]? = some p ∧
      w' = { (advance chess players w p).1 with
        inFlight := w.inFlight.eraseIdx index ++ (advance chess players w p).2.toList } := by
  change w.step chess players (.advance index) = some w' at taken
  unfold World.step at taken
  cases here : w.inFlight[index]? with
  | none =>
      simp only [here] at taken
      cases taken
  | some p =>
      simp only [here, Option.some.injEq] at taken
      exact ⟨p, rfl, taken.symm⟩

/-- Every step keeps the log and the requests in order. -/
theorem step_logged (alternates : chess.Alternates) (w : World) (label : WorldLabel) (w' : World)
    (logged : Logged w) (taken : (worlds chess players).step w label = some w') : Logged w' := by
  cases label with
  | arrive request now =>
      cases taken
      refine ⟨logged.plies, logged.turn, fun p inside => ?_⟩
      rcases List.mem_append.mp inside with old | new
      · exact logged.requests p old
      · cases List.mem_singleton.mp new
        trivial
  | expire =>
      cases taken
      exact ⟨logged.plies, logged.turn, logged.requests⟩
  | advance index =>
      obtain ⟨p, here, rfl⟩ := advance_taken taken
      have moves := @advance_moves chess players alternates w logged p
        (logged.requests p (List.mem_of_getElem? here))
      refine ⟨moves.plies, moves.turn, fun q inside => ?_⟩
      rcases List.mem_append.mp inside with old | new
      · exact (logged.requests q (List.mem_of_mem_eraseIdx old)).grow moves.grows
      · exact moves.rest q (Option.mem_toList.mp new)

theorem initial_logged (w : World) (initial : w.Initial) : Logged w := by
  refine ⟨?_, ?_, ?_⟩
  · rw [initial.moves]
    rfl
  · rw [initial.moves, initial.fen]
    decide
  · rw [initial.inFlight]
    intro p inside
    cases inside

end Invariant

end Farzin.Play
