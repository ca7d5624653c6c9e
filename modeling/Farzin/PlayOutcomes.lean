import Farzin.PlayResults
import Farzin.RatingSources

set_option autoImplicit false

/- How a game that is over was decided, and that its PGN token (`pgnResult` of
`play/play.service.ts`) and its rated result (`rating/online-result-mapping.ts`) say the same. -/
namespace Farzin.Play

open Rating (GameResult onlineRatedResult)

def pgnResult (status : OnlineGameStatusValue) (winnerColor : Option ColorValue) : String :=
  if status = .aborted ∨ status = .pending ∨ status = .active then "*"
  else match winnerColor with
    | some .white => "1-0"
    | some .black => "0-1"
    | none => "1/2-1/2"

/-- The results that the position alone decides. -/
def boardStatuses : List OnlineGameStatusValue :=
  [.checkmate, .stalemate, .insufficientMaterial, .fiftyMoveRule]

section Outcomes

variable (chess : ChessJs)

/-- A move ends the game by the position it leads to, or as the third of its kind. -/
def PendingMove.Ends (pending : PendingMove) (finish : Option FinishGameInput) : Prop :=
  ∀ input, finish = some input → ∃ status, input = pending.finish status ∧
    (status = .threefoldRepetition ∨
      chess.gameEndFromPosition pending.move.fenAfter [] = some status)

/-- A request that moves is of the side to move. -/
def Progress.Concludes : Progress → Prop
  | .loaded (.move side _) _ game => side = sideToMove game.fen
  | .noEntry (.move side _) _ game => side = sideToMove game.fen
  | .counting pending => pending.side = sideToMove pending.game.fen
  | .appending pending finish =>
      pending.side = sideToMove pending.game.fen ∧ pending.Ends chess finish
  | _ => True

/-- The winner of a result that is declared. -/
def Declared (status : OnlineGameStatusValue) (winnerColor : Option ColorValue) : Prop :=
  status = .abandoned ∨ (status = .resignation ∧ winnerColor.isSome) ∨
    ((status = .drawAgreed ∨ status = .aborted) ∧ winnerColor = none)

def Stage.Concludes : Stage → Prop
  | .timed progress => progress.Concludes chess
  | .listing ending => Declared ending.status ending.winnerColor
  | .loading ending _ _ => Declared ending.status ending.winnerColor
  | .finishing finish => Declared finish.status finish.winnerColor
  | _ => True

/-- How a game that is over ended: by the position that is stored, with the side that moved last
as the winner by mate, or by a decision. -/
structure Concluded (db : GameDb) : Prop where
  position : db.row.status ∈ boardStatuses →
    chess.gameEndFromPosition db.row.fen [] = some db.row.status
  mate : db.row.status = .checkmate → ∃ before last, db.moves = before ++ [last] ∧
    db.row.winnerColor = some (sideToMove (lastPosition before)).color
  decided : Declared db.row.status db.row.winnerColor ∨ db.row.status ∈ boardStatuses ∨
    db.row.status = .threefoldRepetition ∨ db.row.status = .timeout ∨
    db.row.status = .timeoutVsInsufficientMaterial
  winner : (db.row.status = .timeout → db.row.winnerColor.isSome) ∧
    ((db.row.status ∈ boardStatuses ∧ db.row.status ≠ .checkmate) ∨
      db.row.status = .threefoldRepetition ∨ db.row.status = .timeoutVsInsufficientMaterial →
      db.row.winnerColor = none)

variable {chess} {players : Nat → Option Nat}

theorem gameEnd_boardStatuses {fen : String} {status : OnlineGameStatusValue}
    (ended : chess.gameEndFromPosition fen [] = some status) : status ∈ boardStatuses := by
  unfold ChessJs.gameEndFromPosition at ended
  split at ended
  · cases ended
    decide
  · split at ended
    · cases ended
      decide
    · split at ended
      · cases ended
        decide
      · split at ended
        · cases ended
          decide
        · rw [if_neg (by simp)] at ended
          cases ended

theorem playMove_concludes {side : ClockSide} {uci : String} {now : Int} {game : LoadedGame}
    {newClock : ClockState} {elapsed : Int} {version source : Option Nat} {next : Progress}
    (turn : side = sideToMove game.fen)
    (played : playMove chess side uci now game newClock elapsed version source = some next) :
    next.Concludes chess := by
  unfold playMove at played
  split at played
  · cases played
  · split at played
    · rename_i status ended
      cases played
      refine ⟨turn, fun input same => ?_⟩
      cases same
      exact ⟨status, rfl, .inr ended⟩
    · split at played
      · cases played
        exact ⟨turn, fun input none => by cases none⟩
      · cases played
        exact turn

theorem judge_concludes {intent : Intent} {now : Int} {game : LoadedGame} {reading : ClockReading}
    {next : Progress} (turn : ∀ side uci, intent = .move side uci → side = sideToMove game.fen)
    (judged : judge chess intent now game reading = some next) : next.Concludes chess := by
  rcases judge_cases judged with ⟨loser, final, rfl, -⟩ | ⟨side, uci, _, same, -, -, played⟩
  · trivial
  · exact playMove_concludes (turn side uci same) played

theorem countPositions_ends (db : GameDb) (pending : PendingMove) :
    pending.Ends chess (countPositions db pending) := by
  intro input counted
  unfold countPositions at counted
  simp only [Option.ite_none_right_eq_some, Option.some.injEq] at counted
  exact ⟨_, counted.2.symm, .inl rfl⟩

/-- What a request waits for was decided by the side to move. -/
theorem Progress.Concludes.turn {intent : Intent} {now : Int} {game : LoadedGame}
    (concludes : (Progress.loaded intent now game).Concludes chess ∨
      (Progress.noEntry intent now game).Concludes chess) :
    ∀ side uci, intent = .move side uci → side = sideToMove game.fen := by
  rintro side uci rfl
  exact concludes.elim id id

theorem advance_concludes {w : World} {p q : Progress} (concludes : p.Concludes chess)
    (next : q ∈ (advance chess players w p).2) : q.Concludes chess := by
  cases p with
  | begun request now =>
      rcases checkRequest_cases next with ⟨uci, -, played⟩ | ⟨intent, rfl, -, turn⟩
      · exact playMove_concludes rfl played
      · cases intent with
        | move side uci => exact turn side uci rfl
        | flag | claim => trivial
  | loaded intent now game =>
      have turn := Progress.Concludes.turn (.inl concludes)
      change loadClock chess w intent now game = some q at next
      unfold loadClock at next
      split at next
      · cases next
        cases intent with
        | move side uci => exact turn side uci rfl
        | flag | claim => trivial
      · exact judge_concludes turn next
  | noEntry intent now game =>
      exact judge_concludes (Progress.Concludes.turn (.inr concludes)) next
  | counting pending =>
      cases next
      exact ⟨concludes, countPositions_ends w.db pending⟩
  | appending pending finish =>
      change (appendPending w pending finish).2 = some q at next
      unfold appendPending at next
      split at next
      · cases next
      · cases next
        trivial
  | timingOut decision =>
      change (finishByTimeout chess w decision).2 = some q at next
      unfold finishByTimeout at next
      split at next
      · cases next
      · cases next
        trivial
  | writing write =>
      obtain ⟨-, rest⟩ := writeClock_db w write
      change (writeClock w write).2 = some q at next
      rcases rest with finished | clearing
      · rw [finished] at next
        cases next
      · rw [clearing] at next
        cases next
        trivial
  | clearing => cases next

theorem checkEnding_concludes {game : LoadedGame} {request : EndingRequest} {next : Stage}
    (checked : checkEnding players game request = some next) : next.Concludes chess := by
  cases request with
  | resign userId =>
      simp only [checkEnding, Option.bind_eq_bind, Option.bind_eq_some_iff] at checked
      obtain ⟨side, -, same⟩ := checked
      cases same
      exact .inr (.inl ⟨rfl, rfl⟩)
  | offerDraw userId =>
      simp only [checkEnding, Option.bind_eq_bind, Option.bind_eq_some_iff] at checked
      obtain ⟨side, -, same⟩ := checked
      cases same
      trivial
  | acceptDraw userId =>
      simp only [checkEnding, Option.bind_eq_bind, Option.bind_eq_some_iff] at checked
      obtain ⟨side, -, same⟩ := checked
      cases same
      trivial
  | abort userId =>
      simp only [checkEnding, Option.bind_eq_bind, Option.bind_eq_some_iff] at checked
      obtain ⟨side, -, same⟩ := checked
      split at same
      · cases same
      · cases same
        exact .inr (.inr ⟨.inr rfl, rfl⟩)
  | abandonAfterDisconnect goneSide opponentConnected =>
      simp only [checkEnding] at checked
      split at checked
      · cases checked
      · cases checked
        exact .inl rfl

/-- A request that goes on still concludes by the rules. -/
theorem board_concludes {b : Board} {now : Int} {stage q : Stage}
    (concludes : stage.Concludes chess) (next : q ∈ (b.advance chess players now stage).2) :
    q.Concludes chess := by
  cases stage with
  | timed p =>
      rcases advanceTimed_next next with ⟨progress, left, rfl⟩ | ⟨clock, rfl⟩
      · exact advance_concludes concludes left
      · trivial
  | endMove clock =>
      cases clock with
      | none => cases next
      | some progress =>
          cases next
          trivial
  | begun request => exact checkEnding_concludes next
  | offering side => cases next
  | answering side game =>
      change answerDraw side game b.drawOffer = some q at next
      unfold answerDraw at next
      split at next
      · cases next
      · cases next
        exact .inr (.inr ⟨.inl rfl, rfl⟩)
  | listing ending =>
      cases next
      exact concludes
  | loading ending moves started =>
      change finishNoMove ending moves started b.clock = some q at next
      simp only [finishNoMove, Option.bind_eq_bind, Option.bind_eq_some_iff] at next
      obtain ⟨white, -, black, -, same⟩ := next
      cases same
      exact concludes
  | finishing finish =>
      simp only [Board.advance] at next
      split at next
      · cases next
      · cases next
        trivial
  | clearing => cases next

end Outcomes

section Runs

variable {chess : ChessJs} {players : Nat → Option Nat} {db db' : GameDb}

theorem appendMove_finished {move : MoveRow} {finish : Option FinishGameInput}
    (appended : db.appendMove move finish = some db') :
    (finish = none ∧ db'.row.status = .active) ∨ ∃ input, finish = some input ∧
      db'.row = GameDb.finished { db.row with fen := move.fenAfter } input ∧
      db'.moves = db.moves ++ [move] := by
  obtain ⟨-, -, -, -, -, ⟨bare, active⟩ | ⟨input, some, -⟩⟩ := appendMove_some appended
  · exact .inl ⟨bare, active⟩
  · subst some
    refine .inr ⟨input, rfl, ?_⟩
    unfold GameDb.appendMove at appended
    split at appended
    · cases appended
    · split at appended
      · cases appended
      · cases appended
        exact ⟨rfl, rfl⟩

theorem Concluded.move {pending : PendingMove} {input : FinishGameInput}
    (recorded : Recorded chess db) (seen : PendingSeen chess db pending)
    (turn : pending.side = sideToMove pending.game.fen) (ends : pending.Ends chess (some input))
    (appended : db.appendMove pending.row (some input) = some db') : Concluded chess db' := by
  have last := recorded.append_ply seen appended
  have before : pending.game.fen = lastPosition db.moves := by
    rw [seen.game.position, last, List.take_length]
  obtain ⟨bare, -⟩ | ⟨same, given, row, moves⟩ := appendMove_finished appended
  · cases bare
  cases given
  obtain ⟨status, rfl, rule⟩ := ends input rfl
  have stored : db'.row.status = status := congrArg GameRow.status row
  have winner : db'.row.winnerColor =
      if status = .checkmate then some pending.side.color else none :=
    congrArg GameRow.winnerColor row
  have fen : db'.row.fen = pending.move.fenAfter := congrArg GameRow.fen row
  have decided : status ∈ boardStatuses ∨ status = .threefoldRepetition :=
    rule.symm.imp gameEnd_boardStatuses id
  constructor
  case position =>
    rw [stored, fen]
    intro byBoard
    rcases rule with rfl | ended
    · exact absurd byBoard (by decide)
    · exact ended
  case mate =>
    rw [stored, winner]
    intro mate
    exact ⟨db.moves, pending.row, moves, by rw [if_pos mate, turn, before]⟩
  case decided =>
    rw [stored]
    exact .inr (decided.imp id .inl)
  case winner =>
    rw [stored, winner]
    refine ⟨fun timeout => ?_, fun drawn => if_neg fun mate => ?_⟩
    · subst timeout
      exact absurd decided (by decide)
    · rcases drawn with ⟨-, other⟩ | other | other
      · exact other mate
      · rw [mate] at other
        cases other
      · rw [mate] at other
        cases other

theorem Concluded.timeout {decision : TimeoutDecision}
    (done : db.finishGame (decision.finish chess) = some db') : Concluded chess db' := by
  obtain ⟨-, rfl⟩ := finishGame_some done
  cases material : chess.hasMatingMaterial decision.game.fen decision.loser.other with
  | true =>
      have status : (decision.finish chess).status = .timeout := by
        simp [TimeoutDecision.finish, material]
      have winner : (decision.finish chess).winnerColor.isSome := by
        simp [TimeoutDecision.finish, material]
      constructor <;> simp [GameDb.finished, status, winner, boardStatuses]
  | false =>
      have status : (decision.finish chess).status = .timeoutVsInsufficientMaterial := by
        simp [TimeoutDecision.finish, material]
      have winner : (decision.finish chess).winnerColor = none := by
        simp [TimeoutDecision.finish, material]
      constructor <;> simp [GameDb.finished, status, winner, boardStatuses]

theorem Concluded.declared {finish : FinishGameInput}
    (declared : Declared finish.status finish.winnerColor)
    (done : db.finishGame finish = some db') : Concluded chess db' := by
  obtain ⟨-, rfl⟩ := finishGame_some done
  have plain : finish.status ∉ boardStatuses ∧ finish.status ≠ .checkmate ∧
      finish.status ≠ .timeout ∧ finish.status ≠ .threefoldRepetition ∧
      finish.status ≠ .timeoutVsInsufficientMaterial := by
    rcases declared with same | ⟨same, -⟩ | ⟨same | same, -⟩ <;> rw [same] <;> decide
  obtain ⟨board, mate, timeout, threefold, material⟩ := plain
  constructor
  case position => exact fun byBoard => absurd byBoard board
  case mate => exact fun byMate => absurd byMate mate
  case decided => exact .inl declared
  case winner =>
    refine ⟨fun timedOut => absurd timedOut timeout, ?_⟩
    rintro (⟨byBoard, -⟩ | third | insufficient)
    · exact absurd byBoard board
    · exact absurd third threefold
    · exact absurd insufficient material

/-- A step of a timed request leaves the game running, or ends it by the rules. -/
theorem advance_concluded {w : World} (recorded : Recorded chess w.db) {p : Progress}
    (seen : p.Seen chess w.db) (concludes : p.Concludes chess)
    (running : w.db.row.status = .active) :
    (advance chess players w p).1.db.row.status = .active ∨
      Concluded chess (advance chess players w p).1.db := by
  cases p with
  | appending pending finish =>
      change (appendPending w pending finish).1.db.row.status = .active ∨
        Concluded chess (appendPending w pending finish).1.db
      unfold appendPending
      cases appended : w.db.appendMove pending.row finish with
      | none => exact .inl running
      | some db =>
          cases finish with
          | none =>
              obtain ⟨-, active⟩ | ⟨input, none, -⟩ := appendMove_finished appended
              · exact .inl active
              · cases none
          | some input =>
              exact .inr (Concluded.move recorded seen concludes.1 concludes.2 appended)
  | timingOut decision =>
      change (finishByTimeout chess w decision).1.db.row.status = .active ∨
        Concluded chess (finishByTimeout chess w decision).1.db
      unfold finishByTimeout
      cases done : w.db.finishGame (decision.finish chess) with
      | none => exact .inl running
      | some db => exact .inr (Concluded.timeout done)
  | writing write =>
      change (writeClock w write).1.db.row.status = .active ∨ _
      rw [(writeClock_db w write).1]
      exact .inl running
  | begun | loaded | noEntry | counting | clearing => exact .inl running

structure Board.Fair (chess : ChessJs) (b : Board) : Prop where
  sound : b.Sound chess
  requests : ∀ stage ∈ b.inFlight, stage.Concludes chess
  concluded : b.db.row.status ≠ .active → Concluded chess b.db

theorem Board.Fair.step {b b' : Board} (fair : b.Fair chess) {label : BoardLabel}
    (taken : b.step chess players label = some b') : b'.Fair chess := by
  obtain ⟨sound, requests, concluded⟩ := fair
  obtain ⟨after, writes⟩ := step_sound sound taken
  refine ⟨after, ?_, ?_⟩
  · cases label with
    | arrive | arriveEnding =>
        cases taken
        intro stage inside
        rcases List.mem_append.mp inside with old | new
        · exact requests stage old
        · cases List.mem_singleton.mp new
          trivial
    | expireClock | expireOffer =>
        cases taken
        exact requests
    | advance index now =>
        obtain ⟨stage, here, rfl⟩ := board_advance_taken taken
        intro q inside
        rcases List.mem_append.mp inside with old | new
        · exact requests q (List.mem_of_mem_eraseIdx old)
        · exact board_concludes (requests stage (List.mem_of_getElem? here))
            (Option.mem_toList.mp new)
  · intro ended
    by_cases running : b.db.row.status = .active
    swap
    · rw [writes.frozen running]
      exact concluded running
    cases label with
    | arrive | arriveEnding | expireClock | expireOffer =>
        cases taken
        exact absurd running ended
    | advance index now =>
        obtain ⟨stage, here, rfl⟩ := board_advance_taken taken
        have member := List.mem_of_getElem? here
        change (b.advance chess players now stage).1.db.row.status ≠ .active at ended
        change Concluded chess (b.advance chess players now stage).1.db
        cases stage with
        | timed p =>
            rw [advance_timed_db] at ended ⊢
            exact (advance_concluded (w := b.world) sound.recorded (sound.requests _ member)
              (requests _ member) running).resolve_left ended
        | endMove clock => cases clock <;> exact absurd running ended
        | begun | offering | answering | listing | loading | clearing =>
            exact absurd running ended
        | finishing finish =>
            have declared := requests _ member
            simp only [Board.advance] at ended ⊢
            cases done : b.db.finishGame finish with
            | none =>
                rw [done] at ended
                exact absurd running ended
            | some db =>
                exact Concluded.declared declared done

end Runs

/-- The token of a rated result. -/
def resultToken : GameResult → String
  | .whiteWin => "1-0"
  | .blackWin => "0-1"
  | .draw => "1/2-1/2"

/-- The winner of a rated result. -/
def resultWinner : GameResult → Option ColorValue
  | .whiteWin => some .white
  | .blackWin => some .black
  | .draw => none

open Rating (DRAW_ONLINE_STATUSES)

/-- Who won goes with how the game ended. -/
theorem Concluded.winners {chess : ChessJs} {db : GameDb} (concluded : Concluded chess db) :
    (db.row.status ∈ [.checkmate, .resignation, .timeout] → db.row.winnerColor.isSome) ∧
      (db.row.status ∈ .aborted :: DRAW_ONLINE_STATUSES → db.row.winnerColor = none) := by
  have decided := concluded.decided
  have drawn := concluded.winner.2
  constructor
  · intro decisive
    simp only [List.mem_cons, List.not_mem_nil, or_false] at decisive
    rcases decisive with mate | resigned | timeout
    · obtain ⟨before, last, -, winner⟩ := concluded.mate mate
      rw [winner]
      rfl
    · rw [resigned] at decided
      rcases decided with (other | ⟨-, winner⟩ | ⟨other, -⟩) | other
      · cases other
      · exact winner
      · exact absurd other (by decide)
      · exact absurd other (by decide)
    · exact concluded.winner.1 timeout
  · intro level
    rcases decided with (abandoned | ⟨resigned, -⟩ | ⟨-, winner⟩) | board | rest
    · rw [abandoned] at level
      exact absurd level (by decide)
    · rw [resigned] at level
      exact absurd level (by decide)
    · exact winner
    · refine drawn (.inl ⟨board, fun mate => ?_⟩)
      rw [mate] at level
      exact absurd level (by decide)
    · rcases rest with threefold | timeout | material
      · exact drawn (.inr (.inl threefold))
      · rw [timeout] at level
        exact absurd level (by decide)
      · exact drawn (.inr (.inr material))

/-- All ways to end a game, with and without a winner. -/
theorem rating_agrees : ∀ status ∈ terminalStatuses,
    ∀ winnerColor ∈ [none, some ColorValue.white, some ColorValue.black],
      (status ∈ [.checkmate, .resignation, .timeout] → winnerColor.isSome) →
      (status ∈ .aborted :: DRAW_ONLINE_STATUSES → winnerColor = none) →
      (onlineRatedResult status winnerColor = none ↔
          status = .aborted ∨ (status = .abandoned ∧ winnerColor = none)) ∧
        ∀ result ∈ onlineRatedResult status winnerColor,
          pgnResult status winnerColor = resultToken result ∧
            winnerColor = resultWinner result := by
  decide

/-- However requests on a game interleave, a game that is over ended by its last position or by a
decision, the mating side is the one that moved last, and only an aborted game and one that both
sides left are not rated; the PGN token and the winner are those of the rated result. -/
theorem finished_games (chess : ChessJs) (players : Nat → Option Nat) (b : Board)
    (reached : (boards chess players).Reachable b) (ended : b.finished = true) :
    Concluded chess b.db ∧
      (onlineRatedResult b.db.row.status b.db.row.winnerColor = none ↔
        b.db.row.status = .aborted ∨
          (b.db.row.status = .abandoned ∧ b.db.row.winnerColor = none)) ∧
      ∀ result, onlineRatedResult b.db.row.status b.db.row.winnerColor = some result →
        pgnResult b.db.row.status b.db.row.winnerColor = resultToken result ∧
          b.db.row.winnerColor = resultWinner result := by
  have fair : b.Fair chess := by
    apply reached.invariant (Board.Fair chess)
    · intro start initial
      refine ⟨initial_sound initial, fun stage inside => ?_, fun inactive => ?_⟩
      · rw [initial.inFlight] at inside
        cases inside
      · exact absurd initial.active inactive
    · exact fun b label b' fair _ taken => fair.step taken
  have concluded := fair.concluded (Board.finished_not_active ended)
  obtain ⟨decisive, level⟩ := concluded.winners
  have listed : b.db.row.winnerColor ∈ [none, some ColorValue.white, some ColorValue.black] := by
    rcases b.db.row.winnerColor with _ | _ | _ <;> decide
  exact ⟨concluded, rating_agrees _ (of_decide_eq_true ended) _ listed decisive level⟩

theorem finished_games_resignation :
    ∃ b, (boards openGame some).run newBoard moveThenResign = some b ∧
      b.db.row.winnerColor = some .white ∧
      pgnResult b.db.row.status b.db.row.winnerColor = resultToken .whiteWin := by
  have row : ((boards openGame some).run newBoard moveThenResign).map (fun b =>
      (b.db.row.status, b.db.row.winnerColor)) = some (.resignation, some .white) := rfl
  obtain ⟨b, ran, row⟩ := Option.map_eq_some_iff.mp row
  obtain ⟨status, winner⟩ := Prod.mk.inj row
  have initial : newBoard.Initial := ⟨rfl, rfl, rfl, rfl, rfl⟩
  have reached := Transition.System.run_reachable newBoard b moveThenResign initial ran
  have ended : b.finished = true := by
    rw [Board.finished, status]
    rfl
  refine ⟨b, ran, winner, ((finished_games openGame some b reached ended).2.2 .whiteWin ?_).1⟩
  rw [status, winner]
  rfl

end Farzin.Play
