import Farzin.PlayEndings
import Farzin.PlayClockAgreement

set_option autoImplicit false

/- The move log of one game when every request of the service may run at any time. -/
namespace Farzin.Play

/-- `TERMINAL_STATUSES`. -/
def terminalStatuses : List OnlineGameStatusValue :=
  [.checkmate, .stalemate, .resignation, .timeout, .drawAgreed, .threefoldRepetition,
    .fiftyMoveRule, .insufficientMaterial, .timeoutVsInsufficientMaterial, .abandoned, .aborted]

def Board.finished (b : Board) : Bool := decide (b.db.row.status ∈ terminalStatuses)

theorem Board.finished_not_active {b : Board} (ended : b.finished = true) :
    b.db.row.status ≠ .active := by
  intro active
  unfold Board.finished at ended
  rw [active] at ended
  revert ended
  decide

/-- The position after the moves of a log. -/
def lastPosition (moves : List MoveRow) : String :=
  moves.foldl (fun _ m => m.fenAfter) startingFen

@[simp] theorem lastPosition_append (moves : List MoveRow) (m : MoveRow) :
    lastPosition (moves ++ [m]) = m.fenAfter := by
  simp [lastPosition]

/-- `validateMove` has accepted a recorded move in a position. -/
def ChessJs.Validated (chess : ChessJs) (fen : String) (m : MoveRow) : Prop :=
  ∃ move, chess.validateMove fen m.uci = some move ∧ m.san = move.san ∧
    m.fenAfter = move.fenAfter ∧ m.positionHash = move.positionHash

theorem ChessJs.validateMove_uci {chess : ChessJs} {fen uci : String} {move : ValidatedMove}
    (legal : chess.validateMove fen uci = some move) : move.uci = uci := by
  unfold ChessJs.validateMove at legal
  simp only [Option.bind_eq_bind, Option.bind_eq_some_iff, pure, Option.some.injEq] at legal
  obtain ⟨squares, _, played, _, rfl⟩ := legal
  rfl

section Invariant

variable (chess : ChessJs)

/-- The plies are one to the number of moves, the stored position is that after the last move,
and each move was legal in the position before it. -/
structure Recorded (db : GameDb) : Prop where
  plies : db.moves.map MoveRow.ply = List.range' 1 db.moves.length
  position : db.row.fen = lastPosition db.moves
  validated : ∀ i m, db.moves[i]? = some m → chess.Validated (lastPosition (db.moves.take i)) m

/-- A game as some request has loaded it. -/
structure Seen (db : GameDb) (game : LoadedGame) : Prop where
  plies : game.plyCount ≤ db.moves.length
  position : game.fen = lastPosition (db.moves.take game.plyCount)

structure PendingSeen (db : GameDb) (pending : PendingMove) : Prop where
  game : Seen db pending.game
  legal : chess.validateMove pending.game.fen pending.move.uci = some pending.move

def Progress.Seen (db : GameDb) : Progress → Prop
  | .loaded _ _ game => Play.Seen db game
  | .noEntry _ _ game => Play.Seen db game
  | .counting pending => PendingSeen chess db pending
  | .appending pending _ => PendingSeen chess db pending
  | _ => True

def Stage.Seen (db : GameDb) : Stage → Prop
  | .timed progress => progress.Seen chess db
  | _ => True

structure Board.Sound (b : Board) : Prop where
  recorded : Recorded chess b.db
  requests : ∀ stage ∈ b.inFlight, stage.Seen chess b.db

variable {chess} {players : Nat → Option Nat} {db db' : GameDb}

theorem Seen.grow {game : LoadedGame} (seen : Seen db game) (grows : db.moves <+: db'.moves) :
    Seen db' game := by
  obtain ⟨more, moves⟩ := grows
  refine ⟨?_, ?_⟩
  · rw [← moves, List.length_append]
    exact seen.plies.trans (Nat.le_add_right _ _)
  · rw [← moves, List.take_append_of_le_length seen.plies]
    exact seen.position

theorem Progress.Seen.grow {p : Progress} (seen : p.Seen chess db)
    (grows : db.moves <+: db'.moves) : p.Seen chess db' := by
  cases p with
  | begun | timingOut | writing | clearing => trivial
  | loaded | noEntry => exact Play.Seen.grow seen grows
  | counting | appending => exact ⟨Play.Seen.grow seen.game grows, seen.legal⟩

theorem Stage.Seen.grow {stage : Stage} (seen : stage.Seen chess db)
    (grows : db.moves <+: db'.moves) : stage.Seen chess db' := by
  cases stage with
  | timed => exact Progress.Seen.grow seen grows
  | _ => trivial

theorem findGame_seen (recorded : Recorded chess db) : Seen db db.findGame := by
  refine ⟨le_rfl, ?_⟩
  change db.row.fen = lastPosition (db.moves.take db.moves.length)
  rw [List.take_length]
  exact recorded.position

theorem playMove_seen {side : ClockSide} {uci : String} {now : Int} {game : LoadedGame}
    {newClock : ClockState} {elapsed : Int} {version source : Option Nat} {next : Progress}
    (seen : Seen db game)
    (played : playMove chess side uci now game newClock elapsed version source = some next) :
    next.Seen chess db := by
  obtain ⟨move, legal, shape⟩ := playMove_cases played
  have replayed : chess.validateMove game.fen move.uci = some move := by
    rw [ChessJs.validateMove_uci legal]
    exact legal
  rcases shape with rfl | ⟨finish, -, rfl⟩
  · exact ⟨seen, replayed⟩
  · exact ⟨seen, replayed⟩

theorem judge_seen {intent : Intent} {now : Int} {game : LoadedGame} {reading : ClockReading}
    {next : Progress} (seen : Seen db game)
    (judged : judge chess intent now game reading = some next) : next.Seen chess db := by
  rcases judge_cases judged with ⟨loser, final, rfl, -⟩ | ⟨side, uci, _, -, -, -, played⟩
  · trivial
  · exact playMove_seen seen played

theorem checkRequest_seen {request : Request} {now : Int} {next : Progress}
    (recorded : Recorded chess db)
    (checked : checkRequest chess players request now db.findGame = some next) :
    next.Seen chess db := by
  have seen := findGame_seen recorded
  rcases checkRequest_cases checked with ⟨uci, -, played⟩ | ⟨intent, rfl, -, -⟩
  · exact playMove_seen seen played
  · exact seen

/-- The unique key lets a move in only if it is the next one of the log. -/
theorem Recorded.append_ply (recorded : Recorded chess db) {pending : PendingMove}
    {finish : Option FinishGameInput} (seen : PendingSeen chess db pending)
    (appended : db.appendMove pending.row finish = some db') :
    pending.game.plyCount = db.moves.length := by
  obtain ⟨-, unique, -⟩ := appendMove_some appended
  by_contra apart
  have within := seen.game.plies
  have below : pending.game.plyCount < db.moves.length := by omega
  have listed : pending.game.plyCount + 1 ∈ db.moves.map MoveRow.ply := by
    rw [recorded.plies, List.mem_range'_1]
    omega
  obtain ⟨m, inside, ply⟩ := List.mem_map.mp listed
  exact unique m inside ply

theorem Recorded.append (recorded : Recorded chess db) {pending : PendingMove}
    {finish : Option FinishGameInput} (seen : PendingSeen chess db pending)
    (appended : db.appendMove pending.row finish = some db') : Recorded chess db' := by
  have last := recorded.append_ply seen appended
  obtain ⟨-, -, moves, fen, -, -⟩ := appendMove_some appended
  have position : pending.game.fen = lastPosition db.moves := by
    rw [seen.game.position, last, List.take_length]
  refine ⟨?_, ?_, ?_⟩
  · rw [moves, List.length_append, List.length_singleton, List.range'_concat, List.map_append,
      recorded.plies, ← last]
    simp [PendingMove.row, add_comm]
  · rw [fen, moves, lastPosition_append]
  · intro i m here
    rw [moves] at here ⊢
    by_cases old : i < db.moves.length
    · rw [List.getElem?_append_left old] at here
      rw [List.take_append_of_le_length old.le]
      exact recorded.validated i m here
    · have bound := (List.getElem?_eq_some_iff.mp here).1
      rw [List.length_append, List.length_singleton] at bound
      have new : i = db.moves.length := by omega
      subst new
      rw [List.getElem?_concat_length] at here
      cases here
      rw [List.take_append_of_le_length le_rfl, List.take_length]
      refine ⟨pending.move, ?_, rfl, rfl, rfl⟩
      rw [← position]
      exact seen.legal

theorem Recorded.finish (recorded : Recorded chess db) {finish : FinishGameInput}
    (done : db.finishGame finish = some db') : Recorded chess db' := by
  obtain ⟨-, rfl⟩ := finishGame_some done
  exact ⟨recorded.plies, recorded.position, recorded.validated⟩

/-- What a step may do to the rows of the game. -/
structure Writes (chess : ChessJs) (db next : GameDb) : Prop where
  recorded : Recorded chess next
  grows : db.moves <+: next.moves
  frozen : db.row.status ≠ .active → next = db

theorem Writes.same (recorded : Recorded chess db) : Writes chess db db :=
  ⟨recorded, List.prefix_rfl, fun _ => rfl⟩

theorem Writes.append (recorded : Recorded chess db) {pending : PendingMove}
    {finish : Option FinishGameInput} (seen : PendingSeen chess db pending)
    (appended : db.appendMove pending.row finish = some db') : Writes chess db db' := by
  obtain ⟨active, -, moves, -⟩ := appendMove_some appended
  refine ⟨recorded.append seen appended, ?_, fun ended => absurd active ended⟩
  rw [moves]
  exact List.prefix_append _ _

theorem Writes.finish (recorded : Recorded chess db) {finish : FinishGameInput}
    (done : db.finishGame finish = some db') : Writes chess db db' := by
  have after := recorded.finish done
  obtain ⟨active, rfl⟩ := finishGame_some done
  exact ⟨after, List.prefix_rfl, fun ended => absurd active ended⟩

/-- A timed request writes a legal move or a result, and what is left of it goes by the game as
it was loaded. -/
theorem advance_writes {w : World} (recorded : Recorded chess w.db) {p : Progress}
    (seen : p.Seen chess w.db) :
    Writes chess w.db (advance chess players w p).1.db ∧
      ∀ q ∈ (advance chess players w p).2, q.Seen chess (advance chess players w p).1.db := by
  cases p with
  | begun request now => exact ⟨.same recorded, fun q next => checkRequest_seen recorded next⟩
  | loaded intent now game =>
      refine ⟨.same recorded, fun q next => ?_⟩
      change loadClock chess w intent now game = some q at next
      unfold loadClock at next
      cases entry : w.clock with
      | none =>
          rw [entry] at next
          cases next
          exact seen
      | some stored =>
          rw [entry] at next
          exact judge_seen seen next
  | noEntry intent now game => exact ⟨.same recorded, fun q next => judge_seen seen next⟩
  | counting pending =>
      refine ⟨.same recorded, fun q next => ?_⟩
      cases next
      exact seen
  | appending pending finish =>
      change Writes chess w.db (appendPending w pending finish).1.db ∧
        ∀ q ∈ (appendPending w pending finish).2,
          q.Seen chess (appendPending w pending finish).1.db
      unfold appendPending
      cases appended : w.db.appendMove pending.row finish with
      | none => exact ⟨.same recorded, fun q none => by cases none⟩
      | some db =>
          refine ⟨.append recorded seen appended, fun q next => ?_⟩
          cases next
          trivial
  | timingOut decision =>
      change Writes chess w.db (finishByTimeout chess w decision).1.db ∧
        ∀ q ∈ (finishByTimeout chess w decision).2,
          q.Seen chess (finishByTimeout chess w decision).1.db
      unfold finishByTimeout
      cases done : w.db.finishGame (decision.finish chess) with
      | none => exact ⟨.same recorded, fun q none => by cases none⟩
      | some db =>
          refine ⟨.finish recorded done, fun q next => ?_⟩
          cases next
          trivial
  | writing write =>
      obtain ⟨kept, rest⟩ := writeClock_db w write
      change Writes chess w.db (writeClock w write).1.db ∧
        ∀ q ∈ (writeClock w write).2, q.Seen chess (writeClock w write).1.db
      rw [kept]
      refine ⟨.same recorded, fun q next => ?_⟩
      rcases rest with ended | clearing
      · rw [ended] at next
        cases next
      · rw [clearing] at next
        cases next
        trivial
  | clearing => exact ⟨.same recorded, fun q none => by cases none⟩

theorem advanceTimed_writes {b : Board} (recorded : Recorded chess b.db) {p : Progress}
    (seen : p.Seen chess b.db) :
    Writes chess b.db (advanceTimed chess players b p).1.db ∧
      ∀ q ∈ (advanceTimed chess players b p).2, q.Seen chess (advanceTimed chess players b p).1.db := by
  obtain ⟨writes, rest⟩ := @advance_writes chess players b.world recorded p seen
  cases p with
  | writing write =>
      unfold advanceTimed
      by_cases ended : write.ended = true
      · simp only [ended, if_true]
        exact ⟨writes, fun q none => by cases none⟩
      · simp only [ended]
        refine ⟨writes, fun q next => ?_⟩
        cases next
        trivial
  | clearing => exact ⟨writes, fun q none => by cases none⟩
  | counting pending =>
      refine ⟨writes, fun q next => ?_⟩
      cases next
      exact rest _ rfl
  | begun | loaded | noEntry | appending | timingOut =>
      refine ⟨writes, fun q next => ?_⟩
      obtain ⟨progress, left, rfl⟩ := Option.mem_map.mp next
      exact rest progress left

/-- No other request waits with a move in hand. -/
theorem checkEnding_seen {game : LoadedGame} {request : EndingRequest} {next : Stage}
    (checked : checkEnding players game request = some next) : next.Seen chess db := by
  cases next with
  | timed p =>
      exfalso
      cases request <;> simp [checkEnding, Option.bind_eq_some_iff] at checked
  | _ => trivial

theorem advance_sound {b : Board} (recorded : Recorded chess b.db) {stage : Stage} {now : Int}
    (seen : stage.Seen chess b.db) :
    Writes chess b.db (b.advance chess players now stage).1.db ∧
      ∀ q ∈ (b.advance chess players now stage).2,
        q.Seen chess (b.advance chess players now stage).1.db := by
  cases stage with
  | timed p => exact advanceTimed_writes recorded seen
  | endMove clock =>
      cases clock with
      | none => exact ⟨.same recorded, fun q none => by cases none⟩
      | some progress =>
          refine ⟨.same recorded, fun q next => ?_⟩
          cases next
          trivial
  | begun request => exact ⟨.same recorded, fun q next => checkEnding_seen next⟩
  | offering side => exact ⟨.same recorded, fun q none => by cases none⟩
  | answering side game =>
      refine ⟨.same recorded, fun q next => ?_⟩
      change answerDraw side game b.drawOffer = some q at next
      unfold answerDraw at next
      split at next
      · cases next
      · cases next
        trivial
  | listing ending =>
      refine ⟨.same recorded, fun q next => ?_⟩
      cases next
      trivial
  | loading ending moves started =>
      refine ⟨.same recorded, fun q next => ?_⟩
      change finishNoMove ending moves started b.clock = some q at next
      simp only [finishNoMove, Option.bind_eq_bind, Option.bind_eq_some_iff] at next
      obtain ⟨white, _, black, _, same⟩ := next
      cases same
      trivial
  | finishing finish =>
      simp only [Board.advance]
      cases done : b.db.finishGame finish with
      | none => exact ⟨.same recorded, fun q none => by cases none⟩
      | some db =>
          refine ⟨.finish recorded done, fun q next => ?_⟩
          cases next
          trivial
  | clearing => exact ⟨.same recorded, fun q none => by cases none⟩

theorem board_advance_taken {b b' : Board} {index : Nat} {now : Int}
    (taken : b.step chess players (.advance index now) = some b') :
    ∃ stage, b.inFlight[index]? = some stage ∧
      b' = { (b.advance chess players now stage).1 with
        inFlight := b.inFlight.eraseIdx index ++
          (b.advance chess players now stage).2.toList } := by
  unfold Board.step at taken
  cases here : b.inFlight[index]? with
  | none =>
      simp only [here] at taken
      cases taken
  | some stage =>
      simp only [here, Option.some.injEq] at taken
      exact ⟨stage, rfl, taken.symm⟩

/-- Every step keeps the log in order, and leaves the rows of a finished game alone. -/
theorem step_sound {b b' : Board} (sound : b.Sound chess) {label : BoardLabel}
    (taken : b.step chess players label = some b') :
    b'.Sound chess ∧ Writes chess b.db b'.db := by
  cases label with
  | arrive | arriveEnding =>
      cases taken
      refine ⟨⟨sound.recorded, fun stage inside => ?_⟩, .same sound.recorded⟩
      rcases List.mem_append.mp inside with old | new
      · exact sound.requests stage old
      · cases List.mem_singleton.mp new
        trivial
  | expireClock | expireOffer =>
      cases taken
      exact ⟨⟨sound.recorded, sound.requests⟩, .same sound.recorded⟩
  | advance index now =>
      obtain ⟨stage, here, rfl⟩ := board_advance_taken taken
      obtain ⟨writes, rest⟩ := @advance_sound chess players b sound.recorded stage now
        (sound.requests stage (List.mem_of_getElem? here))
      refine ⟨⟨writes.recorded, fun q inside => ?_⟩, writes⟩
      rcases List.mem_append.mp inside with old | new
      · exact (sound.requests q (List.mem_of_mem_eraseIdx old)).grow writes.grows
      · exact rest q (Option.mem_toList.mp new)

theorem initial_sound {b : Board} (initial : b.Initial) : b.Sound chess := by
  refine ⟨⟨?_, ?_, ?_⟩, ?_⟩
  · rw [initial.moves]
    rfl
  · rw [initial.fen, initial.moves]
    rfl
  · intro i m here
    rw [initial.moves] at here
    cases here
  · rw [initial.inFlight]
    intro stage inside
    cases inside

end Invariant

section Runs

variable (chess : ChessJs) (players : Nat → Option Nat)

/-- How often a run takes the game into a terminal status. -/
def endings (b : Board) (labels : List BoardLabel) : Nat :=
  (boards chess players).tally (fun b _ next => !b.finished && next.finished) b labels

variable {chess} {players}

theorem run_over {b later : Board} {labels : List BoardLabel} (sound : b.Sound chess)
    (ended : b.finished = true) (ran : (boards chess players).run b labels = some later) :
    later.db = b.db := by
  have steps := Transition.System.run_steps b later labels ran
    (Transition.System.guarded_always b labels)
  have kept : later.Sound chess ∧ later.db = b.db := by
    apply steps.preserve (fun c => c.Sound chess ∧ c.db = b.db) ?_ ⟨sound, rfl⟩
    intro s label t ⟨here, same⟩ _ taken
    obtain ⟨next, writes⟩ := step_sound here taken
    refine ⟨next, (writes.frozen ?_).trans same⟩
    rw [same]
    exact Board.finished_not_active ended
  exact kept.2

theorem endings_le_one {b : Board} (sound : b.Sound chess) (labels : List BoardLabel) :
    endings chess players b labels ≤ 1 := by
  apply Transition.System.tally_le_one (fun b => b.Sound chess) (fun b => b.finished = true)
  · intro s label t sound taken
    exact (step_sound sound taken).1
  · intro s label t sound ended taken
    have same := (step_sound sound taken).2.frozen (Board.finished_not_active ended)
    have still : t.finished = true := by
      unfold Board.finished
      rw [same]
      exact ended
    exact ⟨still, by simp [ended]⟩
  · intro s label t _ _ ends
    simp only [Bool.and_eq_true] at ends
    exact ends.2
  · exact sound

end Runs

/-- In every run of the requests on one game the plies are exactly one to the number of moves,
the stored position is the one after the last move, each move was legal in the position that
the move before it left, the game ends at most once, and an ended game is never written
again. -/
theorem move_log_integrity (chess : ChessJs) (players : Nat → Option Nat) (start b : Board)
    (labels : List BoardLabel) (initial : start.Initial)
    (ran : (boards chess players).run start labels = some b) :
    b.db.moves.map MoveRow.ply = List.range' 1 b.db.moves.length ∧
      b.db.row.fen = lastPosition b.db.moves ∧
      (∀ i m, b.db.moves[i]? = some m → chess.Validated (lastPosition (b.db.moves.take i)) m) ∧
      endings chess players start labels ≤ 1 ∧
      (b.finished = true → ∀ more later, (boards chess players).run b more = some later →
        later.db = b.db) := by
  have reached := Transition.System.run_reachable start b labels initial ran
  have sound : b.Sound chess := by
    apply reached.invariant (fun b => b.Sound chess) (fun _ initial => initial_sound initial)
    intro s label t sound _ taken
    exact (step_sound sound taken).1
  exact ⟨sound.recorded.plies, sound.recorded.position, sound.recorded.validated,
    endings_le_one (initial_sound initial) labels,
    fun ended more later further => run_over sound ended further⟩

def newBoard : Board where
  db := newGame.db
  clock := newGame.clock
  drawOffer := none
  inFlight := []

/-- White's first move overtakes a resignation that has loaded the game before it. -/
def moveThenResign : List BoardLabel :=
  [.arriveEnding (.resign 2), .advance 0 0, .arrive (.makeMove 1 "e2e4") 0, .advance 1 0,
    .advance 1 0, .advance 0 0, .advance 1 0, .advance 1 0]

theorem moveThenResign_log :
    ∃ b, (boards openGame some).run newBoard moveThenResign = some b ∧
      b.db.row.status = .resignation ∧ b.db.moves.length = 1 ∧
      b.db.row.fen = lastPosition b.db.moves := by
  refine ⟨_, rfl, rfl, rfl, ?_⟩
  have initial : newBoard.Initial := ⟨rfl, rfl, rfl, rfl, rfl⟩
  exact (move_log_integrity openGame some newBoard _ moveThenResign initial rfl).2.1

end Farzin.Play
