import Farzin.PlayResults
import Farzin.PlayZobrist
import Mathlib.Data.List.Induction

set_option autoImplicit false

/- The threefold repetition that `makeMove` looks up in its index, beside the count over the
whole game. -/
namespace Farzin.Play

/-- The positions of a game so far. -/
def positions (moves : List MoveRow) : List String := startingFen :: moves.map MoveRow.fenAfter

def occurrences (key : String) (fens : List String) : Nat :=
  (fens.filter fun fen => positionKey fen = key).length

/-- Captures and pawn moves cannot be undone: some stock, seen from the key of a position, is
spent by each of them, and no move fills it up. -/
structure ChessJs.OneWay (chess : ChessJs) (stock : String → Nat) : Prop where
  kept : ∀ fen start target promotion move, chess.move fen start target promotion = some move →
    stock (positionKey move.fenAfter) ≤ stock (positionKey fen)
  spent : ∀ fen start target promotion move, chess.move fen start target promotion = some move →
    move.isCapture = true ∨ move.isPawn = true →
    stock (positionKey move.fenAfter) < stock (positionKey fen)

section Rules

variable {chess : ChessJs} {fen : String}

@[simp] theorem occurrences_append (key : String) (f g : List String) :
    occurrences key (f ++ g) = occurrences key f + occurrences key g := by
  simp [occurrences]

theorem occurrences_singleton (key f : String) :
    occurrences key [f] = if positionKey f = key then 1 else 0 := by
  by_cases same : positionKey f = key
  · simp [occurrences, same]
  · simp [occurrences, same]

/-- What ends a game whatever came before it. -/
theorem gameEnd_prior (chess : ChessJs) (fen : String) (prior : List String) :
    chess.gameEndFromPosition fen prior =
      match chess.gameEndFromPosition fen [] with
      | some status => some status
      | none =>
          if 3 ≤ 1 + occurrences (positionKey fen) prior then some .threefoldRepetition
          else none := by
  unfold ChessJs.gameEndFromPosition
  by_cases mate : chess.isCheckmate fen = true
  · rw [if_pos mate, if_pos mate]
  · rw [if_neg mate, if_neg mate]
    by_cases stale : chess.isStalemate fen = true
    · rw [if_pos stale, if_pos stale]
    · rw [if_neg stale, if_neg stale]
      by_cases dead : chess.isDeadPosition fen = true
      · rw [if_pos dead, if_pos dead]
      · rw [if_neg dead, if_neg dead]
        by_cases fifty : 100 ≤ halfmoveClock fen
        · rw [if_pos fifty, if_pos fifty]
        · rw [if_neg fifty, if_neg fifty]
          rfl

/-- A game is drawn by repetition on the third occurrence. -/
theorem gameEnd_threefold {prior : List String}
    (ended : chess.gameEndFromPosition fen prior = some .threefoldRepetition) :
    3 ≤ 1 + occurrences (positionKey fen) prior := by
  unfold ChessJs.gameEndFromPosition at ended
  by_contra rare
  have short : ¬ 3 ≤ 1 + (prior.filter fun f => positionKey f = positionKey fen).length := rare
  rw [if_neg short] at ended
  split at ended
  · cases ended
  · split at ended
    · cases ended
    · split at ended
      · cases ended
      · split at ended
        · cases ended
        · cases ended

/-- A legal move is a move of chess.js with its hash. -/
theorem ChessJs.validateMove_some {uci : String} {move : ValidatedMove}
    (legal : chess.validateMove fen uci = some move) :
    ∃ start target promotion played, chess.move fen start target promotion = some played ∧
      move.fenAfter = played.fenAfter ∧ move.positionHash = chess.zobristHash move.fenAfter ∧
      (move.irreversible = true → played.isCapture = true ∨ played.isPawn = true) := by
  unfold ChessJs.validateMove at legal
  simp only [Option.bind_eq_bind, Option.bind_eq_some_iff, pure, Option.some.injEq] at legal
  obtain ⟨squares, -, played, moved, rfl⟩ := legal
  refine ⟨_, _, _, played, moved, rfl, rfl, ?_⟩
  intro irreversible
  exact Bool.or_eq_true _ _ ▸ irreversible

end Rules

section Log

variable {chess : ChessJs} {stock : String → Nat}

@[simp] theorem positions_append (moves : List MoveRow) (m : MoveRow) :
    positions (moves ++ [m]) = positions moves ++ [m.fenAfter] := by
  simp [positions]

/-- The stock of a game runs down: no position so far had less than the last one. -/
theorem stock_last (oneWay : chess.OneWay stock) (moves : List MoveRow)
    (validated : ∀ i m, moves[i]? = some m → chess.Validated (lastPosition (moves.take i)) m) :
    ∀ fen ∈ positions moves,
      stock (positionKey (lastPosition moves)) ≤ stock (positionKey fen) := by
  induction moves using List.reverseRecOn with
  | nil =>
      intro fen inside
      cases List.mem_singleton.mp inside
      exact le_rfl
  | append_singleton moves m ih =>
      have before : ∀ i n, moves[i]? = some n →
          chess.Validated (lastPosition (moves.take i)) n := by
        intro i n here
        have bound := (List.getElem?_eq_some_iff.mp here).1
        rw [← List.take_append_of_le_length bound.le]
        exact validated i n (by rw [List.getElem?_append_left bound, here])
      obtain ⟨move, legal, -, after, -⟩ := validated moves.length m List.getElem?_concat_length
      rw [List.take_append_of_le_length le_rfl, List.take_length] at legal
      obtain ⟨_, _, _, played, moved, same, -⟩ := ChessJs.validateMove_some legal
      have down : stock (positionKey m.fenAfter) ≤ stock (positionKey (lastPosition moves)) := by
        rw [after, same]
        exact oneWay.kept _ _ _ _ _ moved
      intro fen inside
      rw [positions_append] at inside
      rw [lastPosition_append]
      rcases List.mem_append.mp inside with old | new
      · exact down.trans (ih before fen old)
      · cases List.mem_singleton.mp new
        exact le_rfl

/-- A capture or a pawn move leads to a position that has not been on the board. -/
theorem irreversible_new {db : GameDb} (oneWay : chess.OneWay stock) (recorded : Recorded chess db)
    {uci : String} {move : ValidatedMove}
    (legal : chess.validateMove (lastPosition db.moves) uci = some move)
    (irreversible : move.irreversible = true) :
    occurrences (positionKey move.fenAfter) (positions db.moves) = 0 := by
  obtain ⟨_, _, _, played, moved, same, -, takes⟩ := ChessJs.validateMove_some legal
  have down := oneWay.spent _ _ _ _ _ moved (takes irreversible)
  unfold occurrences
  rw [List.length_eq_zero_iff, List.filter_eq_nil_iff]
  intro fen inside again
  have least := stock_last oneWay db.moves recorded.validated fen inside
  rw [of_decide_eq_true again, same] at least
  omega

/-- Positions with one key have one hash. -/
def ChessJs.HashesKeys (chess : ChessJs) : Prop :=
  ∀ f g, positionKey f = positionKey g → chess.zobristHash f = chess.zobristHash g

/-- The index finds every position with the key, and the key tells them from the others. -/
theorem positionOccurrences_count {db : GameDb} (hashes : chess.HashesKeys)
    (recorded : Recorded chess db) (fen : String) :
    ((db.positionOccurrences (chess.zobristHash fen)).filter
      fun f => positionKey f = positionKey fen).length =
        occurrences (positionKey fen) (db.moves.map MoveRow.fenAfter) := by
  unfold GameDb.positionOccurrences occurrences
  rw [List.filter_map, List.filter_map, List.length_map, List.length_map, List.filter_filter]
  refine congrArg List.length ?_
  apply List.filter_congr
  intro m inside
  obtain ⟨i, here⟩ := List.mem_iff_getElem?.mp inside
  obtain ⟨move, legal, -, after, hash⟩ := recorded.validated i m here
  obtain ⟨_, _, _, _, -, -, hashed, -⟩ := ChessJs.validateMove_some legal
  have indexed : m.positionHash = chess.zobristHash m.fenAfter := by rw [hash, hashed, after]
  by_cases same : positionKey m.fenAfter = positionKey fen
  · simp [same, indexed, hashes _ _ same]
  · simp [same]

/-- The threefold check of a move counts the whole game. -/
theorem countPositions_eq {db : GameDb} (hashes : chess.HashesKeys)
    (recorded : Recorded chess db) {pending : PendingMove}
    (hash : pending.move.positionHash = chess.zobristHash pending.move.fenAfter) :
    countPositions db pending =
      if 3 ≤ 1 + occurrences (positionKey pending.move.fenAfter) (positions db.moves) then
        some (pending.finish .threefoldRepetition) else none := by
  have bonus : occurrences (positionKey pending.move.fenAfter) (positions db.moves) =
      (if positionKey startingFen = positionKey pending.move.fenAfter then 1 else 0) +
        occurrences (positionKey pending.move.fenAfter) (db.moves.map MoveRow.fenAfter) := by
    change occurrences _ ([startingFen] ++ _) = _
    rw [occurrences_append, occurrences_singleton]
  unfold countPositions
  simp only [hash, positionOccurrences_count hashes recorded, bonus]
  exact if_congr (by omega) rfl rfl

end Log

section Requests

variable {chess : ChessJs} {players : Nat → Option Nat} {stock : String → Nat} {db db' : GameDb}

/-- A request with a move in hand has decided as the whole game does, or has yet to look it
up. -/
def Progress.Detects (chess : ChessJs) (db : GameDb) : Progress → Prop
  | .counting pending => chess.gameEndFromPosition pending.move.fenAfter [] = none
  | .appending pending finish => pending.game.plyCount = db.moves.length →
      finish.map FinishGameInput.status =
        chess.gameEndFromPosition pending.move.fenAfter (positions db.moves)
  | _ => True

def Stage.Detects (chess : ChessJs) (db : GameDb) : Stage → Prop
  | .timed progress => progress.Detects chess db
  | _ => True

/-- Once another move is recorded, a decision about the shorter game no longer matters. -/
theorem Stage.Detects.grow {stage : Stage} (detects : stage.Detects chess db)
    (seen : stage.Seen chess db) (grows : db.moves <+: db'.moves) : stage.Detects chess db' := by
  cases stage with
  | timed p =>
      cases p with
      | appending pending finish =>
          intro last
          have within := seen.game.plies
          have longer := grows.length_le
          have same : db.moves = db'.moves := grows.eq_of_length (by omega)
          rw [← same] at last ⊢
          exact detects last
      | counting => exact detects
      | _ => trivial
  | _ => trivial

theorem playMove_detects (oneWay : chess.OneWay stock) (recorded : Recorded chess db)
    {side : ClockSide} {uci : String} {now : Int} {game : LoadedGame} {newClock : ClockState}
    {elapsed : Int} {version source : Option Nat} {next : Progress} (seen : Seen db game)
    (played : playMove chess side uci now game newClock elapsed version source = some next) :
    next.Detects chess db := by
  unfold playMove at played
  cases legal : chess.validateMove game.fen uci with
  | none =>
      simp only [legal] at played
      cases played
  | some move =>
      simp only [legal] at played
      cases ended : chess.gameEndFromPosition move.fenAfter [] with
      | some status =>
          simp only [ended] at played
          cases played
          intro last
          simp only [gameEnd_prior chess move.fenAfter (positions db.moves), ended]
          rfl
      | none =>
          simp only [ended] at played
          by_cases irreversible : move.irreversible = true
          · rw [if_pos irreversible] at played
            cases played
            intro last
            have position : game.fen = lastPosition db.moves := by
              rw [seen.position, show game.plyCount = db.moves.length from last, List.take_length]
            rw [position] at legal
            have new := irreversible_new oneWay recorded legal irreversible
            simp only [gameEnd_prior chess move.fenAfter (positions db.moves), ended, new]
            rfl
          · rw [if_neg irreversible] at played
            cases played
            exact ended

theorem judge_detects (oneWay : chess.OneWay stock) (recorded : Recorded chess db)
    {intent : Intent} {now : Int} {game : LoadedGame} {reading : ClockReading} {next : Progress}
    (seen : Seen db game) (judged : judge chess intent now game reading = some next) :
    next.Detects chess db := by
  rcases judge_cases judged with ⟨loser, final, rfl, -⟩ | ⟨side, uci, _, -, -, -, played⟩
  · trivial
  · exact playMove_detects oneWay recorded seen played

/-- The count over the index is the count over the game. -/
theorem counting_detects (hashes : chess.HashesKeys) (recorded : Recorded chess db)
    {pending : PendingMove} (seen : PendingSeen chess db pending)
    (undecided : chess.gameEndFromPosition pending.move.fenAfter [] = none) :
    (Progress.appending pending (countPositions db pending)).Detects chess db := by
  intro _
  obtain ⟨_, _, _, _, -, -, hash, -⟩ := ChessJs.validateMove_some seen.legal
  rw [countPositions_eq hashes recorded hash, gameEnd_prior, undecided]
  by_cases thrice :
      3 ≤ 1 + occurrences (positionKey pending.move.fenAfter) (positions db.moves)
  · simp only [thrice, if_true]
    rfl
  · simp only [thrice, if_false]
    rfl

/-- What a timed request does next is decided on the rows that it leaves as they are. -/
theorem advance_detects (hashes : chess.HashesKeys) (oneWay : chess.OneWay stock) {w : World}
    (recorded : Recorded chess w.db) {p q : Progress} (seen : p.Seen chess w.db)
    (detects : p.Detects chess w.db) (next : q ∈ (advance chess players w p).2) :
    q.Detects chess (advance chess players w p).1.db := by
  cases p with
  | begun request now =>
      rcases checkRequest_cases next with ⟨uci, -, played⟩ | ⟨intent, rfl, -, -⟩
      · exact playMove_detects oneWay recorded (findGame_seen recorded) played
      · trivial
  | loaded intent now game =>
      change loadClock chess w intent now game = some q at next
      unfold loadClock at next
      split at next
      · cases next
        trivial
      · exact judge_detects oneWay recorded seen next
  | noEntry intent now game => exact judge_detects oneWay recorded seen next
  | counting pending =>
      cases next
      exact counting_detects hashes recorded seen detects
  | appending pending finish =>
      change (appendPending w pending finish).2 = some q at next
      unfold appendPending at next
      split at next
      · cases next
      · cases next
        trivial
  | timingOut decision =>
      change (finishByTimeout chess w decision).2 = some q at next
      unfold finishByTimeout at next
      split at next
      · cases next
      · cases next
        trivial
  | writing write =>
      obtain ⟨-, rest⟩ := writeClock_db w write
      change (writeClock w write).2 = some q at next
      rcases rest with finished | clearing
      · rw [finished] at next
        cases next
      · rw [clearing] at next
        cases next
        trivial
  | clearing => cases next

/-- A stage with a move in hand comes from a timed request, and the rows with it. -/
theorem advance_timed {b : Board} {now : Int} {stage : Stage} {progress : Progress}
    (next : .timed progress ∈ (b.advance chess players now stage).2) :
    ∃ p, stage = .timed p ∧ progress ∈ (advance chess players b.world p).2 ∧
      (b.advance chess players now stage).1.db = (advance chess players b.world p).1.db := by
  cases stage with
  | timed p =>
      refine ⟨p, rfl, ?_, advance_timed_db b now p⟩
      rcases advanceTimed_next next with ⟨other, left, same⟩ | ⟨clock, same⟩
      · cases same
        exact left
      · cases same
  | endMove clock => cases clock <;> cases next
  | begun request =>
      exfalso
      change checkEnding players b.db.findGame request = some _ at next
      cases request <;> simp [checkEnding, Option.bind_eq_some_iff] at next
  | offering side => cases next
  | answering side game =>
      change answerDraw side game b.drawOffer = some _ at next
      unfold answerDraw at next
      split at next <;> cases next
  | listing ending => cases next
  | loading ending moves started =>
      change finishNoMove ending moves started b.clock = some _ at next
      simp only [finishNoMove, Option.bind_eq_bind, Option.bind_eq_some_iff] at next
      obtain ⟨white, _, black, _, same⟩ := next
      cases same
  | finishing finish =>
      simp only [Board.advance] at next
      split at next <;> cases next
  | clearing => cases next

end Requests

section Boards

variable {chess : ChessJs} {players : Nat → Option Nat} {stock : String → Nat} {b b' : Board}

/-- While a game goes on, no position has occurred a third time, and every decision in flight is
that of the whole game. -/
structure Board.Detecting (chess : ChessJs) (b : Board) : Prop where
  sound : b.Sound chess
  rules : ∀ stage ∈ b.inFlight, stage.ByRules
  detects : ∀ stage ∈ b.inFlight, stage.Detects chess b.db
  rare : b.db.row.status = .active → ∀ key, occurrences key (positions b.db.moves) ≤ 2

/-- What a recorded move makes of the game. -/
def endStatus (status : OnlineGameStatusValue) : Option OnlineGameStatusValue :=
  if status = .active then none else some status

theorem initial_detecting (initial : b.Initial) : b.Detecting chess := by
  refine ⟨initial_sound initial, initial_byRules initial, ?_, ?_⟩
  · rw [initial.inFlight]
    intro stage inside
    cases inside
  · intro _ key
    rw [initial.moves]
    exact (List.length_filter_le _ _).trans (by decide)

/-- A step that records a move is the last one of a decided request. -/
theorem step_recording {label : BoardLabel} (recording : b.recording label = true)
    (taken : b.step chess players label = some b') :
    ∃ pending finish, .timed (.appending pending finish) ∈ b.inFlight ∧
      b.db.appendMove pending.row finish = some b'.db := by
  unfold Board.recording at recording
  split at recording
  · rename_i pending finish here
    obtain ⟨db, appended⟩ := Option.isSome_iff_exists.mp recording
    cases label with
    | advance index now =>
        obtain ⟨stage, there, rfl⟩ := board_advance_taken taken
        cases (turn_advance now there).symm.trans here
        refine ⟨pending, finish, List.mem_of_getElem? there, ?_⟩
        have world : b.world.db.appendMove pending.row finish = some db := appended
        change _ = some (advanceTimed chess players b (.appending pending finish)).1.db
        simp only [advanceTimed, advance, appendPending, world]
        exact appended
    | _ => cases here
  · cases recording

/-- The recorded status is the decision of the whole game. -/
theorem recording_decision (detecting : b.Detecting chess) {pending : PendingMove}
    {finish : Option FinishGameInput}
    (inside : .timed (.appending pending finish) ∈ b.inFlight)
    (appended : b.db.appendMove pending.row finish = some b'.db) :
    endStatus b'.db.row.status =
      chess.gameEndFromPosition pending.move.fenAfter (positions b.db.moves) := by
  have last := detecting.sound.recorded.append_ply (detecting.sound.requests _ inside) appended
  have decided := detecting.detects _ inside last
  obtain ⟨-, -, -, -, -, status⟩ := appendMove_some appended
  rw [← decided]
  rcases status with ⟨rfl, still⟩ | ⟨input, rfl, ended⟩
  · rw [still]
    rfl
  · rw [ended]
    have finished : input.status ≠ .active := (ChessJs.gameEnd_cases decided.symm).2
    rw [endStatus, if_neg finished, Option.map_some]

/-- Every decision in flight is still that of the whole game after a step. -/
theorem step_detects (hashes : chess.HashesKeys) (oneWay : chess.OneWay stock)
    {label : BoardLabel} (detecting : b.Detecting chess)
    (taken : b.step chess players label = some b') :
    ∀ stage ∈ b'.inFlight, stage.Detects chess b'.db := by
  obtain ⟨-, writes⟩ := step_sound detecting.sound taken
  cases label with
  | arrive | arriveEnding =>
      cases taken
      intro stage inside
      rcases List.mem_append.mp inside with old | new
      · exact detecting.detects stage old
      · cases List.mem_singleton.mp new
        trivial
  | expireClock | expireOffer =>
      cases taken
      exact detecting.detects
  | advance index now =>
      obtain ⟨stage, here, rfl⟩ := board_advance_taken taken
      have there := List.mem_of_getElem? here
      intro q inside
      rcases List.mem_append.mp inside with old | new
      · have before := List.mem_of_mem_eraseIdx old
        exact (detecting.detects q before).grow (detecting.sound.requests q before) writes.grows
      · cases q with
        | timed progress =>
            obtain ⟨p, rfl, next, same⟩ := advance_timed (Option.mem_toList.mp new)
            change progress.Detects chess (b.advance chess players now (.timed p)).1.db
            rw [same]
            exact advance_detects hashes oneWay detecting.sound.recorded
              (detecting.sound.requests _ there) (detecting.detects _ there) next
        | _ => trivial

/-- A recorded move that leaves the game going on has not brought its position a third time. -/
theorem recording_rare (detecting : b.Detecting chess) {pending : PendingMove}
    {finish : Option FinishGameInput}
    (inside : .timed (.appending pending finish) ∈ b.inFlight)
    (appended : b.db.appendMove pending.row finish = some b'.db)
    (active : b'.db.row.status = .active) :
    occurrences (positionKey pending.move.fenAfter) (positions b.db.moves) ≤ 1 := by
  have decided := recording_decision detecting inside appended
  rw [active, gameEnd_prior] at decided
  cases ended : chess.gameEndFromPosition pending.move.fenAfter [] with
  | some status =>
      rw [ended] at decided
      cases decided
  | none =>
      rw [ended] at decided
      have twice : ¬ 3 ≤ 1 + occurrences (positionKey pending.move.fenAfter)
          (positions b.db.moves) := by
        intro thrice
        simp only [thrice, if_true] at decided
        cases decided
      omega

theorem step_rare {label : BoardLabel} (detecting : b.Detecting chess)
    (taken : b.step chess players label = some b') (active : b'.db.row.status = .active)
    (key : String) : occurrences key (positions b'.db.moves) ≤ 2 := by
  have counts := step_counts detecting.rules taken
  have before := detecting.rare (counts.opened active)
  cases recording : b.recording label with
  | false =>
      rw [counts.moves recording]
      exact before key
  | true =>
      obtain ⟨pending, finish, inside, appended⟩ := step_recording recording taken
      have rare := recording_rare detecting inside appended active
      obtain ⟨-, -, moves, -⟩ := appendMove_some appended
      rw [moves, positions_append, occurrences_append]
      change _ + occurrences key [pending.move.fenAfter] ≤ 2
      by_cases same : positionKey pending.move.fenAfter = key
      · subst same
        rw [occurrences_singleton, if_pos rfl]
        omega
      · rw [occurrences_singleton, if_neg same, Nat.add_zero]
        exact before key

theorem step_detecting (hashes : chess.HashesKeys) (oneWay : chess.OneWay stock)
    {label : BoardLabel} (detecting : b.Detecting chess)
    (taken : b.step chess players label = some b') : b'.Detecting chess where
  sound := (step_sound detecting.sound taken).1
  rules := step_byRules detecting.rules taken
  detects := step_detects hashes oneWay detecting taken
  rare := step_rare detecting taken

end Boards

/-- In every run of the requests on one game from the starting position, whatever positions
share a hash: a recorded move leaves the game in the state that its position and the whole
list of earlier positions decide. A game that ends by repetition does so with the third
occurrence of its position, and a position that occurs a third time ends the game. -/
theorem threefold_detected (chess : ChessJs) (hasher : ZobristHasher) (reader : FenReader)
    (reads : reader.ReadsKey) (hashed : ∀ fen, chess.zobristHash fen = hasher.zobristHash reader fen)
    (stock : String → Nat) (oneWay : chess.OneWay stock) (players : Nat → Option Nat)
    (b b' : Board) (label : BoardLabel) (reached : (boards chess players).Reachable b)
    (taken : (boards chess players).step b label = some b') (move : MoveRow)
    (recorded : b'.db.moves = b.db.moves ++ [move]) :
    endStatus b'.db.row.status =
        chess.gameEndFromPosition move.fenAfter (startingFen :: b.db.moves.map MoveRow.fenAfter) ∧
      (b'.db.row.status = .threefoldRepetition →
        occurrences (positionKey move.fenAfter) (positions b'.db.moves) = 3) ∧
      (3 ≤ occurrences (positionKey move.fenAfter) (positions b'.db.moves) →
        b'.db.row.status ≠ .active) := by
  have hashes : chess.HashesKeys := by
    intro f g same
    rw [hashed, hashed]
    exact zobristHash_congr hasher reads same
  have detecting : b.Detecting chess := by
    apply reached.invariant (fun b => b.Detecting chess) (fun _ initial => initial_detecting initial)
    intro s label t detecting _ taken
    exact step_detecting hashes oneWay detecting taken
  have counts := step_counts detecting.rules taken
  have recording : b.recording label = true := by
    by_contra quiet
    have same := counts.moves (Bool.not_eq_true _ ▸ quiet)
    have longer := congrArg List.length (recorded.symm.trans same)
    rw [List.length_append, List.length_singleton] at longer
    omega
  obtain ⟨pending, finish, inside, appended⟩ := step_recording recording taken
  obtain ⟨active, -, moves, -⟩ := appendMove_some appended
  have row : move = pending.row := by
    rw [moves, List.append_cancel_left_eq] at recorded
    exact (List.singleton_inj.mp recorded).symm
  subst row
  have decided := recording_decision detecting inside appended
  have once : occurrences (positionKey pending.move.fenAfter) (positions b'.db.moves) =
      occurrences (positionKey pending.move.fenAfter) (positions b.db.moves) + 1 := by
    rw [moves, positions_append, occurrences_append, occurrences_singleton]
    exact congrArg _ (if_pos rfl)
  refine ⟨decided, fun drawn => ?_, fun thrice still => ?_⟩
  · rw [drawn] at decided
    have thrice := gameEnd_threefold decided.symm
    have before := detecting.rare active (positionKey pending.move.fenAfter)
    change occurrences (positionKey pending.move.fenAfter) _ = 3
    omega
  · have rare := (step_detecting hashes oneWay detecting taken).rare still
      (positionKey pending.move.fenAfter)
    change 3 ≤ occurrences (positionKey pending.move.fenAfter) _ at thrice
    omega

section Alekhine

/-- The squares that a character of the first field of a FEN stands for. -/
def readSquares (c : Char) : List (Option BoardSquare) :=
  let color := if c.isUpper then ClockSide.w else .b
  match c.toLower with
  | 'p' => [some ⟨.p, color⟩]
  | 'n' => [some ⟨.n, color⟩]
  | 'b' => [some ⟨.b, color⟩]
  | 'r' => [some ⟨.r, color⟩]
  | 'q' => [some ⟨.q, color⟩]
  | 'k' => [some ⟨.k, color⟩]
  | _ => List.replicate (c.toNat - '0'.toNat) none

def fenReader : FenReader where
  board fen := (((fenFields fen)[0]?.getD "").toList.splitOn '/').map (List.flatMap readSquares)
  turn := sideToMove

theorem fenReader_readsKey : fenReader.ReadsKey where
  board f g same := by
    have field : (fenFields f)[0]? = (fenFields g)[0]? := field_eq same (by decide)
    simp only [fenReader, field]
  turn f g same := by
    have field : (fenFields f)[1]? = (fenFields g)[1]? := field_eq same (by decide)
    simp only [fenReader, sideToMove, field]

def alekhineFen : String := "rnbqkb1r/pppppppp/5n2/8/4P3/8/PPPP1PPP/RNBQKBNR w KQkq - 1 2"

/-- chess.js on the game 1. e4 Nf6. -/
def alekhine : ChessJs where
  move fen start target promotion :=
    if fen = startingFen ∧ start = "e2" ∧ target = "e4" ∧ promotion = none then
      some ⟨"e4", kingPawnFen, false, true⟩
    else if fen = kingPawnFen ∧ start = "g8" ∧ target = "f6" ∧ promotion = none then
      some ⟨"Nf6", alekhineFen, false, false⟩
    else none
  isCheckmate _ := false
  isStalemate _ := false
  countPieces _ side := ⟨8, 2, 2, 2, 1, if side = .w then [.dark, .light] else [.light, .dark]⟩
  zobristHash := (ZobristHasher.new zobristSeed).zobristHash fenReader

/-- White's pawn has its first step to make, or has made it. -/
def pawnAtHome (key : String) : Nat := if key = positionKey startingFen then 1 else 0

theorem alekhine_keys :
    pawnAtHome (positionKey startingFen) = 1 ∧ pawnAtHome (positionKey kingPawnFen) = 0 ∧
      pawnAtHome (positionKey alekhineFen) = 0 := by
  decide +kernel

theorem alekhine_oneWay : alekhine.OneWay pawnAtHome where
  kept := by
    intro fen start target promotion move played
    obtain ⟨-, pawn, knight⟩ := alekhine_keys
    simp only [alekhine] at played
    split at played
    · cases played
      rw [pawn]
      exact Nat.zero_le _
    · split at played
      · cases played
        rw [knight]
        exact Nat.zero_le _
      · cases played
  spent := by
    intro fen start target promotion move played takes
    obtain ⟨home, pawn, -⟩ := alekhine_keys
    simp only [alekhine] at played
    split at played
    · rename_i first
      cases played
      rw [first.1, home, pawn]
      exact Nat.one_pos
    · split at played
      · cases played
        rcases takes with impossible | impossible <;> cases impossible
      · cases played

/-- Two moves, and the second one as far as its count. -/
def knightOut : List BoardLabel :=
  [.arrive (.makeMove 1 "e2e4") 0, .advance 0 0, .advance 0 0, .advance 0 0, .advance 0 0,
    .arrive (.makeMove 2 "g8f6") 0, .advance 0 0, .advance 0 0, .advance 0 0]

def pawnRow : MoveRow := ⟨1, "e4", "e2e4", kingPawnFen, "f74abd5fa3a1a16b", none, some 60000⟩

def knightRow : MoveRow :=
  ⟨2, "Nf6", "g8f6", alekhineFen, "f8da5b6ff3fd78ca", some 0, some 60000⟩

theorem knightOut_end :
    ((boards alekhine some).run newBoard knightOut).map
      (fun b => (b.db.moves, ((boards alekhine some).step b (.advance 0 0)).map fun next =>
        (next.db.moves, next.db.row.status))) =
      some ([pawnRow], some ([pawnRow, knightRow], .active)) := by
  decide +kernel

/-- The game goes on, and the whole list of its positions says so. -/
theorem knightOut_detected :
    ∃ b next, (boards alekhine some).run newBoard knightOut = some b ∧
      (boards alekhine some).step b (.advance 0 0) = some next ∧
      next.db.moves = b.db.moves ++ [knightRow] ∧
      alekhine.gameEndFromPosition alekhineFen [startingFen, kingPawnFen] = none := by
  obtain ⟨b, ran, seen⟩ := Option.map_eq_some_iff.mp knightOut_end
  simp only [Prod.mk.injEq, Option.map_eq_some_iff] at seen
  obtain ⟨before, next, taken, after, active⟩ := seen
  have recorded : next.db.moves = b.db.moves ++ [knightRow] := by
    rw [after, before]
    rfl
  refine ⟨b, next, ran, taken, recorded, ?_⟩
  have initial : newBoard.Initial := ⟨rfl, rfl, rfl, rfl, rfl⟩
  obtain ⟨decided, -⟩ := threefold_detected alekhine (ZobristHasher.new zobristSeed) fenReader
    fenReader_readsKey (fun _ => rfl) pawnAtHome alekhine_oneWay some b next (.advance 0 0)
    (Transition.System.run_reachable newBoard b knightOut initial ran) taken knightRow recorded
  rw [before, active] at decided
  exact decided.symm

end Alekhine

end Farzin.Play
