import Farzin.PlayIntegrity

set_option autoImplicit false

/- Which step of which request gives a game its result. -/
namespace Farzin.Play

/-- The results that are declared and not played: `finishNoMove` alone stores them. -/
def declaredStatuses : List OnlineGameStatusValue := [.resignation, .drawAgreed, .abandoned, .aborted]

/-- A move that ends the game ends it by the rules of chess. -/
def Progress.ByRules : Progress → Prop
  | .appending _ finish => ∀ input, finish = some input → input.status ∉ declaredStatuses
  | _ => True

def Stage.ByRules : Stage → Prop
  | .timed progress => progress.ByRules
  | _ => True

/-- The result that a request is about to store without a move. -/
def Stage.ending : Stage → Option OnlineGameStatusValue
  | .listing ending => some ending.status
  | .loading ending _ _ => some ending.status
  | .finishing finish => some finish.status
  | _ => none

/-- The request that a step lets go on. -/
def Board.turn (b : Board) : BoardLabel → Option Stage
  | .advance index _ => b.inFlight[index]?
  | _ => none

/-- A step of `appendMove` that commits. -/
def Board.recording (b : Board) (label : BoardLabel) : Bool :=
  match b.turn label with
  | some (.timed (.appending pending finish)) => (b.db.appendMove pending.row finish).isSome
  | _ => false

/-- What a step of `finishGame` for `finishNoMove` stores: nothing when the game is over. -/
def Board.storing (b : Board) (label : BoardLabel) : Option OnlineGameStatusValue :=
  match b.turn label with
  | some (.finishing finish) => if b.db.row.status = .active then some finish.status else none
  | _ => none

section Rules

variable {chess : ChessJs} {players : Nat → Option Nat}

theorem gameEnd_byRules {fen : String} {priorFens : List String} {status : OnlineGameStatusValue}
    (ended : chess.gameEndFromPosition fen priorFens = some status) :
    status ∉ declaredStatuses := by
  unfold ChessJs.gameEndFromPosition at ended
  split at ended
  · cases ended
    decide
  · split at ended
    · cases ended
      decide
    · split at ended
      · cases ended
        decide
      · split at ended
        · cases ended
          decide
        · split at ended
          · cases ended
            decide
          · cases ended

theorem countPositions_byRules (db : GameDb) (pending : PendingMove) :
    (Progress.appending pending (countPositions db pending)).ByRules := by
  intro input counted
  unfold countPositions at counted
  simp only [Option.ite_none_right_eq_some, Option.some.injEq] at counted
  rw [← counted.2]
  change OnlineGameStatusValue.threefoldRepetition ∉ declaredStatuses
  decide

theorem playMove_byRules {side : ClockSide} {uci : String} {now : Int} {game : LoadedGame}
    {newClock : ClockState} {elapsed : Int} {version source : Option Nat} {next : Progress}
    (played : playMove chess side uci now game newClock elapsed version source = some next) :
    next.ByRules := by
  unfold playMove at played
  split at played
  · cases played
  · split at played
    · rename_i status ended
      cases played
      intro input same
      cases same
      exact gameEnd_byRules ended
    · split at played
      · cases played
        intro input none
        cases none
      · cases played
        trivial

theorem judge_byRules {intent : Intent} {now : Int} {game : LoadedGame} {reading : ClockReading}
    {next : Progress} (judged : judge chess intent now game reading = some next) :
    next.ByRules := by
  rcases judge_cases judged with ⟨loser, final, rfl, -⟩ | ⟨side, uci, _, -, -, -, played⟩
  · trivial
  · exact playMove_byRules played

theorem checkRequest_byRules {request : Request} {now : Int} {game : LoadedGame} {next : Progress}
    (checked : checkRequest chess players request now game = some next) : next.ByRules := by
  rcases checkRequest_cases checked with ⟨uci, -, played⟩ | ⟨intent, rfl, -, -⟩
  · exact playMove_byRules played
  · trivial

theorem advance_byRules {w : World} {p q : Progress} (next : q ∈ (advance chess players w p).2) :
    q.ByRules := by
  cases p with
  | begun request now => exact checkRequest_byRules next
  | loaded intent now game =>
      change loadClock chess w intent now game = some q at next
      unfold loadClock at next
      split at next
      · cases next
        trivial
      · exact judge_byRules next
  | noEntry intent now game => exact judge_byRules next
  | counting pending =>
      cases next
      exact countPositions_byRules w.db pending
  | appending pending finish =>
      change (appendPending w pending finish).2 = some q at next
      unfold appendPending at next
      split at next
      · cases next
      · cases next
        trivial
  | timingOut decision =>
      change (finishByTimeout chess w decision).2 = some q at next
      unfold finishByTimeout at next
      split at next
      · cases next
      · cases next
        trivial
  | writing write =>
      obtain ⟨-, rest⟩ := writeClock_db w write
      change (writeClock w write).2 = some q at next
      rcases rest with finished | clearing
      · rw [finished] at next
        cases next
      · rw [clearing] at next
        cases next
        trivial
  | clearing => cases next

end Rules

section Steps

variable {chess : ChessJs} {players : Nat → Option Nat} {b b' : Board}

/-- A timed request that goes on stays one, or is at the end of its move. -/
theorem advanceTimed_next {p : Progress} {q : Stage}
    (next : q ∈ (advanceTimed chess players b p).2) :
    (∃ progress ∈ (advance chess players b.world p).2, q = .timed progress) ∨
      ∃ clock, q = .endMove clock := by
  cases p with
  | writing write =>
      unfold advanceTimed at next
      by_cases ended : write.ended = true
      · simp only [ended, if_true] at next
        cases next
      · simp only [ended] at next
        cases next
        exact .inr ⟨_, rfl⟩
  | clearing => cases next
  | counting pending =>
      cases next
      exact .inl ⟨_, rfl, rfl⟩
  | begun | loaded | noEntry | appending | timingOut =>
      obtain ⟨progress, left, rfl⟩ := Option.mem_map.mp next
      exact .inl ⟨progress, left, rfl⟩

theorem checkEnding_byRules {game : LoadedGame} {request : EndingRequest} {next : Stage}
    (checked : checkEnding players game request = some next) : next.ByRules := by
  cases next with
  | timed p =>
      exfalso
      cases request <;> simp [checkEnding, Option.bind_eq_some_iff] at checked
  | _ => trivial

/-- What is about to be stored without a move has passed the checks of its request: at the
beginning, or, for an accepted draw, with the offer in hand. -/
theorem advance_next {now : Int} {stage q : Stage}
    (next : q ∈ (b.advance chess players now stage).2) :
    q.ByRules ∧ ∀ status, q.ending = some status → stage.ending = some status ∨
      (∃ request, stage = .begun request ∧ checkEnding players b.db.findGame request = some q) ∨
      ∃ side game, stage = .answering side game ∧ answerDraw side game b.drawOffer = some q := by
  cases stage with
  | timed p =>
      rcases advanceTimed_next next with ⟨progress, left, rfl⟩ | ⟨clock, rfl⟩
      · exact ⟨advance_byRules left, fun _ none => by cases none⟩
      · exact ⟨trivial, fun _ none => by cases none⟩
  | endMove clock =>
      cases clock with
      | none => cases next
      | some progress =>
          cases next
          exact ⟨trivial, fun _ none => by cases none⟩
  | begun request => exact ⟨checkEnding_byRules next, fun _ _ => .inr (.inl ⟨request, rfl, next⟩)⟩
  | offering side => cases next
  | answering side game =>
      refine ⟨?_, fun _ _ => .inr (.inr ⟨side, game, rfl, next⟩)⟩
      change answerDraw side game b.drawOffer = some q at next
      unfold answerDraw at next
      split at next
      · cases next
      · cases next
        trivial
  | listing ending =>
      cases next
      exact ⟨trivial, fun _ same => .inl same⟩
  | loading ending moves started =>
      change finishNoMove ending moves started b.clock = some q at next
      simp only [finishNoMove, Option.bind_eq_bind, Option.bind_eq_some_iff] at next
      obtain ⟨white, _, black, _, same⟩ := next
      cases same
      exact ⟨trivial, fun _ same => .inl same⟩
  | finishing finish =>
      simp only [Board.advance] at next
      split at next
      · cases next
      · cases next
        exact ⟨trivial, fun _ none => by cases none⟩
  | clearing => cases next

theorem turn_advance {index : Nat} (now : Int) {stage : Stage}
    (here : b.inFlight[index]? = some stage) : b.turn (.advance index now) = some stage := here

/-- A result is stored by the request whose turn it is, and only while the game goes on. -/
theorem storing_cases {label : BoardLabel} {status : OnlineGameStatusValue}
    (storing : b.storing label = some status) :
    b.db.row.status = .active ∧ ∃ finish index now, label = .advance index now ∧
      b.inFlight[index]? = some (.finishing finish) ∧ finish.status = status := by
  unfold Board.storing at storing
  split at storing
  · rename_i finish here
    split at storing
    · rename_i active
      cases storing
      cases label with
      | advance index now => exact ⟨active, finish, index, now, rfl, here, rfl⟩
      | _ => cases here
    · cases storing
  · cases storing

theorem step_storing {label : BoardLabel} {status : OnlineGameStatusValue}
    (storing : b.storing label = some status) (taken : b.step chess players label = some b') :
    b.db.row.status = .active ∧ b'.db.row.status = status ∧ b'.db.moves = b.db.moves ∧
      ∃ finish, b.turn label = some (.finishing finish) ∧ finish.status = status := by
  obtain ⟨active, finish, index, now, rfl, here, same⟩ := storing_cases storing
  obtain ⟨stage, there, rfl⟩ := board_advance_taken taken
  cases here.symm.trans there
  have done : b.db.finishGame finish =
      some { b.db with row := GameDb.finished b.db.row finish } := by
    unfold GameDb.finishGame
    rw [if_neg (not_not_intro active)]
  have after : (b.advance chess players now (.finishing finish)).1.db =
      { b.db with row := GameDb.finished b.db.row finish } := by
    simp only [Board.advance, done]
  refine ⟨active, ?_, ?_, finish, here, same⟩
  · change (b.advance chess players now (.finishing finish)).1.db.row.status = _
    rw [after]
    exact same
  · change (b.advance chess players now (.finishing finish)).1.db.moves = _
    rw [after]

/-- Moves are recorded by `appendMove` alone, one at a time, and a game is never reopened. -/
structure Counts (b b' : Board) (label : BoardLabel) : Prop where
  opened : b'.db.row.status = .active → b.db.row.status = .active
  moves : b.recording label = false → b'.db.moves = b.db.moves
  recorded : b.recording label = true →
    b.db.row.status = .active ∧ b'.db.moves.length = b.db.moves.length + 1

/-- What the steps do that store no declared result. -/
structure Otherwise (b b' : Board) (label : BoardLabel) : Prop extends Counts b b' label where
  result : b'.db.row.status = b.db.row.status ∨ b'.db.row.status ∉ declaredStatuses

theorem Counts.quiet {label : BoardLabel} (quiet : b.recording label = false)
    (opened : b'.db.row.status = .active → b.db.row.status = .active)
    (moves : b'.db.moves = b.db.moves) : Counts b b' label := by
  refine ⟨opened, fun _ => moves, fun recording => ?_⟩
  rw [quiet] at recording
  cases recording

theorem Otherwise.same {label : BoardLabel} (same : b'.db = b.db)
    (quiet : b.recording label = false) : Otherwise b b' label := by
  refine ⟨.quiet quiet ?_ ?_, .inl ?_⟩
  · rw [same]
    exact id
  · rw [same]
  · rw [same]

theorem appendMove_otherwise {label : BoardLabel} {pending : PendingMove}
    {finish : Option FinishGameInput} (rules : (Progress.appending pending finish).ByRules)
    (here : b.turn label = some (.timed (.appending pending finish)))
    (appended : b.db.appendMove pending.row finish = some b'.db) : Otherwise b b' label := by
  obtain ⟨active, -, moves, -, -, result⟩ := appendMove_some appended
  have recording : b.recording label = true := by simp [Board.recording, here, appended]
  refine ⟨⟨fun _ => active, fun quiet => ?_, fun _ => ⟨active, ?_⟩⟩, ?_⟩
  · rw [recording] at quiet
    cases quiet
  · rw [moves, List.length_append, List.length_singleton]
  · rcases result with ⟨-, still⟩ | ⟨input, same, ended⟩
    · exact .inl (still.trans active.symm)
    · rw [ended]
      exact .inr (rules input same)

theorem timeout_otherwise {label : BoardLabel} {decision : TimeoutDecision}
    (quiet : b.recording label = false)
    (done : b.db.finishGame (decision.finish chess) = some b'.db) : Otherwise b b' label := by
  obtain ⟨active, same⟩ := finishGame_some done
  have result : b'.db.row.status = (decision.finish chess).status := by
    rw [same]
    rfl
  have moves : b'.db.moves = b.db.moves := by rw [same]
  refine ⟨.quiet quiet (fun _ => active) moves, .inr ?_⟩
  rw [result]
  unfold TimeoutDecision.finish
  dsimp only
  split <;> decide

/-- The rows that a timed request leaves are those of the await alone. -/
theorem advance_timed_db (b : Board) (now : Int) (p : Progress) :
    (b.advance chess players now (.timed p)).1.db = (advance chess players b.world p).1.db := by
  change (advanceTimed chess players b p).1.db = _
  unfold advanceTimed
  cases p with
  | writing write => by_cases ended : write.ended = true <;> simp only [ended] <;> rfl
  | _ => rfl

theorem advance_otherwise {label : BoardLabel} {stage : Stage} {now : Int}
    (here : b.turn label = some stage) (rules : stage.ByRules) (nothing : b.storing label = none)
    (after : b'.db = (b.advance chess players now stage).1.db) : Otherwise b b' label := by
  cases stage with
  | timed p =>
      have same : b'.db = (advance chess players b.world p).1.db :=
        after.trans (advance_timed_db b now p)
      cases p with
      | appending pending finish =>
          change b'.db = (appendPending b.world pending finish).1.db at same
          unfold appendPending at same
          cases appended : b.db.appendMove pending.row finish with
          | none =>
              have world : b.world.db.appendMove pending.row finish = none := appended
              simp only [world] at same
              exact .same same (by simp [Board.recording, here, appended])
          | some db =>
              have world : b.world.db.appendMove pending.row finish = some db := appended
              simp only [world] at same
              rw [← same] at appended
              exact appendMove_otherwise rules here appended
      | timingOut decision =>
          have quiet : b.recording label = false := by simp [Board.recording, here]
          change b'.db = (finishByTimeout chess b.world decision).1.db at same
          unfold finishByTimeout at same
          cases done : b.db.finishGame (decision.finish chess) with
          | none =>
              have world : b.world.db.finishGame (decision.finish chess) = none := done
              simp only [world] at same
              exact .same same quiet
          | some db =>
              have world : b.world.db.finishGame (decision.finish chess) = some db := done
              simp only [world] at same
              rw [← same] at done
              exact timeout_otherwise quiet done
      | writing write =>
          obtain ⟨kept, -⟩ := writeClock_db b.world write
          exact .same (same.trans kept) (by simp [Board.recording, here])
      | begun | loaded | noEntry | counting | clearing =>
          exact .same same (by simp [Board.recording, here])
  | finishing finish =>
      have finished : b.db.row.status ≠ .active := by
        intro active
        simp [Board.storing, here, active] at nothing
      have refused : b.db.finishGame finish = none := by
        unfold GameDb.finishGame
        rw [if_pos finished]
      simp only [Board.advance, refused] at after
      exact .same after (by simp [Board.recording, here])
  | endMove clock =>
      cases clock <;> exact .same after (by simp [Board.recording, here])
  | begun | offering | answering | listing | loading | clearing =>
      exact .same after (by simp [Board.recording, here])

theorem step_otherwise {label : BoardLabel} (rules : ∀ stage ∈ b.inFlight, stage.ByRules)
    (nothing : b.storing label = none) (taken : b.step chess players label = some b') :
    Otherwise b b' label := by
  cases label with
  | arrive | arriveEnding | expireClock | expireOffer =>
      cases taken
      exact .same rfl rfl
  | advance index now =>
      obtain ⟨stage, here, rfl⟩ := board_advance_taken taken
      exact advance_otherwise (turn_advance now here)
        (rules stage (List.mem_of_getElem? here)) nothing rfl

theorem step_counts {label : BoardLabel} (rules : ∀ stage ∈ b.inFlight, stage.ByRules)
    (taken : b.step chess players label = some b') : Counts b b' label := by
  cases storing : b.storing label with
  | none => exact (step_otherwise rules storing taken).toCounts
  | some status =>
      obtain ⟨active, -, moves, finish, turn, -⟩ := step_storing storing taken
      exact .quiet (by simp [Board.recording, turn]) (fun _ => active) moves

theorem initial_byRules (initial : b.Initial) : ∀ stage ∈ b.inFlight, stage.ByRules := by
  rw [initial.inFlight]
  intro stage inside
  cases inside

theorem step_byRules {label : BoardLabel} (rules : ∀ stage ∈ b.inFlight, stage.ByRules)
    (taken : b.step chess players label = some b') : ∀ stage ∈ b'.inFlight, stage.ByRules := by
  cases label with
  | arrive | arriveEnding =>
      cases taken
      intro stage inside
      rcases List.mem_append.mp inside with old | new
      · exact rules stage old
      · cases List.mem_singleton.mp new
        trivial
  | expireClock | expireOffer =>
      cases taken
      exact rules
  | advance index now =>
      obtain ⟨stage, here, rfl⟩ := board_advance_taken taken
      intro q inside
      rcases List.mem_append.mp inside with old | new
      · exact rules q (List.mem_of_mem_eraseIdx old)
      · exact (advance_next (Option.mem_toList.mp new)).1

end Steps

end Farzin.Play
