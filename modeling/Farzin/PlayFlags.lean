import Farzin.PlayClockRuns
import Farzin.PlaySerial

set_option autoImplicit false

/- The three tests of a fallen flag: the timer's, the claim's and the move's. -/
namespace Farzin.Play

/-- A game on a supported clock that has had a move, with no request at work on it. -/
structure World.Running (w : World) : Prop where
  quiet : w.inFlight = []
  active : w.db.row.status = .active
  started : w.db.moves ≠ []
  supported : Supported (clockConfig w.db.row)

def EndedOnTime (w : World) : Prop :=
  w.db.row.status = .timeout ∨ w.db.row.status = .timeoutVsInsufficientMaterial

section Decisions

variable (chess : ChessJs) (players : Nat → Option Nat) (w : World) (now : Int)

/-- The timer ends the game exactly when the flag has fallen. -/
def FlagAgrees : Prop :=
  EndedOnTime (serve chess players w .checkFlag now) ↔
    isFlagged (clockConfig w.db.row) (clockReading w now).state now = .ok true

/-- The claim of a player ends the game exactly when it is the opponent's turn and the
opponent's flag has fallen. -/
def ClaimAgrees (userId : Nat) (side : ClockSide) : Prop :=
  EndedOnTime (serve chess players w (.claimTimeout userId) now) ↔
    (clockReading w now).state.turn = side.other ∧
      isFlagged (clockConfig w.db.row) (clockReading w now).state now = .ok true

end Decisions

section Judgements

variable {config : ClockConfig} {state : ClockState} {now charge : Int}

theorem isFlagged_iff (charged : chargeableMs config (elapsedMs state now) = .ok charge) :
    isFlagged config state now = .ok true ↔ remainingOf state state.turn < charge := by
  unfold isFlagged
  simp only [charged, bind, Except.bind, pure, Except.pure, Except.ok.injEq, decide_eq_true_eq]

/-- On the clock that runs, time remains while the charge is less than what was stored. -/
theorem remaining_running (charged : chargeableMs config (elapsedMs state now) = .ok charge) :
    ∃ left, remaining config state state.turn now = .ok left ∧
      (0 < left ↔ charge < remainingOf state state.turn) := by
  refine ⟨max 0 (remainingOf state state.turn - charge), ?_, by omega⟩
  unfold remaining
  rw [if_neg (fun apart => apart rfl)]
  simp only [charged, bind, Except.bind, pure, Except.pure]

/-- The clock that stands still shows what was stored. -/
theorem remaining_still {side : ClockSide} (still : side ≠ state.turn) :
    remaining config state side now = .ok (remainingOf state side) :=
  if_pos still

/-- Both sides' times can be read off a supported clock. -/
theorem remaining_ok (charged : chargeableMs config (elapsedMs state now) = .ok charge)
    (side : ClockSide) : ∃ left, remaining config state side now = .ok left := by
  by_cases running : side = state.turn
  · subst running
    obtain ⟨left, read, -⟩ := remaining_running charged
    exact ⟨left, read⟩
  · exact ⟨_, remaining_still running⟩

variable {game : LoadedGame} {reading : ClockReading}

theorem flaggedTime_ok (charged : chargeableMs config (elapsedMs state now) = .ok charge)
    (mover side : ClockSide) : ∃ time, flaggedTime config state mover side now = some time := by
  unfold flaggedTime
  obtain ⟨left, read⟩ := remaining_ok charged side
  rw [read]
  by_cases lost : mover = side
  · exact ⟨0, if_pos lost⟩
  · exact ⟨left, if_neg lost⟩

/-- The timer lets a game go on exactly while the charge is less than what was stored. -/
theorem judgeFlag_none
    (charged : chargeableMs (clockConfig game.toGameRow) (elapsedMs reading.state now) = .ok charge) :
    judgeFlag now game reading = none ↔ charge < remainingOf reading.state reading.state.turn := by
  obtain ⟨left, read, positive⟩ := remaining_running charged
  obtain ⟨white, whiteTime⟩ := flaggedTime_ok charged reading.state.turn .w
  obtain ⟨black, blackTime⟩ := flaggedTime_ok charged reading.state.turn .b
  rw [← positive]
  unfold judgeFlag
  simp only [read, whiteTime, blackTime, toOption, Option.bind_eq_bind, Option.bind_some]
  by_cases remains : 0 < left
  · simp [remains]
  · simp [remains]

theorem judgeClaim_none {opponent : ClockSide} {left : Int}
    (read : remaining (clockConfig game.toGameRow) reading.state opponent now = .ok left) :
    judgeClaim opponent now game reading = none ↔ 0 < left := by
  unfold judgeClaim
  simp only [read, toOption, Option.bind_eq_bind, Option.bind_some]
  by_cases remains : 0 < left
  · simp [remains]
  · simp [remains]

end Judgements

section Served

variable {chess : ChessJs} {players : Nat → Option Nat} {w : World} {now : Int}

/-- A decision on time that nobody forestalls ends the game. -/
theorem finishAlone_timingOut (active : w.db.row.status = .active) (decision : TimeoutDecision) :
    EndedOnTime (finishAlone chess players w (.timingOut decision)) := by
  have done : w.db.finishGame (decision.finish chess) =
      some { w.db with row := GameDb.finished w.db.row (decision.finish chess) } :=
    if_neg fun ended => ended active
  rw [finishAlone_eq]
  simp only [advance, finishByTimeout, done]
  rw [finishAlone_eq]
  simp only [advance]
  change (decision.finish chess).status = _ ∨ (decision.finish chess).status = _
  unfold TimeoutDecision.finish
  cases material : chess.hasMatingMaterial decision.game.fen decision.loser.other with
  | true => exact .inl (if_pos material)
  | false => exact .inr (if_neg (by simp [material]))

/-- A timer or a claim ends the game exactly when it does not let it go on. -/
theorem serve_ends {request : Request} {intent : Intent} (active : w.db.row.status = .active)
    (checked : checkRequest chess players request now w.db.findGame =
      some (.loaded intent now w.db.findGame))
    (onTime : ∀ side uci, intent ≠ .move side uci) :
    EndedOnTime (serve chess players w request now) ↔
      ¬ judge chess intent now w.db.findGame (clockReading w now) = none := by
  have served : serve chess players w request now =
      finishAlone chess players w (.loaded intent now w.db.findGame) := by
    unfold serve
    rw [finishAlone_eq]
    simp only [advance, checked]
  rw [served, finishAlone_loaded]
  cases judged : judge chess intent now w.db.findGame (clockReading w now) with
  | none =>
      refine ⟨?_, fun goesOn => absurd rfl goesOn⟩
      intro ended
      rcases ended with timeout | draw
      · rw [active] at timeout
        cases timeout
      · rw [active] at draw
        cases draw
  | some rest =>
      rcases judge_cases judged with ⟨loser, final, rfl, -⟩ | ⟨side, uci, result, same, -⟩
      · exact ⟨fun _ none => (by cases none), fun _ => finishAlone_timingOut active _⟩
      · exact absurd same (onTime side uci)

theorem World.Running.plyCount (running : w.Running) : w.db.findGame.plyCount ≠ 0 := by
  intro none
  exact running.started (List.length_eq_zero_iff.mp none)

theorem checkRequest_flag (running : w.Running) :
    checkRequest chess players .checkFlag now w.db.findGame =
      some (.loaded .flag now w.db.findGame) := by
  unfold checkRequest
  rw [if_neg fun ended => ended running.active]
  simp only [running.plyCount, if_false]

theorem checkRequest_claim (running : w.Running) {userId : Nat} {side : ClockSide}
    (player : sideOf players userId w.db.findGame = some side) :
    checkRequest chess players (.claimTimeout userId) now w.db.findGame =
      some (.loaded (.claim side.other) now w.db.findGame) := by
  unfold checkRequest
  rw [if_neg fun ended => ended running.active]
  simp only [player, Option.bind_eq_bind, Option.bind_some, running.plyCount, if_false]

end Served

/-- Whoever asks on a running game: the flag test is the test that a move would meet, the
timer agrees with it except at the very millisecond at which the time is used up, and a claim
does except then, on the opponent's turn, and on the claimant's own turn when the opponent has
no stored time left. -/
theorem flag_decisions_iff (chess : ChessJs) (players : Nat → Option Nat) (w : World) (now : Int)
    (running : w.Running) :
    ∃ charge,
      chargeableMs (clockConfig w.db.row) (elapsedMs (clockReading w now).state now) =
        .ok charge ∧
      (∃ result, applyMove (clockConfig w.db.row) (clockReading w now).state now = .ok result ∧
        isFlagged (clockConfig w.db.row) (clockReading w now).state now = .ok result.flagged) ∧
      (FlagAgrees chess players w now ↔
        charge ≠ remainingOf (clockReading w now).state (clockReading w now).state.turn) ∧
      ∀ userId side, sideOf players userId w.db.findGame = some side →
        (ClaimAgrees chess players w now userId side ↔
          if side = (clockReading w now).state.turn then
            0 < remainingOf (clockReading w now).state side.other
          else charge ≠ remainingOf (clockReading w now).state (clockReading w now).state.turn) := by
  obtain ⟨charge, charged, -⟩ := chargeableMs_ok running.supported (clockReading w now).state now
  refine ⟨charge, charged, isFlagged_applyMove running.supported _ now, ?_, ?_⟩
  · unfold FlagAgrees
    rw [serve_ends running.active (checkRequest_flag running) (fun _ _ same => by cases same),
      isFlagged_iff charged]
    change (¬ judgeFlag now w.db.findGame (clockReading w now) = none ↔ _) ↔ _
    rw [judgeFlag_none charged]
    omega
  · intro userId side player
    unfold ClaimAgrees
    rw [serve_ends running.active (checkRequest_claim running player)
      (fun _ _ same => by cases same), isFlagged_iff charged]
    change (¬ judgeClaim side.other now w.db.findGame (clockReading w now) = none ↔ _) ↔ _
    by_cases own : side = (clockReading w now).state.turn
    · have still : side.other ≠ (clockReading w now).state.turn := own ▸ side.other_ne
      rw [if_pos own, judgeClaim_none (remaining_still still)]
      have never : (clockReading w now).state.turn ≠ side.other := fun same => still same.symm
      simp only [never, false_and, iff_false, not_not]
    · have turn : side.other = (clockReading w now).state.turn := by
        revert own
        cases side <;> cases (clockReading w now).state.turn <;> decide
      obtain ⟨left, read, positive⟩ := remaining_running charged
      rw [← turn] at read
      rw [if_neg own, judgeClaim_none read, positive]
      simp only [turn, true_and]
      omega

/-- After White's first move the clock of Black runs. -/
def afterKingPawn : World := serve openGame some newGame (.makeMove 1 "e2e4") 0

theorem afterKingPawn_eq :
    afterKingPawn =
      { newGame with
        db :=
          { row := { newGame.db.row with fen := kingPawnFen }
            moves := [⟨1, "e4", "e2e4", kingPawnFen, "f74abd5fa3a1a16b", none, some 60000⟩] }
        clock := some ⟨⟨1, ⟨60000, 60000, .b, 0⟩⟩, 1⟩ } := by
  decide +kernel

theorem afterKingPawn_running : afterKingPawn.Running := by
  rw [afterKingPawn_eq]
  exact ⟨rfl, rfl, List.cons_ne_nil _ _, by decide, by decide, by decide⟩

/-- One millisecond before, the tests agree. -/
theorem afterKingPawn_agrees :
    FlagAgrees openGame some afterKingPawn 59999 ∧
      ClaimAgrees openGame some afterKingPawn 59999 1 .w := by
  obtain ⟨charge, charged, -, timer, claim⟩ :=
    flag_decisions_iff openGame some afterKingPawn 59999 afterKingPawn_running
  have white : sideOf some 1 afterKingPawn.db.findGame = some .w := by
    rw [afterKingPawn_eq]
    rfl
  have claim := claim 1 .w white
  rw [afterKingPawn_eq] at charged
  cases charged
  have state : (clockReading afterKingPawn 59999).state = ⟨60000, 60000, .b, 0⟩ := by
    rw [afterKingPawn_eq]
    rfl
  rw [state] at timer claim
  exact ⟨timer.mpr (by decide), claim.mpr (by decide)⟩

/-- Black answers in the last millisecond. -/
def afterWholeMinute : World := serve openGame some afterKingPawn (.makeMove 2 "e7e5") 60000

theorem afterWholeMinute_eq :
    afterWholeMinute =
      { newGame with
        db :=
          { row := { newGame.db.row with fen := openGameFen }
            moves :=
              [⟨1, "e4", "e2e4", kingPawnFen, "f74abd5fa3a1a16b", none, some 60000⟩,
                ⟨2, "e5", "e7e5", openGameFen, "a3670ae5d9e50a7a", some 60000, some 0⟩] }
        clock := some ⟨⟨2, ⟨60000, 0, .w, 60000⟩⟩, 2⟩
        playedAt := 60000 } := by
  unfold afterWholeMinute
  rw [afterKingPawn_eq]
  decide +kernel

theorem afterWholeMinute_running : afterWholeMinute.Running := by
  rw [afterWholeMinute_eq]
  exact ⟨rfl, rfl, List.cons_ne_nil _ _, by decide, by decide, by decide⟩

theorem afterWholeMinute_ends :
    (serve openGame some afterKingPawn .checkFlag 60000).db.row.status = .timeout ∧
      (serve openGame some afterWholeMinute (.claimTimeout 1) 60000).db.row.status =
        .timeout := by
  rw [afterKingPawn_eq, afterWholeMinute_eq]
  decide +kernel

/-- With the whole minute used up, to the millisecond, Black's flag has not fallen and the move
is accepted; the timer ends the game all the same. After that move White, on move, claims the
time of Black. -/
theorem flag_decisions_differ :
    afterKingPawn.Running ∧ ¬ FlagAgrees openGame some afterKingPawn 60000 ∧
      afterWholeMinute.Running ∧ ¬ ClaimAgrees openGame some afterWholeMinute 60000 1 .w := by
  obtain ⟨ended, claimed⟩ := afterWholeMinute_ends
  refine ⟨afterKingPawn_running, ?_, afterWholeMinute_running, ?_⟩
  · intro agrees
    have fallen := agrees.mp (.inl ended)
    rw [afterKingPawn_eq] at fallen
    cases fallen
  · intro agrees
    have turn := (agrees.mp (.inl claimed)).1
    rw [afterWholeMinute_eq] at turn
    cases turn

end Farzin.Play
