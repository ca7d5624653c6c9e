import Farzin.PlayClockAgreement

set_option autoImplicit false

/- Who loses on time. -/
namespace Farzin.Play

/-- The side that lost is to move in the stored position, and its thinking time since the
last recorded move had used up the time it had left when the timeout was decided. -/
def LostOnTime (w : World) : Prop :=
  ∃ loser charge, w.db.row.winnerColor = some loser.other.color ∧
    loser = sideToMove w.db.row.fen ∧
    chargeableMs (clockConfig w.db.row) (max 0 (w.decidedAt - w.playedAt)) = .ok charge ∧
    recordedMs (clockConfig w.db.row) w.db.moves loser ≤ charge

/-- The clock a decision went by is that of the last recorded move. -/
structure ReadsLastMove (w : World) (reading : ClockReading) : Prop where
  agrees : Agrees (clockConfig w.db.row) w.db.moves reading.state
  lastEvent : reading.state.lastEventAtMs = w.playedAt

section Guard

variable (chess : ChessJs)

/-- A timeout is decided on the present state of the game: no move has been recorded since
the request loaded it, a clock entry that it read is that of the last recorded move, and a
claim is made while the opponent is to move. -/
def DecidesOnPresent (w : World) : WorldLabel → Prop
  | .advance index =>
      ∀ decision, w.inFlight[index]? = some (.timingOut decision) → w.db.row.status = .active →
        chess.hasMatingMaterial decision.game.fen decision.loser.other = true →
        decision.game.plyCount = w.db.moves.length ∧
          (decision.reading.source ≠ none → ReadsLastMove w decision.reading) ∧
          ∀ opponent, decision.intent = .claim opponent → opponent = sideToMove decision.game.fen
  | _ => True

end Guard

section Invariant

variable {chess : ChessJs} {players : Nat → Option Nat} {w : World}

/-- What a decision knows whose clock was put together from the log. -/
structure Rebuilt (db : GameDb) (decision : TimeoutDecision) : Prop where
  lastEvent : decision.reading.state.lastEventAtMs = decision.now
  agrees : decision.game.plyCount = db.moves.length →
    Agrees (clockConfig db.row) db.moves decision.reading.state

def World.Rebuilds (w : World) : Prop :=
  ∀ decision, .timingOut decision ∈ w.inFlight → decision.reading.source = none →
    Rebuilt w.db decision

theorem Rebuilt.grow {db db' : GameDb} {decision : TimeoutDecision} (rebuilt : Rebuilt db decision)
    (fits : GameFits db decision.game) (config : clockConfig db'.row = clockConfig db.row)
    (grown : db'.moves = db.moves ∨ db.moves.length < db'.moves.length) : Rebuilt db' decision := by
  refine ⟨rebuilt.lastEvent, fun last => ?_⟩
  rcases grown with same | longer
  · rw [config, same]
    rw [same] at last
    exact rebuilt.agrees last
  · have within := fits.plies
    omega

/-- A decision that comes out of a step is a new one about the clock just read. -/
theorem judge_rebuilt (logged : Logged w) {intent : Intent} {now : Int} {game : LoadedGame}
    {reading : ClockReading} {decision : TimeoutDecision} (fits : GameFits w.db game)
    (source : reading.source = none → reading.state = reconstructClock game w.db.listMoves now)
    (judged : judge chess intent now game reading = some (.timingOut decision))
    (none : decision.reading.source = none) : Rebuilt w.db decision := by
  rcases judge_cases judged with ⟨loser, final, same, -⟩ | ⟨_, _, _, -, -, -, played⟩
  · cases same
    have state := source none
    constructor
    · change reading.state.lastEventAtMs = now
      rw [state]
      rfl
    · intro last
      change Agrees _ _ reading.state
      rw [state]
      exact reconstruct_agrees now fits logged.plies last
  · obtain ⟨move, -, shape⟩ := playMove_cases played
    rcases shape with impossible | ⟨finish, -, impossible⟩
    · cases impossible
    · cases impossible

/-- The decisions that a step brings about. -/
theorem advance_rebuilds (logged : Logged w) {p : Progress} (fits : p.Fits w.db)
    {decision : TimeoutDecision}
    (next : (advance chess players w p).2 = some (.timingOut decision))
    (none : decision.reading.source = none) :
    Rebuilt (advance chess players w p).1.db decision := by
  cases p with
  | begun request now =>
      rcases checkRequest_cases next with ⟨uci, -, played⟩ | ⟨intent, impossible, -⟩
      · obtain ⟨move, -, shape⟩ := playMove_cases played
        rcases shape with impossible | ⟨finish, -, impossible⟩
        · cases impossible
        · cases impossible
      · cases impossible
  | loaded intent now game =>
      change loadClock chess w intent now game = _ at next
      unfold loadClock at next
      cases entry : w.clock with
      | none =>
          rw [entry] at next
          cases next
      | some stored =>
          rw [entry] at next
          exact judge_rebuilt logged fits.1 (fun impossible => by cases impossible) next none
  | noEntry intent now game => exact judge_rebuilt logged fits.1 (fun _ => rfl) next none
  | counting pending => cases next
  | appending pending finish =>
      change (appendPending w pending finish).2 = _ at next
      unfold appendPending at next
      cases appended : w.db.appendMove pending.row finish with
      | none =>
          rw [appended] at next
          cases next
      | some db =>
          rw [appended] at next
          cases next
  | timingOut decision' =>
      change (finishByTimeout chess w decision').2 = _ at next
      unfold finishByTimeout at next
      cases done : w.db.finishGame (decision'.finish chess) with
      | none =>
          rw [done] at next
          cases next
      | some db =>
          rw [done] at next
          cases next
  | writing write =>
      change (writeClock w write).2 = _ at next
      rcases (writeClock_db w write).2 with ended | clearing
      · rw [ended] at next
        cases next
      · rw [clearing] at next
        cases next
  | clearing => cases next

/-- Only recording a move and finishing the game change the rows. -/
theorem advance_rows (p : Progress) :
    (clockConfig (advance chess players w p).1.db.row = clockConfig w.db.row ∧
      ((advance chess players w p).1.db.moves = w.db.moves ∨
        w.db.moves.length < (advance chess players w p).1.db.moves.length)) := by
  have same : ∀ next : World, next.db = w.db → clockConfig next.db.row = clockConfig w.db.row ∧
      (next.db.moves = w.db.moves ∨ w.db.moves.length < next.db.moves.length) := by
    intro next kept
    rw [kept]
    exact ⟨rfl, .inl rfl⟩
  cases p with
  | begun | loaded | noEntry | counting | clearing => exact same _ rfl
  | writing write => exact same _ (writeClock_db w write).1
  | appending pending finish =>
      change clockConfig (appendPending w pending finish).1.db.row = _ ∧
        ((appendPending w pending finish).1.db.moves = _ ∨
          _ < (appendPending w pending finish).1.db.moves.length)
      unfold appendPending
      cases appended : w.db.appendMove pending.row finish with
      | none => exact same _ rfl
      | some db =>
          obtain ⟨-, -, moves, -, config, -⟩ := appendMove_some appended
          refine ⟨config, .inr ?_⟩
          change _ < db.moves.length
          rw [moves, List.length_append, List.length_singleton]
          exact Nat.lt_succ_self _
  | timingOut decision =>
      change clockConfig (finishByTimeout chess w decision).1.db.row = _ ∧
        ((finishByTimeout chess w decision).1.db.moves = _ ∨
          _ < (finishByTimeout chess w decision).1.db.moves.length)
      unfold finishByTimeout
      cases done : w.db.finishGame (decision.finish chess) with
      | none => exact same _ rfl
      | some db =>
          obtain ⟨-, rfl⟩ := finishGame_some done
          exact ⟨rfl, .inl rfl⟩

theorem step_rebuilds (label : WorldLabel) (w' : World) (logged : Logged w) (rebuilds : w.Rebuilds)
    (taken : (worlds chess players).step w label = some w') : w'.Rebuilds := by
  cases label with
  | arrive request now =>
      cases taken
      intro decision inside none
      rcases List.mem_append.mp inside with old | new
      · exact rebuilds decision old none
      · cases List.mem_singleton.mp new
  | expire =>
      cases taken
      exact rebuilds
  | advance index =>
      obtain ⟨p, here, rfl⟩ := advance_taken taken
      have fits := logged.requests p (List.mem_of_getElem? here)
      obtain ⟨config, grown⟩ := @advance_rows chess players w p
      intro decision inside none
      rcases mem_rest.mp inside with old | new
      · have before := List.mem_of_mem_eraseIdx old
        exact (rebuilds decision before none).grow (logged.requests _ before).1 config grown
      · exact advance_rebuilds logged fits new none

/-- A timeout decided on the present state is lost by the side to move. -/
theorem finish_lost (logged : Logged w) (rebuilds : w.Rebuilds) {decision : TimeoutDecision}
    (inside : .timingOut decision ∈ w.inFlight)
    (material : chess.hasMatingMaterial decision.game.fen decision.loser.other = true)
    (last : decision.game.plyCount = w.db.moves.length)
    (read : decision.reading.source ≠ none → ReadsLastMove w decision.reading)
    (claimed : ∀ opponent, decision.intent = .claim opponent →
      opponent = sideToMove decision.game.fen) :
    LostOnTime { w with
      db := { w.db with row := GameDb.finished w.db.row (decision.finish chess) }
      decidedAt := decision.now } := by
  obtain ⟨fits, mover, decided⟩ := logged.requests _ inside
  have agrees : Agrees (clockConfig w.db.row) w.db.moves decision.reading.state ∧
      elapsedMs decision.reading.state decision.now ≤ max 0 (decision.now - w.playedAt) := by
    unfold elapsedMs
    by_cases entry : decision.reading.source = none
    · obtain ⟨lastEvent, agrees⟩ := rebuilds decision inside entry
      exact ⟨agrees last, by omega⟩
    · obtain ⟨agrees, lastEvent⟩ := read entry
      exact ⟨agrees, by omega⟩
  have turn := agrees.1.turn
  have loser : decision.loser = sideAfter w.db.moves.length := by
    have named := decided.loser
    cases intent : decision.intent with
    | move side uci =>
        rw [intent] at named
        rw [show decision.loser = side from named, mover side uci intent, last]
    | flag =>
        rw [intent] at named
        exact (show decision.loser = _ from named).trans turn
    | claim opponent =>
        rw [intent] at named
        rw [show decision.loser = opponent from named, claimed opponent intent, fits.turn, last]
  obtain ⟨charge, charged, used⟩ := decided.used (loser.trans turn.symm)
  rw [fits.config] at charged
  obtain ⟨more, longer, le⟩ := chargeableMs_mono agrees.2 charged
  refine ⟨decision.loser, more, ?_, ?_, longer, ?_⟩
  · simp [GameDb.finished, TimeoutDecision.finish, material]
  · exact loser.trans logged.turn.symm
  · rw [agrees.1.times] at used
    exact used.trans le

/-- Every step keeps a finished game as it is, and finishes a game on time in order. -/
theorem step_lost (label : WorldLabel) (w' : World) (logged : Logged w) (rebuilds : w.Rebuilds)
    (lost : w.db.row.status = .timeout → LostOnTime w) (present : DecidesOnPresent chess w label)
    (taken : (worlds chess players).step w label = some w') :
    w'.db.row.status = .timeout → LostOnTime w' := by
  cases label with
  | arrive request now =>
      cases taken
      exact lost
  | expire =>
      cases taken
      exact lost
  | advance index =>
      obtain ⟨p, here, rfl⟩ := advance_taken taken
      have inside := List.mem_of_getElem? here
      cases p with
      | begun | loaded | noEntry | counting | clearing => exact lost
      | writing write =>
          have kept : (writeClock w write).1.db = w.db ∧
              (writeClock w write).1.playedAt = w.playedAt ∧
              (writeClock w write).1.decidedAt = w.decidedAt := by
            unfold writeClock ClockWrite.compareAndSet
            repeat' split
            all_goals exact ⟨rfl, rfl, rfl⟩
          intro timeout
          change (writeClock w write).1.db.row.status = .timeout at timeout
          rw [kept.1] at timeout
          obtain ⟨loser, charge, known⟩ := lost timeout
          refine ⟨loser, charge, ?_⟩
          change (writeClock w write).1.db.row.winnerColor = _ ∧
            loser = sideToMove (writeClock w write).1.db.row.fen ∧
            chargeableMs (clockConfig (writeClock w write).1.db.row)
              (max 0 ((writeClock w write).1.decidedAt - (writeClock w write).1.playedAt)) = _ ∧
            recordedMs (clockConfig (writeClock w write).1.db.row)
              (writeClock w write).1.db.moves loser ≤ charge
          rw [kept.1, kept.2.1, kept.2.2]
          exact known
      | appending pending finish =>
          change (appendPending w pending finish).1.db.row.status = .timeout → LostOnTime
            { (appendPending w pending finish).1 with
              inFlight := w.inFlight.eraseIdx index ++
                (appendPending w pending finish).2.toList }
          unfold appendPending
          cases appended : w.db.appendMove pending.row finish with
          | none => exact lost
          | some db =>
              obtain ⟨-, -, -, -, -, status⟩ := appendMove_some appended
              intro timeout
              change db.row.status = .timeout at timeout
              rcases status with ⟨-, active⟩ | ⟨input, same, status⟩
              · rw [active] at timeout
                cases timeout
              · have onBoard := (logged.requests _ inside).2 input same
                exact absurd (status.symm.trans timeout) onBoard.1
      | timingOut decision =>
          change (finishByTimeout chess w decision).1.db.row.status = .timeout → LostOnTime
            { (finishByTimeout chess w decision).1 with
              inFlight := w.inFlight.eraseIdx index ++
                (finishByTimeout chess w decision).2.toList }
          unfold finishByTimeout
          cases done : w.db.finishGame (decision.finish chess) with
          | none => exact lost
          | some db =>
              obtain ⟨active, rfl⟩ := finishGame_some done
              intro timeout
              change (decision.finish chess).status = .timeout at timeout
              have material :
                  chess.hasMatingMaterial decision.game.fen decision.loser.other = true := by
                by_contra lacking
                simp [TimeoutDecision.finish, lacking] at timeout
              obtain ⟨last, read, claimed⟩ := present decision here active material
              exact finish_lost logged rebuilds inside material last read claimed

end Invariant

/-- In every run that decides timeouts on the present state of the game, a game that is
finished on time is lost by the side to move in the stored position, and that side's thinking
time since the last recorded move had used up the time it had left. -/
theorem timeout_lost_by_side_to_move (chess : ChessJs) (alternates : chess.Alternates)
    (players : Nat → Option Nat) (w : World)
    (reached : (worlds chess players).ReachableWhile (DecidesOnPresent chess) w)
    (timeout : w.db.row.status = .timeout) : LostOnTime w := by
  have sound : Logged w ∧ w.Rebuilds ∧ (w.db.row.status = .timeout → LostOnTime w) := by
    apply reached.invariant
      (fun w => Logged w ∧ w.Rebuilds ∧ (w.db.row.status = .timeout → LostOnTime w))
    · intro s initial
      refine ⟨initial_logged s initial, ?_, fun timeout => ?_⟩
      · intro decision inside
        rw [initial.inFlight] at inside
        cases inside
      · rw [initial.active] at timeout
        cases timeout
    · intro s label t ⟨logged, rebuilds, lost⟩ present taken
      exact ⟨step_logged alternates s label t logged taken,
        step_rebuilds label t logged rebuilds taken,
        step_lost label t logged rebuilds lost present taken⟩
  exact sound.2.2 timeout

/-- White's first move, then a move of Black that takes the whole minute, to the millisecond. -/
def wholeMinute : List WorldLabel :=
  [.arrive (.makeMove 1 "e2e4") 0, .advance 0, .advance 0, .advance 0,
    .arrive (.makeMove 2 "e7e5") 60000, .advance 0, .advance 0, .advance 0, .advance 0]

def claimOnOwnTurn : List WorldLabel :=
  wholeMinute ++ [.arrive (.claimTimeout 1) 60000, .advance 0, .advance 0, .advance 0]

theorem claimOnOwnTurn_end :
    ((worlds openGame some).run newGame claimOnOwnTurn).map
      (fun w => (w.db.row.status, w.db.row.winnerColor, sideToMove w.db.row.fen)) =
      some (.timeout, some .white, .w) := by
  decide +kernel

/-- White claims the time of Black while White is to move, and wins. -/
theorem claim_on_own_turn :
    openGame.Alternates ∧ newGame.Initial ∧
      ∃ w, (worlds openGame some).run newGame
        (wholeMinute ++ [.arrive (.claimTimeout 1) 60000, .advance 0, .advance 0, .advance 0]) =
          some w ∧
        w.db.row.status = .timeout ∧ w.db.row.winnerColor = some .white ∧
        sideToMove w.db.row.fen = .w ∧ ¬ LostOnTime w := by
  obtain ⟨w, ran, seen⟩ := Option.map_eq_some_iff.mp claimOnOwnTurn_end
  simp only [Prod.mk.injEq] at seen
  obtain ⟨timeout, white, toMove⟩ := seen
  refine ⟨openGame_alternates, newGame_initial, w, ran, timeout, white, toMove, ?_⟩
  rintro ⟨loser, charge, winner, turn, -⟩
  rw [turn, toMove, white] at winner
  revert winner
  decide

/-- Black never answers the first move, and the flag is checked one millisecond too late. -/
def flagFallen : List WorldLabel :=
  [.arrive (.makeMove 1 "e2e4") 0, .advance 0, .advance 0, .advance 0,
    .arrive .checkFlag 60001, .advance 0, .advance 0, .advance 0, .advance 0]

theorem flagFallen_present :
    Transition.System.Guarded (DecidesOnPresent openGame) (worlds openGame some) newGame
      flagFallen := by
  refine ⟨trivial, fun _ taken => ?_⟩
  cases taken
  iterate 3
    refine ⟨fun decision here => (by cases here), fun _ taken => ?_⟩
    cases taken
  refine ⟨trivial, fun _ taken => ?_⟩
  cases taken
  iterate 2
    refine ⟨fun decision here => (by cases here), fun _ taken => ?_⟩
    cases taken
  refine ⟨fun decision here _ _ => ?_, fun _ taken => ?_⟩
  · cases here
    refine ⟨rfl, fun _ => ⟨⟨rfl, fun side => ?_⟩, rfl⟩, fun opponent claim => ?_⟩
    · cases side <;> rfl
    · cases claim
  · cases taken
    exact ⟨fun decision here => (by cases here), fun _ _ => trivial⟩

theorem flagFallen_end :
    ((worlds openGame some).run newGame flagFallen).map (fun w => w.db.row.status) =
      some .timeout := by
  decide +kernel

theorem flagFallen_lost :
    ∃ w, (worlds openGame some).run newGame flagFallen = some w ∧
      w.db.row.status = .timeout ∧ LostOnTime w := by
  obtain ⟨w, ran, timeout⟩ := Option.map_eq_some_iff.mp flagFallen_end
  refine ⟨w, ran, timeout, ?_⟩
  apply timeout_lost_by_side_to_move openGame openGame_alternates some w _ timeout
  exact ⟨newGame, newGame_initial, Transition.System.run_steps _ _ flagFallen ran
    flagFallen_present⟩

end Farzin.Play
