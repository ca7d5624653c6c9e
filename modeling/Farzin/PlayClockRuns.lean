import Farzin.PlayClock

set_option autoImplicit false

/- Whole runs of one clock: every turn is one call of `applyMove` on the state that the last
one returned, at any time at all. -/
namespace Farzin.Play

/-- A clock with what it has taken off and what it has given in all turns so far. -/
structure ClockLedger where
  state : ClockState
  charged : Int
  granted : Int
  deriving DecidableEq, Repr

/-- What a move in time gets back. -/
def grantedMs (config : ClockConfig) : Int :=
  if config.clockType = .fischerIncrement then config.incrementMs else 0

/-- One turn. A fallen flag takes all that was left and nothing is given for it. -/
def playTurn (config : ClockConfig) (ledger : ClockLedger) (nowMs : Int) :
    Except BusinessRuleError ClockLedger := do
  let charge ← chargeableMs config (elapsedMs ledger.state nowMs)
  let result ← applyMove config ledger.state nowMs
  let stored := remainingOf ledger.state ledger.state.turn
  return {
    state := result.state
    charged := ledger.charged + if result.flagged then stored else charge
    granted := ledger.granted + if result.flagged then 0 else grantedMs config }

/-- A clock is started and then played at the given times. -/
def playTurns (config : ClockConfig) (first : ClockSide) (startMs : Int) (times : List Int) :
    Except BusinessRuleError ClockLedger := do
  let state ← createClock config first startMs
  times.foldlM (playTurn config) ⟨state, 0, 0⟩

section Turns

variable {config : ClockConfig} {state : ClockState} {nowMs : Int}

/-- A time control that `assertSupported` lets through. -/
structure Supported (config : ClockConfig) : Prop where
  kind : config.clockType ≠ .multiStage
  base : 0 < config.baseMs
  increment : 0 ≤ config.incrementMs

theorem assertSupported_iff : assertSupported config = .ok () ↔ Supported config := by
  unfold assertSupported
  constructor
  · intro passed
    split at passed
    · cases passed
    · rename_i kind
      split at passed
      · cases passed
      · rename_i base
        split at passed
        · cases passed
        · rename_i increment
          exact ⟨kind, by omega, by omega⟩
  · intro supported
    have base := supported.base
    have increment := supported.increment
    rw [if_neg supported.kind, if_neg (by omega), if_neg (by omega)]

/-- What is taken off is known for every supported clock, and never negative. -/
theorem chargeableMs_ok (supported : Supported config) (state : ClockState) (nowMs : Int) :
    ∃ charge, chargeableMs config (elapsedMs state nowMs) = .ok charge ∧ 0 ≤ charge := by
  have clamped : 0 ≤ elapsedMs state nowMs := le_max_left _ _
  unfold chargeableMs
  cases kind : config.clockType with
  | suddenDeath | fischerIncrement => exact ⟨_, rfl, clamped⟩
  | bronsteinDelay | simpleDelay => exact ⟨_, rfl, le_max_left _ _⟩
  | multiStage => exact absurd kind supported.kind

theorem grantedMs_nonneg (supported : Supported config) : 0 ≤ grantedMs config := by
  unfold grantedMs
  have increment := supported.increment
  split <;> omega

theorem applyMove_ok (supported : Supported config) {charge : Int}
    (charged : chargeableMs config (elapsedMs state nowMs) = .ok charge) :
    applyMove config state nowMs =
      .ok (settleMove config state nowMs (elapsedMs state nowMs) charge) := by
  have passed := assertSupported_iff.mpr supported
  simp only [applyMove, passed, charged, bind, Except.bind, pure, Except.pure]

/-- A move past the time that is left: the mover has nothing left, the rest stands still. -/
theorem settleMove_flagged (config : ClockConfig) (nowMs elapsed : Int) {charge : Int}
    (fallen : remainingOf state state.turn < charge) :
    (settleMove config state nowMs elapsed charge).flagged = true ∧
      ∀ asked, remainingOf (settleMove config state nowMs elapsed charge).state asked =
        if asked = state.turn then 0 else remainingOf state asked := by
  unfold settleMove
  rw [if_pos fallen]
  refine ⟨rfl, ?_⟩
  intro asked
  by_cases here : asked = state.turn
  · rw [if_pos here, here]
    exact remainingOf_with _ _ _ _
  · rw [if_neg here]
    exact remainingOf_with_other _ here _ _

/-- A move in time: the mover is charged and gets the increment. -/
theorem settleMove_accepted (config : ClockConfig) (nowMs elapsed : Int) {charge : Int}
    (inTime : charge ≤ remainingOf state state.turn) :
    (settleMove config state nowMs elapsed charge).flagged = false ∧
      ∀ asked, remainingOf (settleMove config state nowMs elapsed charge).state asked =
        if asked = state.turn then remainingOf state state.turn - charge + grantedMs config
        else remainingOf state asked := by
  unfold settleMove
  rw [if_neg (by omega)]
  refine ⟨rfl, ?_⟩
  intro asked
  change remainingOf (withRemaining state state.turn _ nowMs) asked = _
  by_cases here : asked = state.turn
  · rw [if_pos here, here]
    exact remainingOf_with _ _ _ _
  · rw [if_neg here]
    exact remainingOf_with_other _ here _ _

theorem remaining_sum (state : ClockState) (side : ClockSide) :
    remainingOf state side + remainingOf state side.other =
      remainingOf state .w + remainingOf state .b := by
  cases side
  · rfl
  · exact add_comm _ _

/-- The flag test and the move agree on when a flag has fallen. -/
theorem isFlagged_applyMove (supported : Supported config) (state : ClockState) (nowMs : Int) :
    ∃ result, applyMove config state nowMs = .ok result ∧
      isFlagged config state nowMs = .ok result.flagged := by
  obtain ⟨charge, charged, _⟩ := chargeableMs_ok supported state nowMs
  refine ⟨_, applyMove_ok supported charged, ?_⟩
  unfold isFlagged
  simp only [charged, bind, Except.bind, pure, Except.pure]
  by_cases fallen : remainingOf state state.turn < charge
  · rw [(settleMove_flagged _ _ _ fallen).1, decide_eq_true fallen]
  · rw [(settleMove_accepted _ _ _ (Int.not_lt.mp fallen)).1, decide_eq_false fallen]

/-- An accepted move leaves the time that was shown for the mover, and the increment. -/
theorem accepted_shown (supported : Supported config) {result : ApplyMoveResult}
    (applied : applyMove config state nowMs = .ok result) (accepted : result.flagged = false) :
    ∃ shown, remaining config state state.turn nowMs = .ok shown ∧
      remainingOf result.state state.turn = shown + grantedMs config ∧
      remainingOf result.state state.turn.other = remainingOf state state.turn.other ∧
      (config.clockType ≠ .fischerIncrement →
        remainingOf result.state state.turn ≤ remainingOf state state.turn) := by
  obtain ⟨charge, charged, positive⟩ := chargeableMs_ok supported state nowMs
  rw [applyMove_ok supported charged] at applied
  cases applied
  by_cases fallen : remainingOf state state.turn < charge
  · rw [(settleMove_flagged _ _ _ fallen).1] at accepted
    cases accepted
  · have inTime : charge ≤ remainingOf state state.turn := by omega
    obtain ⟨_, times⟩ := settleMove_accepted config nowMs (elapsedMs state nowMs) inTime
    rw [times, times, if_pos rfl, if_neg state.turn.other_ne]
    refine ⟨remainingOf state state.turn - charge, ?_, rfl, rfl, ?_⟩
    · unfold remaining
      rw [if_neg (fun apart => apart rfl)]
      simp only [charged, bind, Except.bind, pure, Except.pure]
      rw [max_eq_right (by omega)]
    · intro kind
      have nothing : grantedMs config = 0 := if_neg kind
      rw [nothing]
      omega

/-- The books of a run: no time is negative, and the times left are the base times less
what was charged plus what was granted. -/
structure Balanced (config : ClockConfig) (ledger : ClockLedger) : Prop where
  left : ∀ side, 0 ≤ remainingOf ledger.state side
  sum : remainingOf ledger.state .w + remainingOf ledger.state .b =
    2 * config.baseMs - ledger.charged + ledger.granted

/-- Every turn can be played and keeps the books. -/
theorem playTurn_balanced (supported : Supported config) {ledger : ClockLedger}
    (balanced : Balanced config ledger) (nowMs : Int) :
    ∃ next, playTurn config ledger nowMs = .ok next ∧ Balanced config next := by
  obtain ⟨charge, charged, positive⟩ := chargeableMs_ok supported ledger.state nowMs
  have granted := grantedMs_nonneg supported
  have mover := balanced.left ledger.state.turn
  have sum := balanced.sum
  rw [← remaining_sum _ ledger.state.turn] at sum
  simp only [playTurn, charged, applyMove_ok supported charged, bind, Except.bind, pure,
    Except.pure]
  by_cases fallen : remainingOf ledger.state ledger.state.turn < charge
  · obtain ⟨flagged, times⟩ := settleMove_flagged config nowMs (elapsedMs ledger.state nowMs)
      fallen
    rw [flagged]
    refine ⟨_, rfl, ?_, ?_⟩
    · intro side
      dsimp only
      rw [times]
      split
      · exact le_rfl
      · exact balanced.left side
    · dsimp only
      rw [← remaining_sum _ ledger.state.turn, times, times, if_pos rfl,
        if_neg ledger.state.turn.other_ne, if_pos rfl, if_pos rfl]
      omega
  · obtain ⟨accepted, times⟩ := settleMove_accepted config nowMs (elapsedMs ledger.state nowMs)
      (Int.not_lt.mp fallen)
    rw [accepted]
    refine ⟨_, rfl, ?_, ?_⟩
    · intro side
      dsimp only
      rw [times]
      split
      · omega
      · exact balanced.left side
    · dsimp only
      rw [← remaining_sum _ ledger.state.turn, times, times, if_pos rfl,
        if_neg ledger.state.turn.other_ne, if_neg (by decide), if_neg (by decide)]
      omega

theorem foldlM_balanced (supported : Supported config) (times : List Int) {ledger : ClockLedger}
    (balanced : Balanced config ledger) :
    ∃ last, times.foldlM (playTurn config) ledger = .ok last ∧ Balanced config last := by
  induction times generalizing ledger with
  | nil => exact ⟨ledger, rfl, balanced⟩
  | cons nowMs times ih =>
      obtain ⟨next, played, kept⟩ := playTurn_balanced supported balanced nowMs
      obtain ⟨last, rest, done⟩ := ih kept
      refine ⟨last, ?_, done⟩
      rw [List.foldlM_cons, played]
      exact rest

/-- Every run on a supported clock can be played to its end, and its books balance. -/
theorem playTurns_balanced (supported : Supported config) (first : ClockSide) (startMs : Int)
    (times : List Int) :
    ∃ ledger, playTurns config first startMs times = .ok ledger ∧ Balanced config ledger := by
  have created : createClock config first startMs =
      .ok ⟨config.baseMs, config.baseMs, first, startMs⟩ := by
    simp only [createClock, assertSupported_iff.mpr supported, bind, Except.bind, pure,
      Except.pure]
  have start : Balanced config ⟨⟨config.baseMs, config.baseMs, first, startMs⟩, 0, 0⟩ := by
    have base := supported.base
    refine ⟨?_, ?_⟩
    · intro side
      cases side
      · exact base.le
      · exact base.le
    · change config.baseMs + config.baseMs = 2 * config.baseMs - 0 + 0
      omega
  obtain ⟨ledger, played, balanced⟩ := foldlM_balanced supported times start
  refine ⟨ledger, ?_, balanced⟩
  simp only [playTurns, created, bind, Except.bind]
  exact played

/-- The two delay clocks take the same turns. -/
theorem playTurns_delay (baseMs incrementMs : Int) (first : ClockSide) (startMs : Int)
    (times : List Int) :
    playTurns ⟨.bronsteinDelay, baseMs, incrementMs⟩ first startMs times =
      playTurns ⟨.simpleDelay, baseMs, incrementMs⟩ first startMs times := by
  have turns : playTurn ⟨.bronsteinDelay, baseMs, incrementMs⟩ =
      playTurn ⟨.simpleDelay, baseMs, incrementMs⟩ := by
    funext ledger nowMs
    rfl
  unfold playTurns
  rw [turns]
  rfl

end Turns

/-- Every run of every clock but the multi-stage one: it can be played at any times, no time is
ever negative, the books balance, and the next move does what the flag test and the display
say, changing the mover's time only. The two delay clocks cannot be told apart. -/
theorem clock_runs (config : ClockConfig) (first : ClockSide) (startMs : Int)
    (created : ∃ state, createClock config first startMs = .ok state) (times : List Int) :
    (∃ ledger, playTurns config first startMs times = .ok ledger ∧
      (∀ side, 0 ≤ remainingOf ledger.state side) ∧
      remainingOf ledger.state .w + remainingOf ledger.state .b =
        2 * config.baseMs - ledger.charged + ledger.granted ∧
      ∀ nowMs, ∃ result, applyMove config ledger.state nowMs = .ok result ∧
        isFlagged config ledger.state nowMs = .ok result.flagged ∧
        (result.flagged = false →
          remainingOf result.state ledger.state.turn.other =
            remainingOf ledger.state ledger.state.turn.other ∧
          (config.clockType ≠ .fischerIncrement →
            remainingOf result.state ledger.state.turn ≤
              remainingOf ledger.state ledger.state.turn) ∧
          ∃ shown, remaining config ledger.state ledger.state.turn nowMs = .ok shown ∧
            remainingOf result.state ledger.state.turn = shown + grantedMs config)) ∧
    playTurns { config with clockType := .bronsteinDelay } first startMs times =
      playTurns { config with clockType := .simpleDelay } first startMs times := by
  have supported : Supported config := by
    obtain ⟨state, made⟩ := created
    rw [← assertSupported_iff]
    unfold createClock at made
    cases passed : assertSupported config with
    | error e =>
        rw [passed] at made
        cases made
    | ok => rfl
  obtain ⟨ledger, played, balanced⟩ := playTurns_balanced supported first startMs times
  refine ⟨⟨ledger, played, balanced.left, balanced.sum, ?_⟩,
    playTurns_delay config.baseMs config.incrementMs first startMs times⟩
  intro nowMs
  obtain ⟨result, applied, flag⟩ := isFlagged_applyMove supported ledger.state nowMs
  refine ⟨result, applied, flag, ?_⟩
  intro accepted
  obtain ⟨shown, display, kept, other, falls⟩ := accepted_shown supported applied accepted
  exact ⟨other, falls, shown, display, kept⟩

/-- Three minutes with two seconds for each move; the second time stamp goes back. -/
theorem blitz_runs :
    ∃ ledger, playTurns ⟨.fischerIncrement, 180000, 2000⟩ .w 0 [5000, 4000, 9000] = .ok ledger ∧
      remainingOf ledger.state .w + remainingOf ledger.state .b =
        2 * 180000 - ledger.charged + ledger.granted := by
  obtain ⟨⟨ledger, played, _, sum, _⟩, _⟩ := clock_runs ⟨.fischerIncrement, 180000, 2000⟩ .w 0
    ⟨_, rfl⟩ [5000, 4000, 9000]
  exact ⟨ledger, played, sum⟩

end Farzin.Play
