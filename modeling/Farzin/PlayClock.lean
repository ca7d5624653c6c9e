import Mathlib.Algebra.Order.Ring.Int
import Mathlib.Tactic.Linarith

set_option autoImplicit false

/- The chess clock (`core/clock/chess-clock.ts`). Times are milliseconds; the present time
is always handed in. -/
namespace Farzin.Play

inductive ClockSide where
  | w
  | b
  deriving DecidableEq, Repr

def ClockSide.other : ClockSide → ClockSide
  | .w => .b
  | .b => .w

inductive ChessClockType where
  | suddenDeath
  | fischerIncrement
  | bronsteinDelay
  | simpleDelay
  | multiStage
  deriving DecidableEq, Repr

structure ClockConfig where
  clockType : ChessClockType
  baseMs : Int
  incrementMs : Int
  deriving DecidableEq, Repr

structure ClockState where
  whiteRemainingMs : Int
  blackRemainingMs : Int
  turn : ClockSide
  lastEventAtMs : Int
  deriving DecidableEq, Repr

/-- A `BusinessRuleError` of the domain. -/
structure BusinessRuleError where
  code : String
  message : String
  deriving DecidableEq, Repr

structure ApplyMoveResult where
  flagged : Bool
  state : ClockState
  elapsedMs : Int
  deriving DecidableEq, Repr

def multiStageNotImplemented : BusinessRuleError where
  code := "CLOCK_TYPE_NOT_IMPLEMENTED"
  message := "MULTI_STAGE taymer hali qo'llab-quvvatlanmaydi: docs/07-realtime-and-clock.md " ++
    "§3.2 bo'yicha u TimeControlStage[] konfiguratsiyasini talab qiladi, " ++
    "OnlineGame jadvalida esa faqat baseTimeSeconds + incrementSeconds bor."

def assertSupported (config : ClockConfig) : Except BusinessRuleError Unit :=
  if config.clockType = .multiStage then .error multiStageNotImplemented
  else if config.baseMs ≤ 0 then
    .error ⟨"CLOCK_INVALID_BASE", "baseMs musbat chekli son bo'lishi shart"⟩
  else if config.incrementMs < 0 then
    .error ⟨"CLOCK_INVALID_INCREMENT", "incrementMs manfiy bo'lmagan chekli son bo'lishi shart"⟩
  else .ok ()

/-- Both sides start with the whole base time. -/
def createClock (config : ClockConfig) (turn : ClockSide) (nowMs : Int) :
    Except BusinessRuleError ClockState := do
  assertSupported config
  return ⟨config.baseMs, config.baseMs, turn, nowMs⟩

/-- A clock that jumps back is read as no time at all. -/
def elapsedMs (state : ClockState) (nowMs : Int) : Int :=
  max 0 (nowMs - state.lastEventAtMs)

/-- What is really taken off the clock. -/
def chargeableMs (config : ClockConfig) (elapsed : Int) : Except BusinessRuleError Int :=
  match config.clockType with
  | .suddenDeath | .fischerIncrement => .ok elapsed
  | .bronsteinDelay | .simpleDelay => .ok (max 0 (elapsed - config.incrementMs))
  | .multiStage => .error multiStageNotImplemented

def remainingOf (state : ClockState) : ClockSide → Int
  | .w => state.whiteRemainingMs
  | .b => state.blackRemainingMs

/-- The time a side still has; the clock of the side not to move stands still. -/
def remaining (config : ClockConfig) (state : ClockState) (side : ClockSide) (nowMs : Int) :
    Except BusinessRuleError Int :=
  let stored := remainingOf state side
  if side ≠ state.turn then .ok stored
  else do
    let charge ← chargeableMs config (elapsedMs state nowMs)
    return max 0 (stored - charge)

/-- The flag falls when the charge is strictly more than what is left. -/
def isFlagged (config : ClockConfig) (state : ClockState) (nowMs : Int) :
    Except BusinessRuleError Bool := do
  let stored := remainingOf state state.turn
  let charge ← chargeableMs config (elapsedMs state nowMs)
  return decide (stored < charge)

def withRemaining (state : ClockState) (side : ClockSide) (value : Int) (lastEventAtMs : Int) :
    ClockState where
  whiteRemainingMs := if side = .w then value else state.whiteRemainingMs
  blackRemainingMs := if side = .b then value else state.blackRemainingMs
  turn := state.turn
  lastEventAtMs := lastEventAtMs

/-- `applyMove` once the charge is known. -/
def settleMove (config : ClockConfig) (state : ClockState) (nowMs elapsed charge : Int) :
    ApplyMoveResult :=
  let mover := state.turn
  let stored := remainingOf state mover
  if stored < charge then
    ⟨true, withRemaining state mover 0 state.lastEventAtMs, elapsed⟩
  else
    let increment := if config.clockType = .fischerIncrement then config.incrementMs else 0
    let moved := withRemaining state mover (stored - charge + increment) nowMs
    ⟨false, { moved with turn := mover.other }, elapsed⟩

/-- A move has arrived: charge the side to move, or find its flag fallen. -/
def applyMove (config : ClockConfig) (state : ClockState) (nowMs : Int) :
    Except BusinessRuleError ApplyMoveResult := do
  assertSupported config
  let elapsed := elapsedMs state nowMs
  let charge ← chargeableMs config elapsed
  return settleMove config state nowMs elapsed charge

@[simp] theorem ClockSide.other_other (side : ClockSide) : side.other.other = side := by
  cases side <;> rfl

theorem ClockSide.other_ne (side : ClockSide) : side.other ≠ side := by
  cases side <;> decide

@[simp] theorem remainingOf_with (state : ClockState) (side : ClockSide) (value last : Int) :
    remainingOf (withRemaining state side value last) side = value := by
  cases side <;> simp [remainingOf, withRemaining]

theorem remainingOf_with_other (state : ClockState) {side asked : ClockSide}
    (apart : asked ≠ side) (value last : Int) :
    remainingOf (withRemaining state side value last) asked = remainingOf state asked := by
  cases side <;> cases asked <;> simp_all [remainingOf, withRemaining]

/-- More thinking time is never charged less. -/
theorem chargeableMs_mono {config : ClockConfig} {short long charge : Int} (le : short ≤ long)
    (charged : chargeableMs config short = .ok charge) :
    ∃ more, chargeableMs config long = .ok more ∧ charge ≤ more := by
  unfold chargeableMs at charged ⊢
  cases kind : config.clockType with
  | suddenDeath | fischerIncrement =>
      simp only [kind, Except.ok.injEq] at charged
      exact ⟨long, rfl, by omega⟩
  | bronsteinDelay | simpleDelay =>
      simp only [kind, Except.ok.injEq] at charged
      exact ⟨max 0 (long - config.incrementMs), rfl, by omega⟩
  | multiStage =>
      simp only [kind] at charged
      cases charged

/-- A flag falls when the charge exceeds the stored time, a move is accepted otherwise. -/
theorem applyMove_cases {config : ClockConfig} {state : ClockState} {nowMs : Int}
    {result : ApplyMoveResult} (applied : applyMove config state nowMs = .ok result) :
    ∃ charge, chargeableMs config (elapsedMs state nowMs) = .ok charge ∧
      ((result.flagged = true ∧ remainingOf state state.turn < charge) ∨
        (result.flagged = false ∧ result.state.turn = state.turn.other ∧
          result.state.lastEventAtMs = nowMs ∧
          remainingOf result.state state.turn.other = remainingOf state state.turn.other)) := by
  unfold applyMove at applied
  cases supported : assertSupported config with
  | error e => rw [supported] at applied; cases applied
  | ok =>
      cases charged : chargeableMs config (elapsedMs state nowMs) with
      | error e => simp [supported, charged, bind, Except.bind] at applied
      | ok charge =>
          simp only [supported, charged, bind, Except.bind, pure, Except.pure,
            Except.ok.injEq] at applied
          refine ⟨charge, rfl, ?_⟩
          rw [← applied, settleMove]
          by_cases fallen : remainingOf state state.turn < charge
          · rw [if_pos fallen]
            exact .inl ⟨rfl, fallen⟩
          · rw [if_neg fallen]
            refine .inr ⟨rfl, rfl, rfl, ?_⟩
            exact remainingOf_with_other state state.turn.other_ne _ nowMs

/-- No time left on a running clock means that the charge has used it up. -/
theorem remaining_le_zero {config : ClockConfig} {state : ClockState} {nowMs left : Int}
    (read : remaining config state state.turn nowMs = .ok left) (out : left ≤ 0) :
    ∃ charge, chargeableMs config (elapsedMs state nowMs) = .ok charge ∧
      remainingOf state state.turn ≤ charge := by
  unfold remaining at read
  rw [if_neg (fun apart => apart rfl)] at read
  cases charged : chargeableMs config (elapsedMs state nowMs) with
  | error e =>
      rw [charged] at read
      cases read
  | ok charge =>
      rw [charged] at read
      cases read
      exact ⟨charge, rfl, by omega⟩

end Farzin.Play
