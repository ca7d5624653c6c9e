import Farzin.Table
import Mathlib.Algebra.Order.Floor.Ring
import Mathlib.Data.List.Dedup
import Mathlib.Data.List.Sort
import Mathlib.Data.Rat.Floor

set_option autoImplicit false

/- Rating periods: `rating/period-computation.ts`, the three tables and the transaction of
`rating/rating.repository.ts`, and `computePeriod` of `rating/rating.service.ts`. The Glicko-2
calculator is handed in, as in the source; an id stands for its number and `none` for a thrown
`Glicko2ConvergenceError`. -/
namespace Farzin.Rating

inductive PlayEnvironment where
  | otb
  | online
  deriving DecidableEq, Repr

inductive TimeCategory where
  | classical
  | rapid
  | blitz
  | bullet
  deriving DecidableEq, Repr

structure Category where
  environment : PlayEnvironment
  timeCategory : TimeCategory
  deriving DecidableEq, Repr

def isValidRatingCombo (category : Category) : Bool :=
  !(decide (category.environment = .otb) && decide (category.timeCategory = .bullet))

structure RatingSnapshot where
  rating : Rat
  deviation : Rat
  volatility : Rat
  deriving DecidableEq, Repr

structure MatchOutcome where
  opponent : RatingSnapshot
  score : Rat
  deriving DecidableEq, Repr

abbrev Glicko2Calculator := RatingSnapshot → List MatchOutcome → Option RatingSnapshot

inductive GameResult where
  | whiteWin
  | blackWin
  | draw
  deriving DecidableEq, Repr

structure RatedGame where
  pairingId : Nat
  whitePlayerId : Nat
  blackPlayerId : Nat
  result : GameResult
  deriving DecidableEq, Repr

structure PrePeriodState extends RatingSnapshot where
  gamesPlayed : Nat
  isProvisional : Bool
  peakRating : Option Int
  deriving DecidableEq, Repr

def defaultPrePeriodState : PrePeriodState where
  rating := 1500
  deviation := 350
  volatility := 6 / 100
  gamesPlayed := 0
  isProvisional := true
  peakRating := none

def establishedMinGames : Nat := 8
def establishedMaxRd : Rat := 110

structure InputGameEntry where
  pairingId : Nat
  opponentId : Nat
  opponentRating : Rat
  opponentRd : Rat
  score : Rat
  deriving DecidableEq, Repr

structure PlayerPeriodResult where
  playerId : Nat
  before : RatingSnapshot
  after : RatingSnapshot
  gamesInPeriod : Nat
  gamesPlayedTotal : Nat
  isProvisional : Bool
  peakRating : Option Int
  peakChanged : Bool
  inputGames : List InputGameEntry
  deriving DecidableEq, Repr

def scoreFor (result : GameResult) (white : Bool) : Rat :=
  match result, white with
  | .draw, _ => 1 / 2
  | .whiteWin, true | .blackWin, false => 1
  | .whiteWin, false | .blackWin, true => 0

def isEstablished (gamesPlayed : Nat) (deviation : Rat) : Bool :=
  decide (establishedMinGames ≤ gamesPlayed ∧ deviation ≤ establishedMaxRd)

structure PerPlayerGame where
  pairingId : Nat
  opponentId : Nat
  score : Rat
  deriving DecidableEq, Repr

/-- The list of one player in `groupGamesByPlayer`. -/
def gamesOf (games : List RatedGame) (playerId : Nat) : List PerPlayerGame :=
  (games.flatMap fun g =>
    (if g.whitePlayerId = playerId then
      [⟨g.pairingId, g.blackPlayerId, scoreFor g.result true⟩] else []) ++
    (if g.blackPlayerId = playerId then
      [⟨g.pairingId, g.whitePlayerId, scoreFor g.result false⟩] else [])).insertionSort
    fun a b => a.pairingId ≤ b.pairingId

/-- `Math.round`. -/
def roundHalfUp (x : Rat) : Int := ⌊x + 1 / 2⌋

section Computation

variable (calculator : Glicko2Calculator) (games : List RatedGame)
  (states : Nat → Option PrePeriodState)

def stateOf (playerId : Nat) : PrePeriodState := (states playerId).getD defaultPrePeriodState

/-- Games against opponents as they were when the period began. -/
def inputGamesOf (playerId : Nat) : List InputGameEntry :=
  (gamesOf games playerId).map fun g =>
    { pairingId := g.pairingId
      opponentId := g.opponentId
      opponentRating := (stateOf states g.opponentId).rating
      opponentRd := (stateOf states g.opponentId).deviation
      score := g.score }

def InputGameEntry.outcome (g : InputGameEntry) : MatchOutcome :=
  ⟨⟨g.opponentRating, g.opponentRd, 6 / 100⟩, g.score⟩

/-- The body of the map over the players in `computePeriodResults`. -/
def computeResult (playerId : Nat) : Option PlayerPeriodResult :=
  let state := stateOf states playerId
  let inputGames := inputGamesOf games states playerId
  let before := state.toRatingSnapshot
  (calculator before (inputGames.map InputGameEntry.outcome)).map fun after =>
    let gamesPlayedTotal := state.gamesPlayed + (gamesOf games playerId).length
    let provisionalAfter :=
      if state.isProvisional then !isEstablished gamesPlayedTotal after.deviation else false
    let candidate := roundHalfUp after.rating
    let peakChanged := !provisionalAfter &&
      (match state.peakRating with
        | none => true
        | some peak => decide (candidate > peak))
    { playerId := playerId
      before := before
      after := after
      gamesInPeriod := (gamesOf games playerId).length
      gamesPlayedTotal := gamesPlayedTotal
      isProvisional := provisionalAfter
      peakRating := if peakChanged then some candidate else state.peakRating
      peakChanged := peakChanged
      inputGames := inputGames }

def gamePlayerIds : List Nat :=
  (games.flatMap fun g => [g.whitePlayerId, g.blackPlayerId]).dedup

/-- `computePeriodResults`; the players are those of `stateIds`, who have a state, and those of
the games. -/
def computePeriodResults (stateIds : List Nat) : Option (List PlayerPeriodResult) :=
  ((stateIds ++ gamePlayerIds games).dedup.insertionSort fun a b => a ≤ b).mapM
    (computeResult calculator games states)

end Computation

/-- A number in a column `DECIMAL(precision, scale)`, rounded half away from zero; `none` when it
does not fit. -/
def toDecimal (precision scale : Nat) (x : Rat) : Option Rat :=
  let units : Int := if 0 ≤ x then roundHalfUp (x * 10 ^ scale) else -roundHalfUp (-x * 10 ^ scale)
  if units.natAbs < 10 ^ precision then some ((units : Rat) / 10 ^ scale) else none

def RatingSnapshot.toColumns (s : RatingSnapshot) : Option RatingSnapshot :=
  match toDecimal 8 4 s.rating, toDecimal 8 4 s.deviation, toDecimal 10 8 s.volatility with
  | some rating, some deviation, some volatility => some ⟨rating, deviation, volatility⟩
  | _, _, _ => none

structure PlayerRatingRow extends RatingSnapshot where
  playerId : Nat
  category : Category
  gamesPlayed : Nat
  isProvisional : Bool
  peakRating : Option Int
  peakRatingAt : Option Int
  lastPeriodId : Option Nat
  deriving DecidableEq, Repr

def PlayerRatingRow.key (row : PlayerRatingRow) : Nat × Category := (row.playerId, row.category)

structure RatingPeriodRow where
  id : Nat
  category : Category
  startsAt : Int
  endsAt : Int
  tau : Rat
  computedAt : Option Int
  playersAffected : Option Nat
  gamesProcessed : Option Nat
  recomputeGeneration : Nat
  deriving DecidableEq, Repr

structure RatingHistoryRow where
  playerId : Nat
  periodId : Nat
  category : Category
  before : RatingSnapshot
  after : RatingSnapshot
  gamesInPeriod : Nat
  inputGames : List InputGameEntry
  createdAt : Int
  deriving DecidableEq, Repr

def RatingHistoryRow.key (row : RatingHistoryRow) : Nat × Nat × Category :=
  (row.playerId, row.periodId, row.category)

/-- `ratingValues`, before the time of the peak is known. -/
def PlayerPeriodResult.ratingRow (result : PlayerPeriodResult) (category : Category)
    (periodId : Nat) (after : RatingSnapshot) : PlayerRatingRow where
  toRatingSnapshot := after
  playerId := result.playerId
  category := category
  gamesPlayed := result.gamesPlayedTotal
  isProvisional := result.isProvisional
  peakRating := result.peakRating
  peakRatingAt := none
  lastPeriodId := some periodId

def PlayerPeriodResult.historyRow (result : PlayerPeriodResult) (category : Category)
    (periodId : Nat) (now : Int) (before after : RatingSnapshot) : RatingHistoryRow where
  playerId := result.playerId
  periodId := periodId
  category := category
  before := before
  after := after
  gamesInPeriod := result.gamesInPeriod
  inputGames := result.inputGames
  createdAt := now

structure Db where
  ratings : List PlayerRatingRow
  periods : List RatingPeriodRow
  history : List RatingHistoryRow
  deriving DecidableEq, Repr

inductive RatingError where
  | notFound
  | invalidRatingCategory
  | invalidPeriodRange
  | invalidTau
  | overlapping (existingPeriodId : Nat)
  | recomputeReasonRequired
  | convergence
  | storage
  deriving DecidableEq, Repr

namespace Db

variable (db : Db)

def empty : Db := ⟨[], [], []⟩

def findPlayerRating (playerId : Nat) (category : Category) : Option PlayerRatingRow :=
  Table.findUnique PlayerRatingRow.key db.ratings (playerId, category)

def findPeriodById (id : Nat) : Option RatingPeriodRow :=
  Table.findUnique RatingPeriodRow.id db.periods id

def allRatedPlayers (category : Category) : List PlayerRatingRow :=
  db.ratings.filter fun r => r.category = category

/-- `priorHistoryForPeriod`, the row of one player. -/
def priorHistory (periodId playerId : Nat) : Option RatingHistoryRow :=
  db.history.find? fun h => h.periodId = periodId ∧ h.playerId = playerId

/-- The state of one player in `buildPrePeriodStates`. The rows of `playersWithRatings` are among
those of `allRatedPlayers`. -/
def prePeriodState (period : RatingPeriodRow) (playerId : Nat) : PrePeriodState :=
  match db.priorHistory period.id playerId, db.findPlayerRating playerId period.category with
  | some prior, some current =>
      let gamesPlayedBefore := current.gamesPlayed - prior.gamesInPeriod
      { toRatingSnapshot := prior.before
        gamesPlayed := gamesPlayedBefore
        isProvisional := !isEstablished gamesPlayedBefore prior.before.deviation
        peakRating := current.peakRating }
  | none, some current =>
      { toRatingSnapshot := current.toRatingSnapshot
        gamesPlayed := current.gamesPlayed
        isProvisional := current.isProvisional
        peakRating := current.peakRating }
  | _, none => defaultPrePeriodState

/-- `allIds` of `buildPrePeriodStates`. -/
def stateIds (period : RatingPeriodRow) (games : List RatedGame) : List Nat :=
  ((db.allRatedPlayers period.category).map PlayerRatingRow.playerId ++ gamePlayerIds games).dedup

def buildPrePeriodStates (period : RatingPeriodRow) (games : List RatedGame) (playerId : Nat) :
    Option PrePeriodState :=
  if playerId ∈ db.stateIds period games then some (db.prePeriodState period playerId) else none

/-- The upsert of a rating row; `peakRatingAt` stays when the peak does. -/
def upsertRating (row : PlayerRatingRow) (peakChanged : Bool) (now : Int) : Db :=
  { db with
    ratings :=
      match db.findPlayerRating row.playerId row.category with
      | none => db.ratings ++ [{ row with peakRatingAt := if peakChanged then some now else none }]
      | some _ => Table.updateWhere (fun r => r.key = row.key)
          (fun r => { row with peakRatingAt := if peakChanged then some now else r.peakRatingAt })
          db.ratings }

/-- The row of a period is deleted and written anew. -/
def replaceHistory (row : RatingHistoryRow) : Db :=
  { db with history := Table.replace RatingHistoryRow.key row db.history }

/-- The body of the loop over the results in `applyPeriodResults`. -/
def applyResult (category : Category) (periodId : Nat) (now : Int) (result : PlayerPeriodResult) :
    Option Db :=
  match result.before.toColumns, result.after.toColumns with
  | some before, some after =>
      some ((db.upsertRating (result.ratingRow category periodId after) result.peakChanged
        now).replaceHistory (result.historyRow category periodId now before after))
  | _, _ => none

def applyResults (category : Category) (periodId : Nat) (now : Int) (db : Db) :
    List PlayerPeriodResult → Option Db
  | [] => some db
  | result :: results =>
      (db.applyResult category periodId now result).bind fun stored =>
        applyResults category periodId now stored results

/-- The period row after a computation. -/
def markComputed (periodId : Nat) (now : Int) (playersAffected gamesProcessed : Nat) : Db :=
  { db with
    periods := Table.updateWhere (fun p => p.id = periodId)
      (fun p => { p with
        computedAt := some now
        playersAffected := some playersAffected
        gamesProcessed := some gamesProcessed
        recomputeGeneration :=
          if p.computedAt = none then p.recomputeGeneration else p.recomputeGeneration + 1 })
      db.periods }

/-- One transaction. Calls follow one another, so its lock is free. -/
def applyPeriodResults (category : Category) (periodId : Nat) (now : Int) (gamesProcessed : Nat)
    (results : List PlayerPeriodResult) : Except RatingError Db :=
  match applyResults category periodId now db results with
  | none => .error .storage
  | some stored => .ok (stored.markComputed periodId now results.length gamesProcessed)

def findOverlappingPeriod (category : Category) (startsAt endsAt : Int) :
    Option RatingPeriodRow :=
  db.periods.find? fun p => p.category = category ∧ p.startsAt < endsAt ∧ startsAt < p.endsAt

end Db

def tauMin : Rat := 3 / 10
def tauMax : Rat := 12 / 10
def tauDefault : Rat := 5 / 10

/-- A call of `createPeriod`; `allowed` is the answer of `rbac.can` and `id` the id drawn. -/
structure CreateCall where
  allowed : Bool
  id : Nat
  category : Category
  startsAt : Int
  endsAt : Int
  tau : Option Rat
  deriving DecidableEq, Repr

def Db.createPeriod (db : Db) (call : CreateCall) : Except RatingError Db :=
  let tau := call.tau.getD tauDefault
  if ¬ call.allowed then .error .notFound
  else if ¬ isValidRatingCombo call.category then .error .invalidRatingCategory
  else if call.endsAt ≤ call.startsAt then .error .invalidPeriodRange
  else if tau < tauMin ∨ tau > tauMax then .error .invalidTau
  else
    match db.findOverlappingPeriod call.category call.startsAt call.endsAt with
    | some existing => .error (.overlapping existing.id)
    | none =>
        match db.findPeriodById call.id, toDecimal 4 3 tau with
        | none, some stored => .ok { db with
            periods := db.periods ++ [
              { id := call.id
                category := call.category
                startsAt := call.startsAt
                endsAt := call.endsAt
                tau := stored
                computedAt := none
                playersAffected := none
                gamesProcessed := none
                recomputeGeneration := 0 }] }
        | _, _ => .error .storage

/-- White space and line terminators, as `trim` takes them. -/
def isTrimmed (c : Char) : Bool :=
  let n := c.toNat
  decide ((9 ≤ n ∧ n ≤ 13) ∨ (0x2000 ≤ n ∧ n ≤ 0x200a) ∨
    n ∈ [0x20, 0xa0, 0x1680, 0x2028, 0x2029, 0x202f, 0x205f, 0x3000, 0xfeff])

/-- A call of `computePeriod`; `games` is what `gamesForPeriod` reads. -/
structure ComputeCall where
  allowed : Bool
  periodId : Nat
  reason : String
  games : List RatedGame
  now : Int
  deriving DecidableEq, Repr

section Service

variable (glicko2 : Rat → Glicko2Calculator)

def Db.computePeriod (db : Db) (call : ComputeCall) : Except RatingError Db :=
  if ¬ call.allowed then .error .notFound
  else
    match db.findPeriodById call.periodId with
    | none => .error .notFound
    | some period =>
        if call.reason.toList.all isTrimmed then .error .recomputeReasonRequired
        else
          match computePeriodResults (glicko2 period.tau) call.games
              (db.buildPrePeriodStates period call.games) (db.stateIds period call.games) with
          | none => .error .convergence
          | some results =>
              db.applyPeriodResults period.category call.periodId call.now call.games.length results

end Service

end Farzin.Rating
