import Farzin.ArbiterEntrants
import Farzin.PlayGame
import Farzin.RatingAudit
import Farzin.RatingOverlaps

set_option autoImplicit false

/- The games that a rating period counts (`gamesForPeriod` of `rating/rating.repository.ts` and
`rating/online-result-mapping.ts`), read from tables that change between the computations.

Calls come one at a time. Two `createPeriod` that run at once can both find no overlap, as
`RatingOverlaps` shows, and a game in two overlapping periods is rated in both of them. -/
namespace Farzin.Rating

open Arbiter (PairingResultValue RoundStatus TournamentStatus)
open Play (ColorValue OnlineGameStatusValue)
open Transition (System)

section Results

/-- The results of `otbGamesForPeriod`; nothing else was played on a board. -/
def otbResult : PairingResultValue → Option GameResult
  | .whiteWin => some .whiteWin
  | .blackWin => some .blackWin
  | .draw => some .draw
  | _ => none

def DECISIVE_ONLINE_STATUSES : List OnlineGameStatusValue :=
  [.checkmate, .resignation, .timeout, .abandoned]

def DRAW_ONLINE_STATUSES : List OnlineGameStatusValue :=
  [.stalemate, .drawAgreed, .threefoldRepetition, .fiftyMoveRule, .insufficientMaterial,
    .timeoutVsInsufficientMaterial]

def RATED_ONLINE_STATUSES : List OnlineGameStatusValue :=
  DECISIVE_ONLINE_STATUSES ++ DRAW_ONLINE_STATUSES

def onlineRatedResult (status : OnlineGameStatusValue) (winnerColor : Option ColorValue) :
    Option GameResult :=
  if status ∈ DRAW_ONLINE_STATUSES then some .draw
  else if status ∈ DECISIVE_ONLINE_STATUSES then
    winnerColor.map fun
      | .white => .whiteWin
      | .black => .blackWin
  else none

end Results

/-- A pairing with what it is read with: its round, its section and its tournament. -/
structure PairingView where
  id : Nat
  result : PairingResultValue
  whitePlayerId : Nat
  blackPlayerId : Option Nat
  roundStatus : RoundStatus
  completedAt : Option Int
  environment : PlayEnvironment
  timeCategory : TimeCategory
  isNationallyRated : Bool
  deletedAt : Option Int
  tournamentStatus : TournamentStatus
  deriving DecidableEq, Repr

structure OnlineGameView where
  id : Nat
  whitePlayerId : Nat
  blackPlayerId : Nat
  isRated : Bool
  timeCategory : TimeCategory
  status : OnlineGameStatusValue
  winnerColor : Option ColorValue
  endedAt : Option Int
  deriving DecidableEq, Repr

/-- The tables that games are read from, with their primary keys. -/
structure GameTables where
  pairings : List PairingView
  onlineGames : List OnlineGameView
  pairingIds : Table.Unique PairingView.id pairings
  onlineIds : Table.Unique OnlineGameView.id onlineGames

/-- `{ gte: startsAt, lt: endsAt }`, which no empty column meets. -/
def within (startsAt endsAt : Int) (time : Option Int) : Bool :=
  time.any fun t => decide (startsAt ≤ t ∧ t < endsAt)

theorem within_iff {startsAt endsAt : Int} {time : Option Int} :
    within startsAt endsAt time = true ↔ ∃ t, time = some t ∧ startsAt ≤ t ∧ t < endsAt := by
  cases time with
  | none => simp [within]
  | some t => simp [within]

/-- Rows known by their ids give games known by theirs. -/
theorem read_nodup {Row : Type} {id : Row → Nat} {game : Row → Option RatedGame}
    {keep : Row → Bool} {rows : List Row}
    (same : ∀ row g, game row = some g → g.pairingId = id row) (unique : (rows.map id).Nodup) :
    ((((rows.filter keep).insertionSort fun a b => id a ≤ id b).filterMap game).map
      RatedGame.pairingId).Nodup := by
  have kept : ((rows.filter keep).map id).Nodup := unique.sublist (List.filter_sublist.map id)
  have sorted := (((List.perm_insertionSort (fun a b => id a ≤ id b) (rows.filter keep)).map
    id).nodup_iff).mpr kept
  refine sorted.sublist ?_
  clear sorted kept
  induction (rows.filter keep).insertionSort (fun a b => id a ≤ id b) with
  | nil => exact .slnil
  | cons row rest ih =>
      cases made : game row with
      | none =>
          rw [List.filterMap_cons_none made, List.map_cons]
          exact ih.cons _
      | some g =>
          rw [List.filterMap_cons_some made, List.map_cons, List.map_cons, same row g made]
          exact ih.cons_cons _

namespace GameTables

variable (tables : GameTables)

def otbGamesForPeriod (environment : PlayEnvironment) (timeCategory : TimeCategory)
    (startsAt endsAt : Int) : List RatedGame :=
  let rows := tables.pairings.filter fun row =>
    (otbResult row.result).isSome && row.blackPlayerId.isSome &&
      decide (row.roundStatus = .completed) && within startsAt endsAt row.completedAt &&
      decide (row.environment = environment ∧ row.timeCategory = timeCategory) &&
      row.isNationallyRated && row.deletedAt.isNone && decide (row.tournamentStatus ≠ .cancelled)
  (rows.insertionSort fun a b => a.id ≤ b.id).filterMap fun row =>
    row.blackPlayerId.bind fun black =>
      (otbResult row.result).map fun result => ⟨row.id, row.whitePlayerId, black, result⟩

def onlineGamesForPeriod (timeCategory : TimeCategory) (startsAt endsAt : Int) : List RatedGame :=
  let rows := tables.onlineGames.filter fun row =>
    row.isRated && decide (row.timeCategory = timeCategory) &&
      within startsAt endsAt row.endedAt && decide (row.status ∈ RATED_ONLINE_STATUSES)
  (rows.insertionSort fun a b => a.id ≤ b.id).filterMap fun row =>
    (onlineRatedResult row.status row.winnerColor).map fun result =>
      ⟨row.id, row.whitePlayerId, row.blackPlayerId, result⟩

def gamesForPeriod (environment : PlayEnvironment) (timeCategory : TimeCategory)
    (startsAt endsAt : Int) : List RatedGame :=
  if environment = .online then tables.onlineGamesForPeriod timeCategory startsAt endsAt
  else tables.otbGamesForPeriod environment timeCategory startsAt endsAt

/-- The category and the end of a game that has ended. -/
def ended (environment : PlayEnvironment) (id : Nat) : Option (TimeCategory × Int) :=
  match environment with
  | .otb => (Table.findUnique PairingView.id tables.pairings id).bind fun row =>
      row.completedAt.map fun t => (row.timeCategory, t)
  | .online => (Table.findUnique OnlineGameView.id tables.onlineGames id).bind fun row =>
      row.endedAt.map fun t => (row.timeCategory, t)

/-- A game of a period ended in it, and the rows of its table are known by their ids. -/
theorem gamesForPeriod_ended {environment : PlayEnvironment} {timeCategory : TimeCategory}
    {startsAt endsAt : Int} {g : RatedGame}
    (listed : g ∈ tables.gamesForPeriod environment timeCategory startsAt endsAt) :
    ∃ t, tables.ended environment g.pairingId = some (timeCategory, t) ∧
      startsAt ≤ t ∧ t < endsAt := by
  unfold gamesForPeriod at listed
  cases environment with
  | online =>
      rw [if_pos rfl, onlineGamesForPeriod] at listed
      obtain ⟨row, inside, made⟩ := List.mem_filterMap.mp listed
      rw [List.mem_insertionSort, List.mem_filter] at inside
      obtain ⟨result, -, rfl⟩ := Option.map_eq_some_iff.mp made
      simp only [Bool.and_eq_true, decide_eq_true_eq] at inside
      obtain ⟨here, ⟨⟨-, category⟩, inTime⟩, -⟩ := inside
      obtain ⟨t, time, range⟩ := within_iff.mp inTime
      exact ⟨t, by rw [ended, tables.onlineIds.find here, Option.bind_some, time, ← category]; rfl,
        range⟩
  | otb =>
      rw [if_neg (by decide), otbGamesForPeriod] at listed
      obtain ⟨row, inside, made⟩ := List.mem_filterMap.mp listed
      rw [List.mem_insertionSort, List.mem_filter] at inside
      obtain ⟨black, -, made⟩ := Option.bind_eq_some_iff.mp made
      obtain ⟨result, -, rfl⟩ := Option.map_eq_some_iff.mp made
      simp only [Bool.and_eq_true, decide_eq_true_eq] at inside
      obtain ⟨here, ⟨⟨⟨⟨-, inTime⟩, -, category⟩, -⟩, -⟩, -⟩ := inside
      obtain ⟨t, time, range⟩ := within_iff.mp inTime
      exact ⟨t, by rw [ended, tables.pairingIds.find here, Option.bind_some, time, ← category]; rfl,
        range⟩

theorem gamesForPeriod_nodup (environment : PlayEnvironment) (timeCategory : TimeCategory)
    (startsAt endsAt : Int) : ((tables.gamesForPeriod environment timeCategory startsAt
      endsAt).map RatedGame.pairingId).Nodup := by
  unfold gamesForPeriod
  split
  · apply read_nodup
    · intro row g made
      obtain ⟨result, -, rfl⟩ := Option.map_eq_some_iff.mp made
      rfl
    · exact tables.onlineIds
  · apply read_nodup
    · intro row g made
      obtain ⟨black, -, made⟩ := Option.bind_eq_some_iff.mp made
      obtain ⟨result, -, rfl⟩ := Option.map_eq_some_iff.mp made
      rfl
    · exact tables.pairingIds

end GameTables

/-- A period is computed from the games that its repository reads. -/
inductive RatingEvent where
  | createPeriod (call : CreateCall)
  | computePeriod (allowed : Bool) (periodId : Nat) (reason : String) (now : Int)
  | played (tables : GameTables)

structure RatingOffice where
  db : Db
  tables : GameTables

/-- The games of a period; nothing is read for a period that is not there. -/
def RatingOffice.gamesOf (s : RatingOffice) (periodId : Nat) : List RatedGame :=
  match s.db.findPeriodById periodId with
  | none => []
  | some period => s.tables.gamesForPeriod period.category.environment
      period.category.timeCategory period.startsAt period.endsAt

def RatingOffice.computeCall (s : RatingOffice) (allowed : Bool) (periodId : Nat) (reason : String)
    (now : Int) : ComputeCall :=
  ⟨allowed, periodId, reason, s.gamesOf periodId, now⟩

def ratingOffice (glicko2 : Rat → Glicko2Calculator) : System RatingOffice RatingEvent where
  initial s := s.db = .empty
  step s
    | .createPeriod call => some { s with db := s.db.step glicko2 (.createPeriod call) }
    | .computePeriod allowed periodId reason now => some { s with
        db := s.db.step glicko2 (.computePeriod (s.computeCall allowed periodId reason now)) }
    | .played tables => some { s with tables := tables }

/-- A game that has ended stays so: its end and its category are written once. -/
def Settled (s : RatingOffice) : RatingEvent → Prop
  | .played tables => ∀ environment id game,
      s.tables.ended environment id = some game → tables.ended environment id = some game
  | _ => True

/-- The games of a row as its player sees them. -/
def RatingHistoryRow.sides (row : RatingHistoryRow) : List PerPlayerGame :=
  row.inputGames.map fun e => ⟨e.pairingId, e.opponentId, e.score⟩

/-- The rows of a period come from one list of games, all of which ended in the period. -/
structure Traced (s : RatingOffice) (periodId : Nat) (games : List RatedGame) : Prop where
  once : (games.map RatedGame.pairingId).Nodup
  ended : ∀ g ∈ games, ∃ category startsAt endsAt tau t,
    s.db.planOf periodId = some (category, startsAt, endsAt, tau) ∧
      s.tables.ended category.environment g.pairingId = some (category.timeCategory, t) ∧
        startsAt ≤ t ∧ t < endsAt
  sides : ∀ row ∈ s.db.rowsOf periodId, row.sides = Rating.gamesOf games row.playerId

structure RatingOffice.Sound (glicko2 : Rat → Glicko2Calculator) (s : RatingOffice) : Prop where
  wellFormed : WellFormed s.db
  audited : Audited glicko2 s.db
  apart : ∀ p ∈ s.db.periods, ∀ q ∈ s.db.periods, p.Overlaps q → p.id = q.id
  traced : ∀ periodId, ∃ games, Traced s periodId games

section Office

variable {glicko2 : Rat → Glicko2Calculator} {s t : RatingOffice}

theorem RatingPeriodRow.Overlaps.symm {p q : RatingPeriodRow} (overlaps : p.Overlaps q) :
    q.Overlaps p :=
  ⟨overlaps.1.symm, overlaps.2.2, overlaps.2.1⟩

theorem Apart.create {db db' : Db} {call : CreateCall}
    (apart : ∀ p ∈ db.periods, ∀ q ∈ db.periods, p.Overlaps q → p.id = q.id)
    (created : db.createPeriod call = .ok db') :
    ∀ p ∈ db'.periods, ∀ q ∈ db'.periods, p.Overlaps q → p.id = q.id := by
  obtain ⟨-, free, -, tau, rfl⟩ := Db.createPeriod_ok created
  rw [Db.findOverlappingPeriod, List.find?_eq_none] at free
  have clear : ∀ p ∈ db.periods, ∀ q : RatingPeriodRow, q.category = call.category →
      q.startsAt = call.startsAt → q.endsAt = call.endsAt → ¬ p.Overlaps q := by
    rintro p inside q category starts ends ⟨same, before, after⟩
    apply free p inside
    rw [decide_eq_true_eq]
    exact ⟨same.trans category, ends ▸ before, starts ▸ after⟩
  intro p inside q inside' overlaps
  rcases List.mem_append.mp inside with old | new
  · rcases List.mem_append.mp inside' with old' | new'
    · exact apart p old q old' overlaps
    · rw [List.mem_singleton] at new'
      exact absurd overlaps (clear p old q (by rw [new']) (by rw [new']) (by rw [new']))
  · rw [List.mem_singleton] at new
    rcases List.mem_append.mp inside' with old' | new'
    · exact absurd overlaps.symm (clear q old' p (by rw [new]) (by rw [new]) (by rw [new]))
    · rw [List.mem_singleton] at new'
      rw [new, new']

theorem Apart.compute {db db' : Db} {call : ComputeCall} {period : RatingPeriodRow}
    (apart : ∀ p ∈ db.periods, ∀ q ∈ db.periods, p.Overlaps q → p.id = q.id)
    (computed : Db.Computed glicko2 db db' call period) :
    ∀ p ∈ db'.periods, ∀ q ∈ db'.periods, p.Overlaps q → p.id = q.id := by
  intro p' inside q' inside' ⟨same, before, after⟩
  obtain ⟨p, here, id, category, starts, ends⟩ := computed.periods p' inside
  obtain ⟨q, here', id', category', starts', ends'⟩ := computed.periods q' inside'
  rw [id, id']
  refine apart p here q here' ⟨?_, ?_, ?_⟩
  · rw [← category, ← category', same]
  · rw [← starts, ← ends']
    exact before
  · rw [← starts', ← ends]
    exact after

/-- What a computation writes comes from the games that were read for it. -/
theorem Traced.computed {db' : Db} {period : RatingPeriodRow} {allowed : Bool} {periodId : Nat}
    {reason : String} {now : Int} (wellFormed : WellFormed s.db) (audited : Audited glicko2 s.db)
    (computed : Db.Computed glicko2 s.db db' (s.computeCall allowed periodId reason now) period) :
    Traced { s with db := db' } periodId (s.gamesOf periodId) := by
  have found : s.db.findPeriodById periodId = some period := computed.found
  have read : s.gamesOf periodId = s.tables.gamesForPeriod period.category.environment
      period.category.timeCategory period.startsAt period.endsAt := by
    rw [RatingOffice.gamesOf, found]
  constructor
  case once =>
    rw [read]
    exact s.tables.gamesForPeriod_nodup _ _ _ _
  case ended =>
    intro g listed
    rw [read] at listed
    obtain ⟨t, ended, range⟩ := s.tables.gamesForPeriod_ended listed
    refine ⟨period.category, period.startsAt, period.endsAt, period.tau, t, ?_, ended, range⟩
    change db'.planOf periodId = _
    rw [computed.plans, Db.planOf, found]
    rfl
  case sides =>
    intro row inside
    have written := row_written computed wellFormed audited.owner inside
    rw [RatingHistoryRow.sides, written.inputGames, inputGamesOf, List.map_map]
    exact List.map_id _

theorem Traced.congr {db' : Db} {periodId : Nat} {games : List RatedGame}
    (traced : Traced s periodId games)
    (plan : (s.db.planOf periodId).isSome → db'.planOf periodId = s.db.planOf periodId)
    (rows : ∀ row ∈ db'.rowsOf periodId, row ∈ s.db.rowsOf periodId) :
    Traced { s with db := db' } periodId games where
  once := traced.once
  ended g listed := by
    obtain ⟨category, startsAt, endsAt, tau, t, known, rest⟩ := traced.ended g listed
    refine ⟨category, startsAt, endsAt, tau, t, ?_, rest⟩
    exact (plan (by rw [known]; rfl)).trans known
  sides row inside := traced.sides row (rows row inside)

theorem RatingOffice.Sound.serve {label : Label} {db' : Db} (sound : s.Sound glicko2)
    (moved : (service glicko2).step s.db label = some db')
    (read : ∀ call, label = .computePeriod call → ∃ allowed periodId reason now,
      call = s.computeCall allowed periodId reason now) :
    RatingOffice.Sound glicko2 { s with db := db' } := by
  obtain ⟨wellFormed, audited, apart, traced⟩ := sound
  refine ⟨wellFormed.step moved, audited.step wellFormed moved, ?_, fun id => ?_⟩
  · rcases step_cases moved with rfl | ⟨_, _, created⟩ | ⟨_, _, _, computed⟩
    · exact apart
    · exact Apart.create apart created
    · exact Apart.compute apart computed
  · obtain ⟨games, before⟩ := traced id
    rcases step_cases moved with rfl | ⟨_, _, created⟩ | ⟨call, period, same, computed⟩
    · exact ⟨games, before⟩
    · refine ⟨games, before.congr (Db.planOf_create created) fun row inside => ?_⟩
      obtain ⟨-, -, -, tau, rfl⟩ := Db.createPeriod_ok created
      exact inside
    · obtain ⟨allowed, periodId, reason, now, rfl⟩ := read call same
      by_cases this : id = periodId
      · rw [this]
        exact ⟨_, Traced.computed wellFormed audited computed⟩
      · exact ⟨games, before.congr (fun _ => computed.plans id) fun row inside =>
          (rows_kept computed wellFormed this).mp inside⟩

theorem RatingOffice.Sound.step {event : RatingEvent} (sound : s.Sound glicko2)
    (settled : Settled s event) (taken : (ratingOffice glicko2).step s event = some t) :
    t.Sound glicko2 := by
  cases event with
  | createPeriod call =>
      cases taken
      exact sound.serve rfl fun call other => by cases other
  | computePeriod allowed periodId reason now =>
      cases taken
      refine sound.serve rfl fun call same => ⟨allowed, periodId, reason, now, ?_⟩
      exact (Label.computePeriod.inj same).symm
  | played tables =>
      cases taken
      refine ⟨sound.wellFormed, sound.audited, sound.apart, fun periodId => ?_⟩
      obtain ⟨games, before⟩ := sound.traced periodId
      refine ⟨games, before.once, fun g listed => ?_, before.sides⟩
      obtain ⟨category, startsAt, endsAt, tau, t, known, ended, range⟩ := before.ended g listed
      exact ⟨category, startsAt, endsAt, tau, t, known, settled _ _ _ ended, range⟩

theorem initial_traced (initial : s.db = .empty) : s.Sound glicko2 := by
  obtain ⟨db, tables⟩ := s
  subst initial
  refine ⟨empty_wellFormed, empty_audited, fun p inside => ?_, fun periodId => ⟨[], ?_⟩⟩
  · cases inside
  · exact ⟨List.nodup_nil, fun g inside => (List.not_mem_nil inside).elim,
      fun row inside => (List.not_mem_nil inside).elim⟩

end Office

theorem category_eq {a b : Category} (environment : a.environment = b.environment)
    (timeCategory : a.timeCategory = b.timeCategory) : a = b := by
  obtain ⟨_, _⟩ := a
  obtain ⟨_, _⟩ := b
  cases environment
  cases timeCategory
  rfl

/-- As long as the end of a game is written once, and no two calls run at once, a game is rated in
one period only, whenever its periods are computed, and there it is in the rows of its two
players. -/
theorem rated_once (glicko2 : Rat → Glicko2Calculator) (s : RatingOffice)
    (reached : (ratingOffice glicko2).ReachableWhile Settled s) :
    ∀ row ∈ s.db.history, ∀ e ∈ row.inputGames, ∀ other ∈ s.db.history, ∀ e' ∈ other.inputGames,
      row.category.environment = other.category.environment → e.pairingId = e'.pairingId →
        row.periodId = other.periodId ∧
          ((other.playerId = row.playerId ∧ e'.opponentId = e.opponentId) ∨
            (other.playerId = e.opponentId ∧ e'.opponentId = row.playerId)) := by
  have sound : s.Sound glicko2 := by
    apply reached.invariant (RatingOffice.Sound glicko2)
    · exact fun s initial => initial_traced initial
    · exact fun s event t sound settled taken => sound.step settled taken
  have source : ∀ row ∈ s.db.history, ∀ e ∈ row.inputGames, ∀ games,
      Traced s row.periodId games → ∃ g ∈ games, g.pairingId = e.pairingId ∧
        ((g.whitePlayerId = row.playerId ∧ g.blackPlayerId = e.opponentId) ∨
          (g.blackPlayerId = row.playerId ∧ g.whitePlayerId = e.opponentId)) := by
    intro row inside e listed games traced
    have side : (⟨e.pairingId, e.opponentId, e.score⟩ : PerPlayerGame) ∈ row.sides :=
      List.mem_map_of_mem listed
    rw [traced.sides row (mem_rowsOf.mpr ⟨inside, rfl⟩)] at side
    obtain ⟨g, here, ⟨player, same⟩ | ⟨player, same⟩⟩ := mem_gamesOf.mp side
    · obtain ⟨id, opponent, -⟩ := PerPlayerGame.mk.inj same
      exact ⟨g, here, id.symm, .inl ⟨player, opponent.symm⟩⟩
    · obtain ⟨id, opponent, -⟩ := PerPlayerGame.mk.inj same
      exact ⟨g, here, id.symm, .inr ⟨player, opponent.symm⟩⟩
  intro row inside e listed other inside' e' listed' environment same
  obtain ⟨games, traced⟩ := sound.traced row.periodId
  obtain ⟨games', traced'⟩ := sound.traced other.periodId
  obtain ⟨g, here, id, players⟩ := source row inside e listed games traced
  obtain ⟨g', here', id', -⟩ := source other inside' e' listed' games' traced'
  -- Both periods hold the end of the game.
  have period : row.periodId = other.periodId := by
    obtain ⟨category, starts, ends, tau, t, plan, ended, range⟩ := traced.ended g here
    obtain ⟨category', starts', ends', tau', t', plan', ended', range'⟩ := traced'.ended g' here'
    obtain ⟨own, known⟩ := sound.wellFormed.known row inside
    obtain ⟨own', known'⟩ := sound.wellFormed.known other inside'
    obtain ⟨rfl, rfl⟩ := Prod.mk.inj (Option.some.inj (known.symm.trans plan))
    obtain ⟨rfl, rfl⟩ := Prod.mk.inj (Option.some.inj (known'.symm.trans plan'))
    rw [environment, id, same, ← id', ended'] at ended
    obtain ⟨timeCategory, rfl⟩ := Prod.mk.inj (Option.some.inj ended)
    obtain ⟨p, found, shape⟩ := Option.map_eq_some_iff.mp known
    obtain ⟨q, found', shape'⟩ := Option.map_eq_some_iff.mp known'
    simp only [Prod.mk.injEq] at shape shape'
    have categories : p.category = q.category := by
      rw [shape.1, shape'.1]
      exact category_eq environment timeCategory.symm
    have together := sound.apart p (Table.findUnique_mem found) q (Table.findUnique_mem found')
      ⟨categories, by omega, by omega⟩
    rw [Table.findUnique_key found, Table.findUnique_key found'] at together
    exact together
  refine ⟨period, ?_⟩
  obtain ⟨h, there, id'', players''⟩ := source other inside' e' listed' games (period ▸ traced)
  obtain rfl : g = h := List.inj_on_of_nodup_map traced.once here there (by rw [id, id'', same])
  omega

/-- The first player beat the second at the time 5. -/
def onePairing : GameTables where
  pairings := [⟨1, .whiteWin, 1, some 2, .completed, some 5, .otb, .classical, true, none,
    .inProgress⟩]
  onlineGames := []
  pairingIds := by decide
  onlineIds := by decide

def emptyOffice : RatingOffice :=
  ⟨.empty, ⟨[], [], by decide, by decide⟩⟩

/-- Both periods are computed, and the first one once more. -/
def classicalSeason : List RatingEvent := [.played onePairing,
  .createPeriod ⟨true, 1, classical, 0, 10, none⟩, .createPeriod ⟨true, 2, classical, 10, 20, none⟩,
  .computePeriod true 1 "monthly" 30, .computePeriod true 2 "monthly" 31,
  .computePeriod true 1 "again" 32]

theorem classicalSeason_settled :
    System.Guarded Settled (ratingOffice glickman) emptyOffice classicalSeason := by
  refine ⟨fun environment id game ended => ?_, fun _ _ => ⟨trivial, fun _ _ => ⟨trivial,
    fun _ _ => ⟨trivial, fun _ _ => ⟨trivial, fun _ _ => ⟨trivial, fun _ _ => trivial⟩⟩⟩⟩⟩⟩
  cases environment with
  | otb => cases ended
  | online => cases ended

theorem rated_once_season : ∃ s, (ratingOffice glickman).run emptyOffice classicalSeason = some s ∧
    (s.db.history.map fun row => (row.playerId, row.periodId, row.gamesInPeriod)) =
      [(1, 2, 0), (2, 2, 0), (1, 1, 1), (2, 1, 1)] ∧
    ∀ row ∈ s.db.history, ∀ e ∈ row.inputGames, ∀ other ∈ s.db.history,
      ∀ e' ∈ other.inputGames, row.category.environment = other.category.environment →
        e.pairingId = e'.pairingId → row.periodId = other.periodId := by
  have rows : ((ratingOffice glickman).run emptyOffice classicalSeason).map (fun s =>
      s.db.history.map fun row => (row.playerId, row.periodId, row.gamesInPeriod)) =
      some [(1, 2, 0), (2, 2, 0), (1, 1, 1), (2, 1, 1)] := by
    decide +kernel
  obtain ⟨s, ran, rows⟩ := Option.map_eq_some_iff.mp rows
  have reached : (ratingOffice glickman).ReachableWhile Settled s :=
    ⟨emptyOffice, rfl, System.run_steps _ _ classicalSeason ran classicalSeason_settled⟩
  exact ⟨s, ran, rows, fun row inside e listed other inside' e' listed' environment same =>
    (rated_once glickman s reached row inside e listed other inside' e' listed' environment
      same).1⟩

end Farzin.Rating
