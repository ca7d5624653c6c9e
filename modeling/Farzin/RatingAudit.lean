import Farzin.RatingChain
import Farzin.RatingOrder
import Farzin.RatingRecompute
import Mathlib.Algebra.BigOperators.Ring.Finset

set_option autoImplicit false

/- The rating history as an audit trail (`inputGames` in `rating/period-computation.ts`): whatever
was computed, and however often, every row can be computed again from what it records, and the two
rows about one game say the same. Calls come one at a time. -/
namespace Farzin.Rating

open Transition (System)

section Sides

variable {games : List RatedGame} {playerId : Nat}

/-- A game as its two players see it. -/
def RatedGame.whiteSide (g : RatedGame) : PerPlayerGame :=
  ⟨g.pairingId, g.blackPlayerId, scoreFor g.result true⟩

def RatedGame.blackSide (g : RatedGame) : PerPlayerGame :=
  ⟨g.pairingId, g.whitePlayerId, scoreFor g.result false⟩

theorem mem_gamesOf {side : PerPlayerGame} : side ∈ gamesOf games playerId ↔
    ∃ g ∈ games, (g.whitePlayerId = playerId ∧ side = g.whiteSide) ∨
      (g.blackPlayerId = playerId ∧ side = g.blackSide) := by
  rw [gamesOf, List.mem_insertionSort, List.mem_flatMap]
  refine exists_congr fun g => and_congr_right fun _ => ?_
  rw [List.mem_append]
  refine or_congr ?_ ?_
  · split
    case isTrue white => simp [white, RatedGame.whiteSide]
    case isFalse other => simp [other]
  · split
    case isTrue black => simp [black, RatedGame.blackSide]
    case isFalse other => simp [other]

/-- The opponent has the game from the other side. -/
theorem gamesOf_opponent {side : PerPlayerGame} (played : side ∈ gamesOf games playerId) :
    side.opponentId ∈ gamePlayerIds games ∧ ∃ other ∈ gamesOf games side.opponentId,
      other.pairingId = side.pairingId ∧ other.opponentId = playerId ∧
        side.score + other.score = 1 := by
  obtain ⟨g, listed, ⟨rfl, rfl⟩ | ⟨rfl, rfl⟩⟩ := mem_gamesOf.mp played
  · refine ⟨?_, g.blackSide, mem_gamesOf.mpr ⟨g, listed, .inr ⟨rfl, rfl⟩⟩, rfl, rfl,
      RatingOrder.scoreFor_sides _⟩
    exact List.mem_dedup.mpr (List.mem_flatMap.mpr ⟨g, listed, by simp [RatedGame.whiteSide]⟩)
  · refine ⟨?_, g.whiteSide, mem_gamesOf.mpr ⟨g, listed, .inl ⟨rfl, rfl⟩⟩, rfl, rfl, ?_⟩
    · exact List.mem_dedup.mpr (List.mem_flatMap.mpr ⟨g, listed, by simp [RatedGame.blackSide]⟩)
    · rw [add_comm]
      exact RatingOrder.scoreFor_sides _

/-- What all players count of their games is what is counted of the two sides of each game. -/
theorem sum_gamesOf {players : List Nat} (once : players.Nodup) (value : PerPlayerGame → Rat)
    (listed : ∀ playerId ∈ gamePlayerIds games, playerId ∈ players) :
    (players.map fun p => ((gamesOf games p).map value).sum).sum =
      (games.map fun g => value g.whiteSide + value g.blackSide).sum := by
  have sides : ∀ p, ((gamesOf games p).map value).sum =
      (games.map fun g => (if g.whitePlayerId = p then value g.whiteSide else 0) +
        if g.blackPlayerId = p then value g.blackSide else 0).sum := by
    intro p
    rw [gamesOf, ((List.perm_insertionSort _ _).map value).sum_eq]
    clear listed
    induction games with
    | nil => rfl
    | cons g games ih =>
        rw [List.flatMap_cons, List.map_append, List.sum_append, ih, List.map_cons, List.sum_cons]
        congr 1
        rw [List.map_append, List.sum_append]
        congr 1
        · split
          · exact List.sum_singleton
          · rfl
        · split
          · exact List.sum_singleton
          · rfl
  simp only [sides]
  have here : ∀ g ∈ games, g.whitePlayerId ∈ players ∧ g.blackPlayerId ∈ players := by
    intro g inside
    exact ⟨listed _ (List.mem_dedup.mpr (List.mem_flatMap.mpr ⟨g, inside, by simp⟩)),
      listed _ (List.mem_dedup.mpr (List.mem_flatMap.mpr ⟨g, inside, by simp⟩))⟩
  clear listed sides
  induction games with
  | nil => simp
  | cons g games ih =>
      have rest := ih fun h later => here h (List.mem_cons_of_mem g later)
      have first := here g List.mem_cons_self
      simp only [List.map_cons, List.sum_cons, List.sum_map_add] at rest ⊢
      rw [RatingOrder.sum_at once first.1, RatingOrder.sum_at once first.2, rest]

end Sides

/-- The rows of one period. -/
def Db.rowsOf (db : Db) (periodId : Nat) : List RatingHistoryRow :=
  db.history.filter fun row => row.periodId = periodId

/-- The calculator finds the new numbers again from the row and the `tau` of its period. -/
def Replays (glicko2 : Rat → Glicko2Calculator) (db : Db) (row : RatingHistoryRow) : Prop :=
  ∃ startsAt endsAt tau, db.planOf row.periodId = some (row.category, startsAt, endsAt, tau) ∧
    ∃ after, glicko2 tau row.before (row.inputGames.map InputGameEntry.outcome) = some after ∧
      after.toColumns = some row.after

/-- Every game of the row is in the opponent's row of the period, with the rest of the point, and
the opponent's numbers are those with which that row begins. -/
def Mirrored (db : Db) (row : RatingHistoryRow) : Prop :=
  ∀ e ∈ row.inputGames, ∃ other ∈ db.rowsOf row.periodId, other.playerId = e.opponentId ∧
    other.before.rating = e.opponentRating ∧ other.before.deviation = e.opponentRd ∧
    ∃ e' ∈ other.inputGames, e'.pairingId = e.pairingId ∧ e'.opponentId = row.playerId ∧
      e.score + e'.score = 1

/-- The totals of a computed period: each game twice, and a point for each game. -/
structure Balanced (db : Db) (period : RatingPeriodRow) (processed : Nat) : Prop where
  players : period.playersAffected = some (db.rowsOf period.id).length
  games : ((db.rowsOf period.id).map RatingHistoryRow.gamesInPeriod).sum = 2 * processed
  points : ((db.rowsOf period.id).map fun row =>
    (row.inputGames.map InputGameEntry.score).sum).sum = processed

structure Audited (glicko2 : Rat → Glicko2Calculator) (db : Db) : Prop where
  owner : ∀ row ∈ db.history,
    ∃ current, db.findPlayerRating row.playerId row.category = some current
  counted : ∀ row ∈ db.history, row.gamesInPeriod = row.inputGames.length
  replays : ∀ row ∈ db.history, Replays glicko2 db row
  mirrored : ∀ row ∈ db.history, Mirrored db row
  idle : ∀ period ∈ db.periods, period.gamesProcessed = none → db.rowsOf period.id = []
  balanced : ∀ period ∈ db.periods, ∀ processed, period.gamesProcessed = some processed →
    Balanced db period processed

section Rows

variable {db db' : Db} {row : RatingHistoryRow} {periodId : Nat}

theorem mem_rowsOf : row ∈ db.rowsOf periodId ↔ row ∈ db.history ∧ row.periodId = periodId := by
  rw [Db.rowsOf, List.mem_filter, decide_eq_true_eq]

theorem rowsOf_nodup (unique : Table.Unique RatingHistoryRow.key db.history) :
    (db.rowsOf periodId).Nodup :=
  (List.Nodup.of_map _ unique).filter _

/-- Totals depend on the rows of the period only. -/
theorem Balanced.congr {period : RatingPeriodRow} {processed : Nat}
    (balanced : Balanced db period processed)
    (same : (db'.rowsOf period.id).Perm (db.rowsOf period.id)) :
    Balanced db' period processed where
  players := by rw [balanced.players, same.length_eq]
  games := by rw [(same.map _).sum_eq, balanced.games]
  points := by rw [(same.map _).sum_eq, balanced.points]

end Rows

section Computation

variable {glicko2 : Rat → Glicko2Calculator} {db db' : Db} {call : ComputeCall}
  {period : RatingPeriodRow} {row : RatingHistoryRow}

/-- The period of a computation gets its counts, and no other period changes. -/
theorem computePeriod_marks (called : db.computePeriod glicko2 call = .ok db')
    (found : db.findPeriodById call.periodId = some period) : ∀ p' ∈ db'.periods,
      (p'.id = call.periodId ∧ p'.gamesProcessed = some call.games.length ∧
        p'.playersAffected = some (db.stateIds period call.games).length) ∨
      (p'.id ≠ call.periodId ∧ p' ∈ db.periods) := by
  unfold Db.computePeriod at called
  split at called
  · cases called
  rw [found] at called
  dsimp only at called
  split at called
  · cases called
  split at called
  · cases called
  case h_2 results calculated =>
    unfold Db.applyPeriodResults at called
    split at called
    · cases called
    case h_2 stored applied =>
      cases called
      have players := (mapM_players calculated).1
      have distinct : (results.map PlayerPeriodResult.playerId).Nodup := by
        rw [players]
        exact (List.perm_insertionSort _ _).nodup_iff.mpr (List.nodup_dedup _)
      have same : (results.map PlayerPeriodResult.playerId).Perm
          (db.stateIds period call.games) := by
        refine (List.perm_ext_iff_of_nodup distinct (List.nodup_dedup _)).mpr fun playerId => ?_
        rw [players, List.mem_insertionSort, List.mem_dedup, List.mem_append]
        exact or_iff_left_of_imp Db.mem_stateIds_games
      have length : results.length = (db.stateIds period call.games).length := by
        rw [← same.length_eq, List.length_map]
      have periods := (Db.applyResults_stored applied distinct).periods
      intro p' inside
      obtain ⟨p, here, rfl⟩ := Table.mem_updateWhere.mp inside
      rw [periods] at here
      by_cases this : p.id = call.periodId
      · left
        rw [if_pos (decide_eq_true this)]
        exact ⟨this, rfl, congrArg some length⟩
      · right
        rw [if_neg (by simpa using this)]
        exact ⟨this, here⟩

/-- A computation writes the rows of its period anew, one for each player involved. -/
theorem rows_written (computed : Db.Computed glicko2 db db' call period)
    (wellFormed : WellFormed db) (owner : ∀ row ∈ db.history,
      ∃ current, db.findPlayerRating row.playerId row.category = some current) :
    row ∈ db'.rowsOf call.periodId ↔ Db.Computed.Writes db call period row ∧
      db'.entry row.playerId row.periodId row.category = some row := by
  rw [mem_rowsOf, computed.mem_history wellFormed]
  constructor
  · rintro ⟨⟨old, kept⟩ | written, same⟩
    · obtain ⟨plan, known⟩ := wellFormed.known row old
      rw [same, Db.planOf, computed.found] at known
      have category : row.category = period.category :=
        (congrArg Prod.fst (Option.some.inj known)).symm
      have involved : row.playerId ∈ db.stateIds period call.games := by
        rw [Db.mem_stateIds, ← category]
        exact .inl (owner row old)
      exact absurd ⟨category, same, involved⟩ kept
    · exact written
  · rintro written
    exact ⟨.inr written, written.1.2.1⟩

/-- The rows of the other periods stay. -/
theorem rows_kept (computed : Db.Computed glicko2 db db' call period) (wellFormed : WellFormed db)
    {periodId : Nat} (other : periodId ≠ call.periodId) :
    row ∈ db'.rowsOf periodId ↔ row ∈ db.rowsOf periodId := by
  rw [mem_rowsOf, mem_rowsOf, computed.mem_history wellFormed]
  constructor
  · rintro ⟨⟨old, -⟩ | ⟨writes, -⟩, same⟩
    · exact ⟨old, same⟩
    · exact absurd (same.symm.trans writes.2.1) other
  · rintro ⟨old, same⟩
    exact ⟨.inl ⟨old, fun writes => other (same.symm.trans writes.2.1)⟩, same⟩

/-- What a computation writes for a player. -/
structure Written (glicko2 : Rat → Glicko2Calculator) (db : Db) (call : ComputeCall)
    (period : RatingPeriodRow) (row : RatingHistoryRow) : Prop where
  before : row.before = (db.prePeriodState period row.playerId).toRatingSnapshot
  games : row.gamesInPeriod = (gamesOf call.games row.playerId).length
  inputGames : row.inputGames =
    inputGamesOf call.games (db.buildPrePeriodStates period call.games) row.playerId
  after : ∃ after, glicko2 period.tau row.before
    (row.inputGames.map InputGameEntry.outcome) = some after ∧ after.toColumns = some row.after

theorem Db.Computed.written_fields (computed : Db.Computed glicko2 db db' call period)
    (wellFormed : WellFormed db) (writes : Db.Computed.Writes db call period row)
    (here : db'.entry row.playerId row.periodId row.category = some row) :
    Written glicko2 db call period row := by
  obtain ⟨r, before, after, result, hbefore, hafter, -, same⟩ := computed.written_row writes here
  obtain ⟨-, own, calculated⟩ := computeResult_some result
  obtain ⟨games, -, inputGames, -⟩ := computeResult_fields result
  have start := resultOf_before wellFormed writes.2.2 result hbefore
  rw [stateOf_involved writes.2.2] at own
  have rowBefore : row.before = before := congrArg RatingHistoryRow.before same
  have rowInputs : row.inputGames = r.inputGames := congrArg RatingHistoryRow.inputGames same
  have rowAfter : row.after = after := congrArg RatingHistoryRow.after same
  constructor
  case before => rw [rowBefore, start]
  case games => exact (congrArg RatingHistoryRow.gamesInPeriod same).trans games
  case inputGames => rw [rowInputs, inputGames]
  case after =>
    refine ⟨r.after, ?_, by rw [hafter, rowAfter]⟩
    rw [rowBefore, start, rowInputs, inputGames, ← own]
    exact calculated

variable (computed : Db.Computed glicko2 db db' call period) (wellFormed : WellFormed db)
  (owner : ∀ row ∈ db.history,
    ∃ current, db.findPlayerRating row.playerId row.category = some current)

include computed wellFormed owner

/-- The players of the rows are those involved, each once. -/
theorem rows_players : ((db'.rowsOf call.periodId).map RatingHistoryRow.playerId).Perm
    (db.stateIds period call.games) := by
  have unique := computed.uniqueHistory wellFormed.history
  have distinct : ((db'.rowsOf call.periodId).map RatingHistoryRow.playerId).Nodup := by
    refine List.Nodup.map_on ?_ (rowsOf_nodup unique)
    intro a first b second same
    have writtenA := ((rows_written computed wellFormed owner).mp first)
    have writtenB := ((rows_written computed wellFormed owner).mp second)
    have entryA := writtenA.2
    rw [same, writtenA.1.2.1, writtenA.1.1, ← writtenB.1.2.1, ← writtenB.1.1, writtenB.2] at entryA
    exact (Option.some.inj entryA).symm
  refine (List.perm_ext_iff_of_nodup distinct (List.nodup_dedup _)).mpr fun playerId => ?_
  rw [List.mem_map]
  constructor
  · rintro ⟨row, inside, rfl⟩
    exact ((rows_written computed wellFormed owner).mp inside).1.2.2
  · intro involved
    obtain ⟨r, before, after, -, -, -, -, entry⟩ := computed.written playerId involved
    obtain ⟨inside, player, id, category⟩ := entry_mem entry
    refine ⟨_, (rows_written computed wellFormed owner).mpr ⟨⟨category, id, ?_⟩, ?_⟩, player⟩
    · rw [player]
      exact involved
    · rw [player, id, category]
      exact entry

theorem row_written (inside : row ∈ db'.rowsOf call.periodId) :
    Written glicko2 db call period row := by
  obtain ⟨writes, here⟩ := (rows_written computed wellFormed owner).mp inside
  exact computed.written_fields wellFormed writes here

/-- What is counted over the rows is counted over the sides of the games. -/
theorem sum_rows (value : PerPlayerGame → Rat) :
    ((db'.rowsOf call.periodId).map fun row =>
        ((gamesOf call.games row.playerId).map value).sum).sum =
      (call.games.map fun g => value g.whiteSide + value g.blackSide).sum := by
  have players := rows_players computed wellFormed owner
  rw [← sum_gamesOf (List.nodup_dedup _) value
    fun _ plays => @Db.mem_stateIds_games db period call.games _ plays]
  have sums := (players.map fun p => ((gamesOf call.games p).map value).sum).sum_eq
  rw [List.map_map] at sums
  exact sums

theorem mirrored_written (inside : row ∈ db'.rowsOf call.periodId) : Mirrored db' row := by
  have written := row_written computed wellFormed owner inside
  have here := (mem_rowsOf.mp inside).2
  intro e listed
  rw [written.inputGames, inputGamesOf, List.mem_map] at listed
  obtain ⟨side, played, rfl⟩ := listed
  obtain ⟨involved, across, there, pairing, opponent, point⟩ := gamesOf_opponent played
  have player := (rows_players computed wellFormed owner).symm.subset
    (@Db.mem_stateIds_games db period call.games _ involved)
  obtain ⟨other, listed, same⟩ := List.mem_map.mp player
  have theirs := row_written computed wellFormed owner listed
  have state : stateOf (db.buildPrePeriodStates period call.games) side.opponentId =
      db.prePeriodState period side.opponentId :=
    stateOf_involved (Db.mem_stateIds_games involved)
  rw [here]
  refine ⟨other, listed, same, ?_, ?_, ?_⟩
  · rw [theirs.before, same, state]
  · rw [theirs.before, same, state]
  · rw [theirs.inputGames, same]
    exact ⟨_, List.mem_map_of_mem there, pairing, opponent, point⟩

theorem balanced_written : ∀ p' ∈ db'.periods, p'.id = call.periodId →
    p'.playersAffected = some (db.stateIds period call.games).length →
    Balanced db' p' call.games.length := by
  intro p' inside same affected
  have each : ∀ row ∈ db'.rowsOf p'.id, Written glicko2 db call period row := by
    rw [same]
    exact fun row listed => row_written computed wellFormed owner listed
  constructor
  case players =>
    rw [affected, same, ← (rows_players computed wellFormed owner).length_eq, List.length_map]
  case games =>
    have total := sum_rows computed wellFormed owner fun _ => 1
    simp only [List.map_const', List.sum_replicate, nsmul_eq_mul, mul_one] at total
    rw [List.map_congr_left fun row listed => (each row listed).games, same]
    have doubled : (((db'.rowsOf call.periodId).map fun row =>
        (gamesOf call.games row.playerId).length).sum : Rat) = 2 * call.games.length := by
      rw [Nat.cast_list_sum, List.map_map]
      refine Eq.trans ?_ (total.trans ?_)
      · rfl
      · ring
    exact_mod_cast doubled
  case points =>
    have total := sum_rows computed wellFormed owner PerPlayerGame.score
    rw [List.map_congr_left fun row listed => by rw [(each row listed).inputGames], same]
    refine Eq.trans ?_ (total.trans ?_)
    · refine congrArg List.sum (List.map_congr_left fun row _ => ?_)
      rw [inputGamesOf, List.map_map]
      rfl
    · simp only [RatedGame.whiteSide, RatedGame.blackSide, RatingOrder.scoreFor_sides,
        List.map_const', List.sum_replicate, nsmul_eq_mul, mul_one]

end Computation

section Runs

variable {glicko2 : Rat → Glicko2Calculator} {db db' : Db}

theorem Replays.congr {row : RatingHistoryRow} (replays : Replays glicko2 db row)
    (plan : db'.planOf row.periodId = db.planOf row.periodId) : Replays glicko2 db' row := by
  obtain ⟨startsAt, endsAt, tau, known, result⟩ := replays
  exact ⟨startsAt, endsAt, tau, plan.trans known, result⟩

theorem Mirrored.congr {row : RatingHistoryRow} (mirrored : Mirrored db row)
    (same : ∀ other, other ∈ db.rowsOf row.periodId → other ∈ db'.rowsOf row.periodId) :
    Mirrored db' row := by
  intro e listed
  obtain ⟨other, inside, rest⟩ := mirrored e listed
  exact ⟨other, same other inside, rest⟩

theorem Audited.create {call : CreateCall} (audited : Audited glicko2 db)
    (wellFormed : WellFormed db) (created : db.createPeriod call = .ok db') :
    Audited glicko2 db' := by
  have plans := @Db.planOf_create db db' call created
  obtain ⟨-, -, fresh, tau, rfl⟩ := Db.createPeriod_ok created
  constructor
  case owner => exact audited.owner
  case counted => exact audited.counted
  case replays =>
    intro row inside
    obtain ⟨plan, known⟩ := wellFormed.known row inside
    refine (audited.replays row inside).congr (plans ?_)
    rw [known]
    rfl
  case mirrored => exact audited.mirrored
  case idle =>
    intro period inside unprocessed
    rcases List.mem_append.mp inside with old | new
    · exact audited.idle period old unprocessed
    · -- No row belongs to a period that was not there.
      rw [List.mem_singleton.mp new]
      refine List.eq_nil_iff_forall_not_mem.mpr fun row listed => ?_
      obtain ⟨here, same⟩ := mem_rowsOf.mp listed
      obtain ⟨plan, known⟩ := wellFormed.known row here
      rw [same, Db.planOf, fresh] at known
      cases known
  case balanced =>
    intro period inside processed counted
    rcases List.mem_append.mp inside with old | new
    · exact (audited.balanced period old processed counted).congr (.refl _)
    · rw [List.mem_singleton.mp new] at counted
      cases counted

theorem Audited.compute {call : ComputeCall} {period : RatingPeriodRow}
    (audited : Audited glicko2 db) (wellFormed : WellFormed db)
    (computed : Db.Computed glicko2 db db' call period)
    (called : db.computePeriod glicko2 call = .ok db') : Audited glicko2 db' := by
  have owner := audited.owner
  have marks := computePeriod_marks called computed.found
  have later : ∀ row ∈ db'.history, row.periodId ≠ call.periodId → row ∈ db.history := by
    intro row inside other
    exact (mem_rowsOf.mp ((rows_kept computed wellFormed other).mp
      (mem_rowsOf.mpr ⟨inside, rfl⟩))).1
  have anew : ∀ row ∈ db'.history, row.periodId = call.periodId →
      row ∈ db'.rowsOf call.periodId := fun row inside same => mem_rowsOf.mpr ⟨inside, same⟩
  constructor
  case owner =>
    intro row inside
    by_cases involved : row.category = period.category ∧
        row.playerId ∈ db.stateIds period call.games
    · obtain ⟨r, before, after, -, -, -, rating, -⟩ := computed.written row.playerId involved.2
      obtain ⟨current, found, -⟩ := Option.map_eq_some_iff.mp rating
      exact ⟨current, involved.1 ▸ found⟩
    · have old : row ∈ db.history := by
        rcases (computed.mem_history wellFormed).mp inside with ⟨old, -⟩ | ⟨writes, -⟩
        · exact old
        · exact absurd ⟨writes.1, writes.2.2⟩ involved
      obtain ⟨current, found⟩ := owner row old
      exact ⟨current, (computed.ratings _ _ involved).trans found⟩
  case counted =>
    intro row inside
    by_cases same : row.periodId = call.periodId
    · have written := row_written computed wellFormed owner (anew row inside same)
      rw [written.games, written.inputGames, inputGamesOf, List.length_map]
    · exact audited.counted row (later row inside same)
  case replays =>
    intro row inside
    by_cases same : row.periodId = call.periodId
    · have here := anew row inside same
      obtain ⟨writes, -⟩ := (rows_written computed wellFormed owner).mp here
      refine ⟨period.startsAt, period.endsAt, period.tau, ?_,
        (row_written computed wellFormed owner here).after⟩
      rw [computed.plans, same, writes.1, Db.planOf, computed.found]
      rfl
    · exact (audited.replays row (later row inside same)).congr (computed.plans _)
  case mirrored =>
    intro row inside
    by_cases same : row.periodId = call.periodId
    · exact mirrored_written computed wellFormed owner (anew row inside same)
    · exact (audited.mirrored row (later row inside same)).congr fun other listed =>
        (rows_kept computed wellFormed same).mpr listed
  case idle =>
    intro p' inside unprocessed
    rcases marks p' inside with ⟨-, processed, -⟩ | ⟨other, old⟩
    · rw [processed] at unprocessed
      cases unprocessed
    · refine List.eq_nil_iff_forall_not_mem.mpr fun row listed => ?_
      have before := (rows_kept computed wellFormed other).mp listed
      rw [audited.idle p' old unprocessed] at before
      cases before
  case balanced =>
    intro p' inside processed counted
    rcases marks p' inside with ⟨same, games, affected⟩ | ⟨other, old⟩
    · rw [games] at counted
      cases counted
      exact balanced_written computed wellFormed owner p' inside same affected
    · refine (audited.balanced p' old processed counted).congr ?_
      have unique := computed.uniqueHistory wellFormed.history
      exact (List.perm_ext_iff_of_nodup (rowsOf_nodup unique)
        (rowsOf_nodup wellFormed.history)).mpr fun row => rows_kept computed wellFormed other

theorem Audited.step {label : Label} (audited : Audited glicko2 db) (wellFormed : WellFormed db)
    (taken : (service glicko2).step db label = some db') : Audited glicko2 db' := by
  have after := taken
  simp only [service, Db.step, Option.some.injEq] at after
  rcases step_cases taken with rfl | ⟨call, -, created⟩ | ⟨call, period, rfl, computed⟩
  · exact audited
  · exact audited.create wellFormed created
  · cases called : db.computePeriod glicko2 call with
    | error => simpa [called, ← after] using audited
    | ok next =>
        obtain rfl : next = db' := by simpa [called] using after
        exact audited.compute wellFormed computed called

theorem empty_audited : Audited glicko2 .empty where
  owner _ inside := by cases inside
  counted _ inside := by cases inside
  replays _ inside := by cases inside
  mirrored _ inside := by cases inside
  idle _ inside := by cases inside
  balanced _ inside := by cases inside

end Runs

/-- After any periods were created, computed and computed again in any order: each row is the
calculator's answer to what it records, the rows of two opponents agree on their game and on each
other's numbers, and a computed period has each of its games twice and one point for each. -/
theorem rating_audit (glicko2 : Rat → Glicko2Calculator) (db : Db)
    (reached : (service glicko2).Reachable db) :
    (∀ row ∈ db.history, Replays glicko2 db row ∧ Mirrored db row ∧
      row.gamesInPeriod = row.inputGames.length) ∧
    ∀ period ∈ db.periods, match period.gamesProcessed with
      | none => db.rowsOf period.id = []
      | some processed => Balanced db period processed := by
  have sound : WellFormed db ∧ Audited glicko2 db := by
    apply reached.invariant fun db => WellFormed db ∧ Audited glicko2 db
    · rintro db rfl
      exact ⟨empty_wellFormed, empty_audited⟩
    · rintro db label db' ⟨wellFormed, audited⟩ - taken
      exact ⟨wellFormed.step taken, audited.step wellFormed taken⟩
  obtain ⟨-, audited⟩ := sound
  refine ⟨fun row inside => ⟨audited.replays row inside, audited.mirrored row inside,
    audited.counted row inside⟩, fun period inside => ?_⟩
  cases counted : period.gamesProcessed with
  | none => exact audited.idle period inside counted
  | some processed => exact audited.balanced period inside processed counted

/-- The first period is computed again after the second. -/
def outOfOrder : List Label :=
  twoPeriods ++ [compute 2 oneGame 30, compute 1 [] 31, compute 2 oneGame 32]

theorem rating_audit_outOfOrder :
    ∃ db, (service glickman).run .empty outOfOrder = some db ∧
      ((db.rowsOf 2).map RatingHistoryRow.gamesInPeriod) = [1, 1] ∧
      ∀ row ∈ db.history, Replays glickman db row ∧ Mirrored db row := by
  have rows : ((service glickman).run .empty outOfOrder).map (fun db =>
      (db.rowsOf 2).map RatingHistoryRow.gamesInPeriod) = some [1, 1] := by
    decide +kernel
  obtain ⟨db, ran, rows⟩ := Option.map_eq_some_iff.mp rows
  have reached := System.run_reachable _ db outOfOrder rfl ran
  exact ⟨db, ran, rows, fun row inside =>
    ⟨((rating_audit glickman db reached).1 row inside).1,
      ((rating_audit glickman db reached).1 row inside).2.1⟩⟩

end Farzin.Rating
