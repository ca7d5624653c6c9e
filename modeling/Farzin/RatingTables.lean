import Farzin.RatingPeriods
import Farzin.Transition

set_option autoImplicit false

/- What one computation of a period leaves in the tables: a new rating row and a new history row
for every player involved, and everything else as it was. -/
namespace Farzin.Rating

section Results

variable {calculator : Glicko2Calculator} {games : List RatedGame}
  {states : Nat → Option PrePeriodState} {playerId : Nat} {result : PlayerPeriodResult}

theorem computeResult_some
    (computed : computeResult calculator games states playerId = some result) :
    result.playerId = playerId ∧ result.before = (stateOf states playerId).toRatingSnapshot ∧
      calculator result.before ((inputGamesOf games states playerId).map InputGameEntry.outcome) =
        some result.after := by
  simp only [computeResult, Option.map_eq_some_iff] at computed
  obtain ⟨after, calculated, rfl⟩ := computed
  exact ⟨rfl, rfl, calculated⟩

theorem mapM_players {playerIds : List Nat} {results : List PlayerPeriodResult}
    (computed : playerIds.mapM (computeResult calculator games states) = some results) :
    results.map PlayerPeriodResult.playerId = playerIds ∧
      ∀ r ∈ results, computeResult calculator games states r.playerId = some r := by
  induction playerIds generalizing results with
  | nil =>
      cases computed
      exact ⟨rfl, fun _ inside => absurd inside List.not_mem_nil⟩
  | cons playerId playerIds ih =>
      simp only [List.mapM_cons, Option.pure_def, Option.bind_eq_bind,
        Option.bind_eq_some_iff] at computed
      obtain ⟨result, first, rest, others, eq⟩ := computed
      cases eq
      obtain ⟨players, each⟩ := ih others
      have same := (computeResult_some first).1
      refine ⟨by rw [List.map_cons, players, same], ?_⟩
      intro r inside
      rcases List.mem_cons.mp inside with rfl | later
      · rw [same]
        exact first
      · exact each r later

end Results

/-- A rating row but for the time of its peak. -/
def PlayerRatingRow.values (row : PlayerRatingRow) : PlayerRatingRow :=
  { row with peakRatingAt := none }

/-- A history row but for the time of its insertion. -/
def RatingHistoryRow.values (row : RatingHistoryRow) : RatingHistoryRow :=
  { row with createdAt := 0 }

namespace Db

def entry (db : Db) (playerId periodId : Nat) (category : Category) : Option RatingHistoryRow :=
  Table.findUnique RatingHistoryRow.key db.history (playerId, periodId, category)

/-- What `createPeriod` fixes about a period. -/
def planOf (db : Db) (periodId : Nat) : Option (Category × Int × Int × Rat) :=
  (db.findPeriodById periodId).map fun p => (p.category, p.startsAt, p.endsAt, p.tau)

variable {db db' : Db} {category : Category} {periodId : Nat} {now : Int}

/-- The time of a peak after an upsert. -/
def peakAt (db : Db) (row : PlayerRatingRow) (peakChanged : Bool) (now : Int) : Option Int :=
  if peakChanged then some now
  else (db.findPlayerRating row.playerId row.category).bind PlayerRatingRow.peakRatingAt

theorem findPlayerRating_upsert (row : PlayerRatingRow) (peakChanged : Bool) (playerId : Nat)
    (category : Category) :
    (db.upsertRating row peakChanged now).findPlayerRating playerId category =
      if row.key = (playerId, category) then
        some { row with peakRatingAt := db.peakAt row peakChanged now }
      else db.findPlayerRating playerId category := by
  unfold peakAt upsertRating
  cases found : db.findPlayerRating row.playerId row.category with
  | none => exact Table.findUnique_insert db.ratings _ _ found
  | some old =>
      refine (Table.findUnique_rewrite _ _ db.ratings
        (fun r same => (of_decide_eq_true same).symm) (playerId, category)).trans ?_
      by_cases same : row.key = (playerId, category)
      · have here : Table.findUnique PlayerRatingRow.key db.ratings (playerId, category) =
            some old := by
          rw [← same]
          exact found
        have key := Table.findUnique_key here
        simp [here, key, same]
      · rw [if_neg same]
        cases here : Table.findUnique PlayerRatingRow.key db.ratings (playerId, category) with
        | none => simp [findPlayerRating, here]
        | some r =>
            have key := Table.findUnique_key here
            simp [findPlayerRating, here, key, Ne.symm same]

theorem upsert_unique (unique : Table.Unique PlayerRatingRow.key db.ratings)
    (row : PlayerRatingRow) (peakChanged : Bool) :
    Table.Unique PlayerRatingRow.key (db.upsertRating row peakChanged now).ratings := by
  unfold upsertRating
  cases found : db.findPlayerRating row.playerId row.category with
  | none => exact Table.Unique.insert unique _ found
  | some old =>
      exact unique.rewrite _ _ fun r same => (of_decide_eq_true same).symm

/-- What a list of results leaves in the tables. -/
structure Stored (db db' : Db) (category : Category) (periodId : Nat) (now : Int)
    (results : List PlayerPeriodResult) : Prop where
  periods : db'.periods = db.periods
  written : ∀ r ∈ results, ∃ before after, r.before.toColumns = some before ∧
    r.after.toColumns = some after ∧
    (db'.findPlayerRating r.playerId category).map PlayerRatingRow.values =
      some (r.ratingRow category periodId after) ∧
    db'.entry r.playerId periodId category = some (r.historyRow category periodId now before after)
  ratings : ∀ playerId other, ¬ (other = category ∧ playerId ∈ results.map (·.playerId)) →
    db'.findPlayerRating playerId other = db.findPlayerRating playerId other
  entries : ∀ playerId id other,
    ¬ (other = category ∧ id = periodId ∧ playerId ∈ results.map (·.playerId)) →
    db'.entry playerId id other = db.entry playerId id other
  uniqueRatings : Table.Unique PlayerRatingRow.key db.ratings →
    Table.Unique PlayerRatingRow.key db'.ratings
  uniqueHistory : Table.Unique RatingHistoryRow.key db.history →
    Table.Unique RatingHistoryRow.key db'.history

theorem applyResult_stored {result : PlayerPeriodResult}
    (applied : db.applyResult category periodId now result = some db') :
    Stored db db' category periodId now [result] := by
  simp only [applyResult] at applied
  split at applied
  case h_2 => cases applied
  case h_1 before after hbefore hafter =>
    cases applied
    constructor
    case periods => rfl
    case written =>
      intro r inside
      rw [List.mem_singleton] at inside
      subst inside
      refine ⟨before, after, hbefore, hafter, ?_, ?_⟩
      · exact congrArg (Option.map PlayerRatingRow.values)
          ((findPlayerRating_upsert _ _ _ _).trans (if_pos rfl))
      · exact (Table.findUnique_replace _ _ _).trans (if_pos rfl)
    case ratings =>
      intro playerId other apart
      refine (findPlayerRating_upsert _ _ _ _).trans (if_neg fun same => apart ?_)
      cases same
      exact ⟨rfl, List.mem_singleton_self _⟩
    case entries =>
      intro playerId id other apart
      refine (Table.findUnique_replace _ _ _).trans (if_neg fun same => apart ?_)
      cases same
      exact ⟨rfl, rfl, List.mem_singleton_self _⟩
    case uniqueRatings => exact fun unique => upsert_unique unique _ _
    case uniqueHistory => exact fun unique => unique.replace _

theorem applyResults_stored {results : List PlayerPeriodResult}
    (applied : applyResults category periodId now db results = some db')
    (distinct : (results.map PlayerPeriodResult.playerId).Nodup) :
    Stored db db' category periodId now results := by
  induction results generalizing db with
  | nil =>
      cases applied
      exact ⟨rfl, fun _ inside => absurd inside List.not_mem_nil, fun _ _ _ => rfl,
        fun _ _ _ _ => rfl, id, id⟩
  | cons result results ih =>
      rw [applyResults, Option.bind_eq_some_iff] at applied
      obtain ⟨between, first, rest⟩ := applied
      obtain ⟨fresh, distinct⟩ := List.nodup_cons.mp distinct
      have one := applyResult_stored first
      have others := ih rest distinct
      constructor
      case periods => exact others.periods.trans one.periods
      case written =>
        intro r inside
        rcases List.mem_cons.mp inside with rfl | later
        · obtain ⟨before, after, hbefore, hafter, rating, entry⟩ :=
            one.written _ (List.mem_singleton_self _)
          refine ⟨before, after, hbefore, hafter, ?_, ?_⟩
          · rw [others.ratings _ _ fun both => fresh both.2]
            exact rating
          · rw [others.entries _ _ _ fun all => fresh all.2.2]
            exact entry
        · exact others.written r later
      case ratings =>
        intro playerId other apart
        rw [List.map_cons, List.mem_cons] at apart
        rw [others.ratings playerId other fun both => apart ⟨both.1, Or.inr both.2⟩]
        apply one.ratings playerId other
        intro both
        exact apart ⟨both.1, Or.inl (List.mem_singleton.mp both.2)⟩
      case entries =>
        intro playerId id other apart
        rw [List.map_cons, List.mem_cons] at apart
        rw [others.entries playerId id other fun all => apart ⟨all.1, all.2.1, Or.inr all.2.2⟩]
        apply one.entries playerId id other
        intro all
        exact apart ⟨all.1, all.2.1, Or.inl (List.mem_singleton.mp all.2.2)⟩
      case uniqueRatings => exact fun unique => others.uniqueRatings (one.uniqueRatings unique)
      case uniqueHistory => exact fun unique => others.uniqueHistory (one.uniqueHistory unique)

/-- A computation gives back what it computed from. -/
def resultOf (glicko2 : Rat → Glicko2Calculator) (db : Db) (period : RatingPeriodRow)
    (games : List RatedGame) (playerId : Nat) : Option PlayerPeriodResult :=
  computeResult (glicko2 period.tau) games (db.buildPrePeriodStates period games) playerId

/-- What a computation that succeeds leaves in the tables. -/
structure Computed (glicko2 : Rat → Glicko2Calculator) (db db' : Db) (call : ComputeCall)
    (period : RatingPeriodRow) : Prop where
  found : db.findPeriodById call.periodId = some period
  plans : ∀ id, db'.planOf id = db.planOf id
  uniquePeriods : Table.Unique RatingPeriodRow.id db.periods →
    Table.Unique RatingPeriodRow.id db'.periods
  periods : ∀ p' ∈ db'.periods, ∃ p ∈ db.periods, p'.id = p.id ∧ p'.category = p.category ∧
    p'.startsAt = p.startsAt ∧ p'.endsAt = p.endsAt
  written : ∀ playerId ∈ db.stateIds period call.games, ∃ r before after,
    resultOf glicko2 db period call.games playerId = some r ∧
    r.before.toColumns = some before ∧ r.after.toColumns = some after ∧
    (db'.findPlayerRating playerId period.category).map PlayerRatingRow.values =
      some (r.ratingRow period.category call.periodId after) ∧
    db'.entry playerId call.periodId period.category =
      some (r.historyRow period.category call.periodId call.now before after)
  ratings : ∀ playerId other,
    ¬ (other = period.category ∧ playerId ∈ db.stateIds period call.games) →
    db'.findPlayerRating playerId other = db.findPlayerRating playerId other
  entries : ∀ playerId id other, ¬ (other = period.category ∧ id = call.periodId ∧
      playerId ∈ db.stateIds period call.games) →
    db'.entry playerId id other = db.entry playerId id other
  uniqueRatings : Table.Unique PlayerRatingRow.key db.ratings →
    Table.Unique PlayerRatingRow.key db'.ratings
  uniqueHistory : Table.Unique RatingHistoryRow.key db.history →
    Table.Unique RatingHistoryRow.key db'.history

theorem mem_stateIds_games {period : RatingPeriodRow} {games : List RatedGame} {playerId : Nat}
    (plays : playerId ∈ gamePlayerIds games) : playerId ∈ db.stateIds period games :=
  List.mem_dedup.mpr (List.mem_append_right _ plays)

theorem mem_stateIds {period : RatingPeriodRow} {games : List RatedGame} {playerId : Nat} :
    playerId ∈ db.stateIds period games ↔
      (∃ current, db.findPlayerRating playerId period.category = some current) ∨
        playerId ∈ gamePlayerIds games := by
  rw [stateIds, List.mem_dedup, List.mem_append]
  apply or_congr_left
  rw [List.mem_map]
  constructor
  · rintro ⟨row, inside, rfl⟩
    obtain ⟨inside, same⟩ := List.mem_filter.mp inside
    cases found : db.findPlayerRating row.playerId period.category with
    | some current => exact ⟨current, rfl⟩
    | none =>
        have key : row.key = (row.playerId, period.category) := by
          rw [← of_decide_eq_true same]
          rfl
        exact absurd key (Table.findUnique_eq_none.mp found row inside)
  · rintro ⟨current, found⟩
    have key := Table.findUnique_key found
    refine ⟨current, List.mem_filter.mpr ⟨Table.findUnique_mem found, ?_⟩, congrArg Prod.fst key⟩
    exact decide_eq_true (congrArg Prod.snd key)

/-- Marking a period as computed leaves its plan. -/
theorem planOf_markComputed (playersAffected gamesProcessed : Nat) (id : Nat) :
    (db.markComputed periodId now playersAffected gamesProcessed).planOf id = db.planOf id := by
  unfold planOf findPeriodById markComputed
  rw [Table.findUnique_updateWhere]
  · rw [Option.map_map]
    congr 1
    funext p
    simp only [Function.comp_apply]
    split
    · rfl
    · rfl
  · exact fun _ => rfl

theorem computePeriod_ok {glicko2 : Rat → Glicko2Calculator} {call : ComputeCall}
    (computed : db.computePeriod glicko2 call = .ok db') :
    ∃ period, Computed glicko2 db db' call period := by
  unfold computePeriod at computed
  split at computed
  · cases computed
  split at computed
  · cases computed
  case h_2 period found =>
    split at computed
    · cases computed
    split at computed
    · cases computed
    case h_2 results calculated =>
      unfold applyPeriodResults at computed
      split at computed
      · cases computed
      case h_2 stored applied =>
        cases computed
        obtain ⟨players, each⟩ := mapM_players calculated
        have involved : ∀ playerId, playerId ∈ results.map PlayerPeriodResult.playerId ↔
            playerId ∈ db.stateIds period call.games := by
          intro playerId
          rw [players, List.mem_insertionSort, List.mem_dedup, List.mem_append]
          exact or_iff_left_of_imp mem_stateIds_games
        have distinct : (results.map PlayerPeriodResult.playerId).Nodup := by
          rw [players]
          exact (List.perm_insertionSort _ _).nodup_iff.mpr (List.nodup_dedup _)
        have left := applyResults_stored applied distinct
        refine ⟨period, ?_⟩
        constructor
        case found => exact found
        case plans =>
          intro id
          rw [planOf_markComputed, planOf, findPeriodById, left.periods]
          rfl
        case uniquePeriods =>
          intro unique
          apply Table.Unique.update
          · rw [left.periods]
            exact unique
          · exact fun _ => rfl
        case periods =>
          intro p' inside
          obtain ⟨p, here, rfl⟩ := Table.mem_updateWhere.mp inside
          rw [left.periods] at here
          refine ⟨p, here, ?_⟩
          split
          · exact ⟨rfl, rfl, rfl, rfl⟩
          · exact ⟨rfl, rfl, rfl, rfl⟩
        case written =>
          intro playerId inside
          obtain ⟨r, here, rfl⟩ := List.mem_map.mp ((involved playerId).mpr inside)
          obtain ⟨before, after, hbefore, hafter, rating, entry⟩ := left.written r here
          exact ⟨r, before, after, each r here, hbefore, hafter, rating, entry⟩
        case ratings =>
          intro playerId other apart
          apply left.ratings playerId other
          rw [involved]
          exact apart
        case entries =>
          intro playerId id other apart
          apply left.entries playerId id other
          rw [involved]
          exact apart
        case uniqueRatings => exact left.uniqueRatings
        case uniqueHistory => exact left.uniqueHistory

/-- What `createPeriod` does when it succeeds. -/
theorem createPeriod_ok {call : CreateCall} (created : db.createPeriod call = .ok db') :
    call.startsAt < call.endsAt ∧
      db.findOverlappingPeriod call.category call.startsAt call.endsAt = none ∧
      db.findPeriodById call.id = none ∧
      ∃ tau, db' = { db with
        periods := db.periods ++ [
          { id := call.id
            category := call.category
            startsAt := call.startsAt
            endsAt := call.endsAt
            tau := tau
            computedAt := none
            playersAffected := none
            gamesProcessed := none
            recomputeGeneration := 0 }] } := by
  simp only [createPeriod] at created
  split at created
  · cases created
  split at created
  · cases created
  split at created
  · cases created
  case isFalse range =>
    split at created
    · cases created
    split at created
    · cases created
    case h_2 free =>
      split at created
      case h_1 tau fresh _ =>
        cases created
        exact ⟨by omega, free, fresh, tau, rfl⟩
      case h_2 => cases created

/-- A new period leaves the plans of the others. -/
theorem planOf_create {call : CreateCall} (created : db.createPeriod call = .ok db') {id : Nat}
    (known : (db.planOf id).isSome) : db'.planOf id = db.planOf id := by
  obtain ⟨-, -, fresh, tau, rfl⟩ := createPeriod_ok created
  unfold planOf at known ⊢
  refine congrArg (Option.map _) ((Table.findUnique_insert _ _ id ?_).trans (if_neg ?_))
  · exact fresh
  · rintro rfl
    change (Option.map _ (db.findPeriodById call.id)).isSome at known
    rw [fresh] at known
    cases known

end Db

inductive Label where
  | createPeriod (call : CreateCall)
  | computePeriod (call : ComputeCall)
  deriving DecidableEq, Repr

/-- A call that fails leaves the tables. -/
def Db.step (glicko2 : Rat → Glicko2Calculator) (db : Db) (label : Label) : Db :=
  let called := match label with
    | .createPeriod call => db.createPeriod call
    | .computePeriod call => db.computePeriod glicko2 call
  match called with
  | .ok next => next
  | .error _ => db

/-- Calls of the service, one after another: the check and the insert of a period are one step. -/
def service (glicko2 : Rat → Glicko2Calculator) : Transition.System Db Label where
  initial db := db = .empty
  step db label := some (db.step glicko2 label)

/-- A step is a failed call, a new period or a computation. -/
theorem step_cases {glicko2 : Rat → Glicko2Calculator} {db db' : Db} {label : Label}
    (taken : (service glicko2).step db label = some db') :
    db' = db ∨ (∃ call, label = .createPeriod call ∧ db.createPeriod call = .ok db') ∨
      ∃ call period, label = .computePeriod call ∧ Db.Computed glicko2 db db' call period := by
  simp only [service, Db.step, Option.some.injEq] at taken
  cases label with
  | createPeriod call =>
      cases called : db.createPeriod call with
      | error => exact Or.inl (by simpa [called] using taken.symm)
      | ok next =>
          simp only [called] at taken
          subst taken
          exact Or.inr (Or.inl ⟨call, rfl, called⟩)
  | computePeriod call =>
      cases called : db.computePeriod glicko2 call with
      | error => exact Or.inl (by simpa [called] using taken.symm)
      | ok next =>
          simp only [called] at taken
          subst taken
          obtain ⟨period, computed⟩ := Db.computePeriod_ok called
          exact Or.inr (Or.inr ⟨call, period, rfl, computed⟩)

theorem roundHalfUp_int (n : Int) : roundHalfUp n = n := by
  have half : ⌊(1 / 2 : Rat)⌋ = 0 := by decide +kernel
  rw [roundHalfUp, Int.floor_intCast_add, half, add_zero]

/-- A column holds a number of units. -/
theorem toDecimal_units {precision scale : Nat} {x y : Rat}
    (stored : toDecimal precision scale x = some y) :
    ∃ n : Int, n.natAbs < 10 ^ precision ∧ y = n / 10 ^ scale := by
  unfold toDecimal at stored
  generalize (if 0 ≤ x then roundHalfUp (x * 10 ^ scale)
    else -roundHalfUp (-x * 10 ^ scale) : Int) = n at stored
  dsimp only at stored
  split at stored
  case isTrue fits =>
    cases stored
    exact ⟨n, fits, rfl⟩
  case isFalse => cases stored

/-- A number that has been in a column fits it. -/
theorem toDecimal_idem {precision scale : Nat} {x y : Rat}
    (stored : toDecimal precision scale x = some y) : toDecimal precision scale y = some y := by
  obtain ⟨n, fits, rfl⟩ := toDecimal_units stored
  have unit : (10 ^ scale : Rat) ≠ 0 := by positivity
  have back : (if (0 : Rat) ≤ n / 10 ^ scale then roundHalfUp (n / 10 ^ scale * 10 ^ scale)
      else -roundHalfUp (-(n / 10 ^ scale) * 10 ^ scale)) = n := by
    split
    · rw [div_mul_cancel₀ _ unit, roundHalfUp_int]
    · rw [neg_mul, div_mul_cancel₀ _ unit, ← Int.cast_neg, roundHalfUp_int, neg_neg]
  unfold toDecimal
  dsimp only
  rw [back, if_pos fits]

theorem toColumns_idem {s stored : RatingSnapshot} (columns : s.toColumns = some stored) :
    stored.toColumns = some stored := by
  unfold RatingSnapshot.toColumns at columns
  split at columns
  case h_2 => cases columns
  case h_1 rating deviation volatility r d v =>
    cases columns
    simp only [RatingSnapshot.toColumns, toDecimal_idem r, toDecimal_idem d, toDecimal_idem v]

theorem default_columns : defaultPrePeriodState.toRatingSnapshot.toColumns =
    some defaultPrePeriodState.toRatingSnapshot := by
  decide +kernel

/-- The constraints of the tables: unique keys, numbers as their columns hold them, and the
history of a period in its category. -/
structure WellFormed (db : Db) : Prop where
  periods : Table.Unique RatingPeriodRow.id db.periods
  ratings : Table.Unique PlayerRatingRow.key db.ratings
  history : Table.Unique RatingHistoryRow.key db.history
  known : ∀ row ∈ db.history, ∃ plan, db.planOf row.periodId = some (row.category, plan)
  columns : ∀ current ∈ db.ratings,
    current.toRatingSnapshot.toColumns = some current.toRatingSnapshot
  columnsBefore : ∀ row ∈ db.history, row.before.toColumns = some row.before

section Lookups

variable {db db' : Db}

theorem mem_history_iff (unique : Table.Unique RatingHistoryRow.key db.history)
    {row : RatingHistoryRow} :
    row ∈ db.history ↔ db.entry row.playerId row.periodId row.category = some row :=
  ⟨fun inside => unique.find inside, fun found => Table.findUnique_mem found⟩

theorem mem_ratings_iff (unique : Table.Unique PlayerRatingRow.key db.ratings)
    {row : PlayerRatingRow} :
    row ∈ db.ratings ↔ db.findPlayerRating row.playerId row.category = some row :=
  ⟨fun inside => unique.find inside, fun found => Table.findUnique_mem found⟩

theorem entry_mem {playerId periodId : Nat} {category : Category} {row : RatingHistoryRow}
    (found : db.entry playerId periodId category = some row) :
    row ∈ db.history ∧ row.playerId = playerId ∧ row.periodId = periodId ∧
      row.category = category := by
  have key := Table.findUnique_key found
  simp only [RatingHistoryRow.key, Prod.mk.injEq] at key
  exact ⟨Table.findUnique_mem found, key.1, key.2.1, key.2.2⟩

theorem findPlayerRating_mem {playerId : Nat} {category : Category} {row : PlayerRatingRow}
    (found : db.findPlayerRating playerId category = some row) :
    row ∈ db.ratings ∧ row.playerId = playerId ∧ row.category = category := by
  have key := Table.findUnique_key found
  simp only [PlayerRatingRow.key, Prod.mk.injEq] at key
  exact ⟨Table.findUnique_mem found, key.1, key.2⟩

/-- The row of a player in a period is the row of that period's category. -/
theorem priorHistory_eq (wellFormed : WellFormed db) {period : RatingPeriodRow}
    (found : db.findPeriodById period.id = some period) (playerId : Nat) :
    db.priorHistory period.id playerId = db.entry playerId period.id period.category := by
  have category : ∀ row ∈ db.history, row.periodId = period.id →
      row.category = period.category := by
    intro row inside same
    obtain ⟨plan, there⟩ := wellFormed.known row inside
    rw [same, Db.planOf, found] at there
    exact (congrArg Prod.fst (Option.some.inj there)).symm
  cases prior : db.entry playerId period.id period.category with
  | some row =>
      obtain ⟨inside, player, id, -⟩ := entry_mem prior
      cases other : db.priorHistory period.id playerId with
      | none =>
          rw [Db.priorHistory, List.find?_eq_none] at other
          have absent := other row inside
          simp [id, player] at absent
      | some row' =>
          have inside' := List.mem_of_find?_eq_some other
          have both := List.find?_some other
          simp only [decide_eq_true_eq] at both
          have here := (mem_history_iff wellFormed.history).mp inside'
          rw [both.1, both.2, category row' inside' both.1, prior] at here
          rw [here]
  | none =>
      rw [Db.priorHistory, List.find?_eq_none]
      intro row inside both
      simp only [decide_eq_true_eq] at both
      have here := (mem_history_iff wellFormed.history).mp inside
      rw [both.1, both.2, category row inside both.1, prior] at here
      cases here

end Lookups

namespace Db.Computed

variable {glicko2 : Rat → Glicko2Calculator} {db db' : Db} {call : ComputeCall}
  {period : RatingPeriodRow} {row : RatingHistoryRow}

/-- The row is the one that the computation writes for its player. -/
def Writes (db : Db) (call : ComputeCall) (period : RatingPeriodRow) (row : RatingHistoryRow) :
    Prop :=
  row.category = period.category ∧ row.periodId = call.periodId ∧
    row.playerId ∈ db.stateIds period call.games

theorem mem_history (computed : Computed glicko2 db db' call period) (wellFormed : WellFormed db) :
    row ∈ db'.history ↔ (row ∈ db.history ∧ ¬ Writes db call period row) ∨
      (Writes db call period row ∧
        db'.entry row.playerId row.periodId row.category = some row) := by
  rw [mem_history_iff (computed.uniqueHistory wellFormed.history),
    mem_history_iff wellFormed.history]
  by_cases writes : Writes db call period row
  · simp [writes]
  · rw [computed.entries _ _ _ writes]
    simp [writes]

/-- The numbers of a written row are as its columns hold them. -/
theorem written_row (computed : Computed glicko2 db db' call period)
    (writes : Writes db call period row)
    (here : db'.entry row.playerId row.periodId row.category = some row) :
    ∃ r before after, resultOf glicko2 db period call.games row.playerId = some r ∧
      r.before.toColumns = some before ∧ r.after.toColumns = some after ∧
      (db'.findPlayerRating row.playerId period.category).map PlayerRatingRow.values =
        some (r.ratingRow period.category call.periodId after) ∧
      row = r.historyRow period.category call.periodId call.now before after := by
  obtain ⟨category, id, player⟩ := writes
  obtain ⟨r, before, after, computed, hbefore, hafter, rating, entry⟩ :=
    computed.written row.playerId player
  rw [category, id, entry] at here
  exact ⟨r, before, after, computed, hbefore, hafter, rating, (Option.some.inj here).symm⟩

end Db.Computed

/-- The state before a period is as its columns hold it. -/
theorem prePeriodState_columns {db : Db} (wellFormed : WellFormed db) (period : RatingPeriodRow)
    (playerId : Nat) : (db.prePeriodState period playerId).toRatingSnapshot.toColumns =
      some (db.prePeriodState period playerId).toRatingSnapshot := by
  unfold Db.prePeriodState
  split
  case h_1 prior current before _ =>
    exact wellFormed.columnsBefore prior (List.mem_of_find?_eq_some before)
  case h_2 current _ found => exact wellFormed.columns current (findPlayerRating_mem found).1
  case h_3 => exact default_columns

theorem stateOf_involved {db : Db} {period : RatingPeriodRow} {games : List RatedGame}
    {playerId : Nat} (involved : playerId ∈ db.stateIds period games) :
    stateOf (db.buildPrePeriodStates period games) playerId =
      db.prePeriodState period playerId := by
  rw [stateOf, Db.buildPrePeriodStates, if_pos involved]
  rfl

/-- A computation begins where the state before the period was. -/
theorem resultOf_before {glicko2 : Rat → Glicko2Calculator} {db : Db} {period : RatingPeriodRow}
    {games : List RatedGame} {playerId : Nat} {r : PlayerPeriodResult} {before : RatingSnapshot}
    (wellFormed : WellFormed db) (involved : playerId ∈ db.stateIds period games)
    (computed : Db.resultOf glicko2 db period games playerId = some r)
    (stored : r.before.toColumns = some before) :
    before = (db.prePeriodState period playerId).toRatingSnapshot := by
  rw [(computeResult_some computed).2.1, stateOf_involved involved,
    prePeriodState_columns wellFormed] at stored
  exact (Option.some.inj stored).symm

theorem WellFormed.step {glicko2 : Rat → Glicko2Calculator} {db db' : Db} {label : Label}
    (wellFormed : WellFormed db) (taken : (service glicko2).step db label = some db') :
    WellFormed db' := by
  rcases step_cases taken with rfl | ⟨call, -, created⟩ | ⟨call, period, -, computed⟩
  · exact wellFormed
  · have plans := @Db.planOf_create db db' call created
    obtain ⟨-, -, fresh, tau, rfl⟩ := Db.createPeriod_ok created
    refine ⟨wellFormed.periods.insert _ fresh, wellFormed.ratings, wellFormed.history, ?_,
      wellFormed.columns, wellFormed.columnsBefore⟩
    intro row inside
    obtain ⟨plan, found⟩ := wellFormed.known row inside
    refine ⟨plan, (plans ?_).trans found⟩
    rw [found]
    rfl
  · constructor
    case periods => exact computed.uniquePeriods wellFormed.periods
    case ratings => exact computed.uniqueRatings wellFormed.ratings
    case history => exact computed.uniqueHistory wellFormed.history
    case known =>
      intro row inside
      rw [computed.plans]
      rcases (computed.mem_history wellFormed).mp inside with ⟨old, -⟩ | ⟨⟨category, id, -⟩, -⟩
      · exact wellFormed.known row old
      · rw [id, category, Db.planOf, computed.found]
        exact ⟨_, rfl⟩
    case columns =>
      intro current inside
      have found := (mem_ratings_iff (computed.uniqueRatings wellFormed.ratings)).mp inside
      by_cases involved : current.category = period.category ∧
          current.playerId ∈ db.stateIds period call.games
      · obtain ⟨r, before, after, -, -, hafter, rating, -⟩ :=
          computed.written current.playerId involved.2
        rw [involved.1] at found
        rw [found] at rating
        have numbers : current.toRatingSnapshot = after :=
          congrArg PlayerRatingRow.toRatingSnapshot (Option.some.inj rating)
        rw [numbers]
        exact toColumns_idem hafter
      · rw [computed.ratings _ _ involved] at found
        exact wellFormed.columns current (findPlayerRating_mem found).1
    case columnsBefore =>
      intro row inside
      rcases (computed.mem_history wellFormed).mp inside with ⟨old, -⟩ | ⟨writes, here⟩
      · exact wellFormed.columnsBefore row old
      · obtain ⟨r, before, after, -, hbefore, -, -, rfl⟩ := computed.written_row writes here
        exact toColumns_idem hbefore

theorem empty_wellFormed : WellFormed .empty where
  periods := List.nodup_nil
  ratings := List.nodup_nil
  history := List.nodup_nil
  known _ inside := by cases inside
  columns _ inside := by cases inside
  columnsBefore _ inside := by cases inside

end Farzin.Rating
