import Farzin.RatingTables

set_option autoImplicit false

/- Computing a period a second time. Everything before the period is read back from what the
first computation wrote, but for the provisional flag, which is derived anew. -/
namespace Farzin.Rating

open Transition (System)

/-- No period of the category is computed. -/
def Elsewhere (category : Category) (db : Db) : Label → Prop
  | .createPeriod _ => True
  | .computePeriod call => ∀ period ∈ db.findPeriodById call.periodId, period.category ≠ category

/-- The flag is the one that a second computation derives. -/
def PrePeriodState.Derived (state : PrePeriodState) : Prop :=
  state.isProvisional = !isEstablished state.gamesPlayed state.deviation

/-- The peak after a computation. -/
def nextPeak (peak : Option Int) (isProvisional : Bool) (candidate : Int) : Option Int :=
  if isProvisional then peak
  else
    match peak with
    | none => some candidate
    | some old => if candidate > old then some candidate else some old

/-- A peak that has been taken is not taken again. -/
theorem nextPeak_again (peak : Option Int) (isProvisional : Bool) (candidate : Int) :
    nextPeak (nextPeak peak false candidate) isProvisional candidate =
      nextPeak peak false candidate := by
  cases isProvisional with
  | true => rfl
  | false =>
      cases peak with
      | none => simp [nextPeak]
      | some old =>
          by_cases higher : candidate > old
          · simp [nextPeak, higher]
          · simp [nextPeak, higher]

theorem nextPeak_same (peak : Option Int) (isProvisional : Bool) (candidate : Int) :
    nextPeak (nextPeak peak isProvisional candidate) isProvisional candidate =
      nextPeak peak isProvisional candidate := by
  cases isProvisional with
  | true => rfl
  | false => exact nextPeak_again peak false candidate

section Results

variable {calculator : Glicko2Calculator} {games : List RatedGame}
  {states states' : Nat → Option PrePeriodState} {playerId : Nat} {r r' : PlayerPeriodResult}

/-- The fields of a result. -/
theorem computeResult_fields (computed : computeResult calculator games states playerId = some r) :
    r.gamesInPeriod = (gamesOf games playerId).length ∧
      r.gamesPlayedTotal = (stateOf states playerId).gamesPlayed + (gamesOf games playerId).length ∧
      r.inputGames = inputGamesOf games states playerId ∧
      r.isProvisional = ((stateOf states playerId).isProvisional &&
        !isEstablished r.gamesPlayedTotal r.after.deviation) ∧
      r.peakRating = nextPeak (stateOf states playerId).peakRating r.isProvisional
        (roundHalfUp r.after.rating) := by
  simp only [computeResult, Option.map_eq_some_iff] at computed
  obtain ⟨after, calculated, rfl⟩ := computed
  refine ⟨rfl, rfl, rfl, ?_, ?_⟩
  · dsimp only
    split
    case isTrue provisional => rw [provisional, Bool.true_and]
    case isFalse provisional => rw [Bool.eq_false_iff.mpr provisional, Bool.false_and]
  · dsimp only
    generalize (if (stateOf states playerId).isProvisional = true then _ else false) = flag
    cases flag with
    | true => rfl
    | false =>
        cases (stateOf states playerId).peakRating with
        | none => rfl
        | some old =>
            by_cases higher : roundHalfUp after.rating > old
            · simp [nextPeak, higher]
            · simp [nextPeak, higher]

/-- The same snapshots and the same games played give the same numbers. -/
theorem computeResult_again
    (snapshots : ∀ q, (stateOf states' q).toRatingSnapshot = (stateOf states q).toRatingSnapshot)
    (played : (stateOf states' playerId).gamesPlayed = (stateOf states playerId).gamesPlayed)
    (first : computeResult calculator games states playerId = some r)
    (second : computeResult calculator games states' playerId = some r') :
    r'.playerId = r.playerId ∧ r'.before = r.before ∧ r'.after = r.after ∧
      r'.gamesInPeriod = r.gamesInPeriod ∧ r'.gamesPlayedTotal = r.gamesPlayedTotal ∧
      r'.inputGames = r.inputGames := by
  obtain ⟨player, before, calculated⟩ := computeResult_some first
  obtain ⟨player', before', calculated'⟩ := computeResult_some second
  obtain ⟨count, total, input, -⟩ := computeResult_fields first
  obtain ⟨count', total', input', -⟩ := computeResult_fields second
  have inputs : inputGamesOf games states' playerId = inputGamesOf games states playerId := by
    apply List.map_congr_left
    intro g _
    have opponent := snapshots g.opponentId
    rw [congrArg RatingSnapshot.rating opponent, congrArg RatingSnapshot.deviation opponent]
  have starts : r'.before = r.before := by rw [before, before', snapshots]
  rw [inputs, starts, calculated] at calculated'
  refine ⟨player'.trans player.symm, starts, (Option.some.inj calculated').symm,
    count'.trans count.symm, ?_, ?_⟩
  · rw [total', total, played]
  · rw [input', input, inputs]

end Results

/-- The rows of a category, and what is planned, are as they were. -/
structure Kept (category : Category) (db db' : Db) : Prop where
  ratings : ∀ playerId,
    db'.findPlayerRating playerId category = db.findPlayerRating playerId category
  entries : ∀ playerId id, db'.entry playerId id category = db.entry playerId id category
  plans : ∀ id, (db.planOf id).isSome → db'.planOf id = db.planOf id

theorem Kept.step {glicko2 : Rat → Glicko2Calculator} {category : Category} {start db db' : Db}
    {label : Label} (kept : Kept category start db) (elsewhere : Elsewhere category db label)
    (taken : (service glicko2).step db label = some db') : Kept category start db' := by
  rcases step_cases taken with rfl | ⟨call, -, created⟩ | ⟨call, period, rfl, computed⟩
  · exact kept
  · have plans := @Db.planOf_create db db' call created
    obtain ⟨-, -, -, tau, rfl⟩ := Db.createPeriod_ok created
    refine ⟨kept.ratings, kept.entries, fun id known => ?_⟩
    have before := kept.plans id known
    rw [← before] at known ⊢
    exact plans known
  · have other : category ≠ period.category := (elsewhere period computed.found).symm
    refine ⟨fun playerId => ?_, fun playerId id => ?_, fun id known => ?_⟩
    · rw [computed.ratings playerId category fun both => other both.1]
      exact kept.ratings playerId
    · rw [computed.entries playerId id category fun all => other all.1]
      exact kept.entries playerId id
    · rw [computed.plans]
      exact kept.plans id known

section Again

variable {glicko2 : Rat → Glicko2Calculator} {db db₁ db₂ db₃ : Db} {call again : ComputeCall}
  {period period₂ : RatingPeriodRow}

/-- Two computations of a period with the same games, and nothing in its category between. -/
structure Twice (glicko2 : Rat → Glicko2Calculator) (db db₁ db₂ db₃ : Db)
    (call again : ComputeCall) (period period₂ : RatingPeriodRow) : Prop where
  wellFormed : WellFormed db
  wellFormed₂ : WellFormed db₂
  first : Db.Computed glicko2 db db₁ call period
  kept : Kept period.category db₁ db₂
  second : Db.Computed glicko2 db₂ db₃ again period₂
  id : again.periodId = call.periodId
  games : again.games = call.games

namespace Twice

variable (twice : Twice glicko2 db db₁ db₂ db₃ call again period period₂)

include twice

/-- The period is planned as it was. -/
theorem plan : period₂.category = period.category ∧ period₂.tau = period.tau ∧
    period₂.id = call.periodId := by
  have plan₁ : db₁.planOf call.periodId =
      some (period.category, period.startsAt, period.endsAt, period.tau) := by
    rw [twice.first.plans, Db.planOf, twice.first.found]
    rfl
  have plan₂ := twice.kept.plans call.periodId (by rw [plan₁]; rfl)
  have found := twice.second.found
  rw [twice.id] at found
  rw [plan₁, Db.planOf, found] at plan₂
  simp only [Option.map_some, Option.some.injEq, Prod.mk.injEq] at plan₂
  exact ⟨plan₂.1, plan₂.2.2.2, Table.findUnique_key found⟩

/-- Who was involved has a row, and nobody else has got one. -/
theorem involved (playerId : Nat) : playerId ∈ db₂.stateIds period₂ again.games ↔
    playerId ∈ db.stateIds period call.games := by
  obtain ⟨category, -, -⟩ := twice.plan
  rw [Db.mem_stateIds, category, twice.kept.ratings, twice.games]
  constructor
  · rintro (⟨current, found⟩ | plays)
    · by_contra absent
      rw [twice.first.ratings playerId _ fun both => absent both.2] at found
      exact absent (Db.mem_stateIds.mpr (Or.inl ⟨current, found⟩))
    · exact Db.mem_stateIds_games plays
  · intro inside
    obtain ⟨r, before, after, -, -, -, rating, -⟩ := twice.first.written playerId inside
    obtain ⟨current, found, -⟩ := Option.map_eq_some_iff.mp rating
    exact Or.inl ⟨current, found⟩

/-- The state before the period is read back, but for the flag and the peak. -/
theorem state {playerId : Nat} (inside : playerId ∈ db.stateIds period call.games)
    {r : PlayerPeriodResult}
    (result : Db.resultOf glicko2 db period call.games playerId = some r) :
    let state := db.prePeriodState period playerId
    let state₂ := db₂.prePeriodState period₂ playerId
    state₂.toRatingSnapshot = state.toRatingSnapshot ∧ state₂.gamesPlayed = state.gamesPlayed ∧
      state₂.Derived ∧ state₂.peakRating = r.peakRating := by
  intro state state₂
  obtain ⟨category, -, id⟩ := twice.plan
  obtain ⟨r', before, after, computed, hbefore, -, rating, entry⟩ :=
    twice.first.written playerId inside
  rw [result] at computed
  cases computed
  obtain ⟨current, found, values⟩ := Option.map_eq_some_iff.mp rating
  have found₂ : db₂.findPeriodById period₂.id = some period₂ := by
    rw [id, ← twice.id]
    exact twice.second.found
  have prior : db₂.priorHistory period₂.id playerId =
      some (r.historyRow period.category call.periodId call.now before after) := by
    rw [priorHistory_eq twice.wellFormed₂ found₂, category, id, twice.kept.entries]
    exact entry
  have rated : db₂.findPlayerRating playerId period₂.category = some current := by
    rw [category, twice.kept.ratings]
    exact found
  have snapshot := resultOf_before twice.wellFormed inside result hbefore
  obtain ⟨count, total, -, -, -⟩ := computeResult_fields result
  rw [stateOf_involved inside] at total
  have played : current.gamesPlayed = r.gamesPlayedTotal :=
    congrArg PlayerRatingRow.gamesPlayed values
  have peak : current.peakRating = r.peakRating := congrArg PlayerRatingRow.peakRating values
  have back : state₂ =
      { toRatingSnapshot := before
        gamesPlayed := current.gamesPlayed - r.gamesInPeriod
        isProvisional := !isEstablished (current.gamesPlayed - r.gamesInPeriod) before.deviation
        peakRating := current.peakRating } := by
    change db₂.prePeriodState period₂ playerId = _
    unfold Db.prePeriodState
    rw [prior, rated]
    rfl
  have games : current.gamesPlayed - r.gamesInPeriod = state.gamesPlayed := by
    rw [played, total, count]
    exact Nat.add_sub_cancel _ _
  rw [back]
  exact ⟨snapshot, games, rfl, peak⟩

/-- The snapshots that the games refer to are the same. -/
theorem snapshots (q : Nat) :
    (stateOf (db₂.buildPrePeriodStates period₂ again.games) q).toRatingSnapshot =
      (stateOf (db.buildPrePeriodStates period call.games) q).toRatingSnapshot := by
  by_cases inside : q ∈ db.stateIds period call.games
  · obtain ⟨r, -, -, result, -⟩ := twice.first.written q inside
    rw [stateOf_involved inside, stateOf_involved ((twice.involved q).mpr inside)]
    exact (twice.state inside result).1
  · have outside : q ∉ db₂.stateIds period₂ again.games := by
      rw [twice.involved]
      exact inside
    rw [stateOf, stateOf, Db.buildPrePeriodStates, Db.buildPrePeriodStates, if_neg inside,
      if_neg outside]

/-- The numbers and the history row of a player are written again as they were. -/
theorem player {playerId : Nat} (inside : playerId ∈ db.stateIds period call.games) :
    ∃ r current current₃,
      Db.resultOf glicko2 db period call.games playerId = some r ∧
      db₁.findPlayerRating playerId period.category = some current ∧
      db₃.findPlayerRating playerId period.category = some current₃ ∧
      current.isProvisional = r.isProvisional ∧
      current₃.toRatingSnapshot = current.toRatingSnapshot ∧
      current₃.gamesPlayed = current.gamesPlayed ∧
      current₃.isProvisional = ((db₂.prePeriodState period₂ playerId).isProvisional &&
        !isEstablished r.gamesPlayedTotal r.after.deviation) ∧
      current.peakRating = r.peakRating ∧
      current₃.peakRating = nextPeak r.peakRating current₃.isProvisional
        (roundHalfUp r.after.rating) ∧
      (db₃.entry playerId call.periodId period.category).map RatingHistoryRow.values =
        (db₁.entry playerId call.periodId period.category).map RatingHistoryRow.values := by
  obtain ⟨category, tau, -⟩ := twice.plan
  have inside₂ := (twice.involved playerId).mpr inside
  obtain ⟨r, before, after, result, hbefore, hafter, rating, entry⟩ :=
    twice.first.written playerId inside
  obtain ⟨r₂, before₂, after₂, result₂, hbefore₂, hafter₂, rating₂, entry₂⟩ :=
    twice.second.written playerId inside₂
  obtain ⟨snapshot, played, derived, peak⟩ := twice.state inside result
  have second := result₂
  rw [Db.resultOf, tau, twice.games] at second
  have snapshots := twice.snapshots
  rw [twice.games] at snapshots inside₂
  have states := stateOf_involved inside
  have states₂ := stateOf_involved inside₂
  obtain ⟨player, starts, ends, count, total, inputs⟩ :=
    computeResult_again snapshots (by rw [states, states₂, played]) result second
  obtain ⟨-, -, -, flag₂, peak₂⟩ := computeResult_fields second
  rw [states₂] at flag₂ peak₂
  rw [starts, hbefore] at hbefore₂
  rw [ends, hafter] at hafter₂
  cases hbefore₂
  cases hafter₂
  obtain ⟨current, found, values⟩ := Option.map_eq_some_iff.mp rating
  obtain ⟨current₃, found₃, values₃⟩ := Option.map_eq_some_iff.mp rating₂
  have numbers : current.toRatingSnapshot = after :=
    congrArg PlayerRatingRow.toRatingSnapshot values
  have numbers₃ : current₃.toRatingSnapshot = after :=
    congrArg PlayerRatingRow.toRatingSnapshot values₃
  have games : current.gamesPlayed = r.gamesPlayedTotal :=
    congrArg PlayerRatingRow.gamesPlayed values
  have games₃ : current₃.gamesPlayed = r₂.gamesPlayedTotal :=
    congrArg PlayerRatingRow.gamesPlayed values₃
  have flag : current.isProvisional = r.isProvisional :=
    congrArg PlayerRatingRow.isProvisional values
  have flag₃ : current₃.isProvisional = r₂.isProvisional :=
    congrArg PlayerRatingRow.isProvisional values₃
  have peaks : current.peakRating = r.peakRating := congrArg PlayerRatingRow.peakRating values
  have peaks₃ : current₃.peakRating = r₂.peakRating :=
    congrArg PlayerRatingRow.peakRating values₃
  rw [category] at found₃
  refine ⟨r, current, current₃, result, found, found₃, flag, numbers₃.trans numbers.symm, ?_, ?_,
    peaks, ?_, ?_⟩
  · rw [games₃, games, total]
  · rw [flag₃, flag₂, total, ends]
  · rw [peaks₃, peak₂, peak, flag₃, ends]
  · rw [← category, ← twice.id, entry₂, twice.id, category, entry]
    simp only [Option.map_some, PlayerPeriodResult.historyRow, RatingHistoryRow.values, player,
      count, inputs]

end Twice

end Again

/-- The rating row of a player after the first computation and after the second. -/
structure Again (state : PrePeriodState) (r : PlayerPeriodResult)
    (current current₃ : PlayerRatingRow) : Prop where
  numbers : current₃.toRatingSnapshot = current.toRatingSnapshot
  gamesPlayed : current₃.gamesPlayed = current.gamesPlayed
  derived : state.Derived →
    current₃.isProvisional = current.isProvisional ∧ current₃.peakRating = current.peakRating
  established : state.isProvisional = false →
    current₃.peakRating = current.peakRating ∧
      current₃.isProvisional = (!isEstablished state.gamesPlayed state.deviation &&
        !isEstablished r.gamesPlayedTotal r.after.deviation)

theorem Twice.again {glicko2 : Rat → Glicko2Calculator} {db db₁ db₂ db₃ : Db}
    {call again : ComputeCall} {period period₂ : RatingPeriodRow}
    (twice : Twice glicko2 db db₁ db₂ db₃ call again period period₂) {playerId : Nat}
    (inside : playerId ∈ db.stateIds period call.games) :
    ∃ r current current₃, Db.resultOf glicko2 db period call.games playerId = some r ∧
      db₁.findPlayerRating playerId period.category = some current ∧
      db₃.findPlayerRating playerId period.category = some current₃ ∧
      Again (db.prePeriodState period playerId) r current current₃ := by
  obtain ⟨r, current, current₃, result, found, found₃, flag, numbers, games, flag₃, peak, peak₃,
    -⟩ := twice.player inside
  obtain ⟨snapshot, played, derived, -⟩ := twice.state inside result
  obtain ⟨-, -, -, provisional, peaks⟩ := computeResult_fields result
  rw [stateOf_involved inside] at provisional peaks
  rw [PrePeriodState.Derived, played, congrArg RatingSnapshot.deviation snapshot] at derived
  rw [derived] at flag₃
  refine ⟨r, current, current₃, result, found, found₃, numbers, games, ?_, ?_⟩
  · intro same
    have flags : current₃.isProvisional = r.isProvisional := by rw [flag₃, provisional, same]
    refine ⟨flags.trans flag.symm, ?_⟩
    rw [peak₃, flags, peak, peaks]
    exact nextPeak_same _ _ _
  · intro was
    refine ⟨?_, flag₃⟩
    rw [was, Bool.false_and] at provisional
    rw [peak₃, peak, peaks, provisional]
    exact nextPeak_again _ _ _

/-- Computing a period again, with the same games and no other computation in its category in
between, leaves the history of the category, but for the times of insertion, and of every rating
the numbers and the games played. It leaves the provisional flag and the peak of every player whose
flag was the derived one. A player who was established has the same peak, and is provisional now
when the values before the period and after it do not make him established. -/
theorem recompute_period (glicko2 : Rat → Glicko2Calculator) (db db₁ db₂ db₃ : Db)
    (call again : ComputeCall) (period : RatingPeriodRow) (wellFormed : WellFormed db)
    (found : db.findPeriodById call.periodId = some period)
    (first : db.computePeriod glicko2 call = .ok db₁)
    (between : (service glicko2).Steps (Elsewhere period.category) db₁ db₂)
    (id : again.periodId = call.periodId) (games : again.games = call.games)
    (second : db₂.computePeriod glicko2 again = .ok db₃) :
    (∀ playerId periodId,
      (db₃.entry playerId periodId period.category).map RatingHistoryRow.values =
        (db₁.entry playerId periodId period.category).map RatingHistoryRow.values) ∧
    ∀ playerId,
      (db₁.findPlayerRating playerId period.category = none ∧
        db₃.findPlayerRating playerId period.category = none) ∨
      ∃ r current current₃, Db.resultOf glicko2 db period call.games playerId = some r ∧
        db₁.findPlayerRating playerId period.category = some current ∧
        db₃.findPlayerRating playerId period.category = some current₃ ∧
        Again (db.prePeriodState period playerId) r current current₃ := by
  have taken : (service glicko2).step db (.computePeriod call) = some db₁ := by
    simp only [service, Db.step, first]
  obtain ⟨period', computed⟩ := Db.computePeriod_ok first
  obtain ⟨period₂, computed₂⟩ := Db.computePeriod_ok second
  have same : period' = period := by
    have there := computed.found
    rw [found] at there
    exact (Option.some.inj there).symm
  subst same
  have later : WellFormed db₂ ∧ Kept period'.category db₁ db₂ := by
    apply between.preserve fun d => WellFormed d ∧ Kept period'.category db₁ d
    · rintro d label d' ⟨sound, kept⟩ elsewhere moved
      exact ⟨sound.step moved, kept.step elsewhere moved⟩
    · exact ⟨wellFormed.step taken, fun _ => rfl, fun _ _ => rfl, fun _ _ => rfl⟩
  have twice : Twice glicko2 db db₁ db₂ db₃ call again period' period₂ :=
    ⟨wellFormed, later.1, computed, later.2, computed₂, id, games⟩
  obtain ⟨category, -, -⟩ := twice.plan
  constructor
  · intro playerId periodId
    by_cases here : periodId = call.periodId ∧ playerId ∈ db.stateIds period' call.games
    · obtain ⟨r, current, current₃, -, -, -, -, -, -, -, -, -, rows⟩ := twice.player here.2
      rw [here.1]
      exact rows
    · have outside : ¬ (period'.category = period₂.category ∧ periodId = again.periodId ∧
          playerId ∈ db₂.stateIds period₂ again.games) := by
        rw [twice.involved, id]
        exact fun all => here all.2
      rw [computed₂.entries _ _ _ outside, later.2.entries]
  · intro playerId
    by_cases inside : playerId ∈ db.stateIds period' call.games
    · exact Or.inr (twice.again inside)
    · left
      have unrated : db₁.findPlayerRating playerId period'.category = none := by
        rw [computed.ratings _ _ fun both => inside both.2]
        cases rated : db.findPlayerRating playerId period'.category with
        | none => rfl
        | some current => exact absurd (Db.mem_stateIds.mpr (Or.inl ⟨current, rated⟩)) inside
      refine ⟨unrated, ?_⟩
      rw [computed₂.ratings, later.2.ratings]
      · exact unrated
      · rw [twice.involved]
        exact fun both => inside both.2

def classicalRatings : Category := ⟨.otb, .classical⟩

/-- The values of the calculator on the two idle players below. -/
def idleCalculator (_ : Rat) : Glicko2Calculator := fun current outcomes =>
  if outcomes ≠ [] then none
  else if current = ⟨1500, 120, 6 / 100⟩ then
    some ⟨1500, 12045181753104693 / 100000000000000, 6 / 100⟩
  else if current = ⟨1500, 110, 6 / 100⟩ then
    some ⟨1500, 1104927162600894 / 10000000000000, 6 / 100⟩
  else none

def idleRow (playerId : Nat) (deviation : Rat) (isProvisional : Bool) : PlayerRatingRow where
  rating := 1500
  deviation := deviation
  volatility := 6 / 100
  playerId := playerId
  category := classicalRatings
  gamesPlayed := 8
  isProvisional := isProvisional
  peakRating := none
  peakRatingAt := none
  lastPeriodId := none

/-- An established player who has been idle for a long time, and a provisional one whose deviation
has been rounded to the limit. -/
def longIdle : Db where
  ratings := [idleRow 1 120 false, idleRow 2 110 true]
  periods := [⟨1, classicalRatings, 0, 10, 5 / 10, none, none, none, 0⟩]
  history := []

def monthly (now : Int) : ComputeCall := ⟨true, 1, "monthly", [], now⟩

theorem longIdle_wellFormed : WellFormed longIdle where
  periods := by decide
  ratings := by decide
  history := by decide
  known _ inside := by cases inside
  columns := by decide +kernel
  columnsBefore _ inside := by cases inside

def flagOf (db : Db) (playerId : Nat) : Option Bool :=
  (db.findPlayerRating playerId classicalRatings).map PlayerRatingRow.isProvisional

/-- The flags of the two after the first computation and after the second. -/
def flagsTwice : Option (List (Option Bool)) :=
  match longIdle.computePeriod idleCalculator (monthly 11) with
  | .error _ => none
  | .ok db₁ =>
      match db₁.computePeriod idleCalculator (monthly 12) with
      | .error _ => none
      | .ok db₃ => some [flagOf db₁ 1, flagOf db₁ 2, flagOf db₃ 1, flagOf db₃ 2]

theorem flagsTwice_eq : flagsTwice = some [some false, some true, some true, some false] := by
  decide +kernel

theorem longIdle_computed :
    ∃ db₁ db₃, longIdle.computePeriod idleCalculator (monthly 11) = .ok db₁ ∧
      db₁.computePeriod idleCalculator (monthly 12) = .ok db₃ ∧
      [flagOf db₁ 1, flagOf db₁ 2, flagOf db₃ 1, flagOf db₃ 2] =
        [some false, some true, some true, some false] := by
  have flags := flagsTwice_eq
  unfold flagsTwice at flags
  split at flags
  · cases flags
  case h_2 db₁ first =>
    split at flags
    · cases flags
    case h_2 db₃ second => exact ⟨db₁, db₃, first, second, Option.some.inj flags⟩

/-- The second computation turns both flags. -/
theorem longIdle_flags :
    WellFormed longIdle ∧ ∃ db₁ db₃,
      longIdle.computePeriod idleCalculator (monthly 11) = .ok db₁ ∧
      db₁.computePeriod idleCalculator (monthly 12) = .ok db₃ ∧
      (flagOf db₁ 1 = some false ∧ flagOf db₃ 1 = some true) ∧
      flagOf db₁ 2 = some true ∧ flagOf db₃ 2 = some false := by
  obtain ⟨db₁, db₃, first, second, flags⟩ := longIdle_computed
  simp only [List.cons.injEq] at flags
  exact ⟨longIdle_wellFormed, db₁, db₃, first, second, ⟨flags.1, flags.2.2.1⟩, flags.2.1,
    flags.2.2.2.1⟩

theorem longIdle_history :
    ∃ db₁ db₃, longIdle.computePeriod idleCalculator (monthly 11) = .ok db₁ ∧
      db₁.computePeriod idleCalculator (monthly 12) = .ok db₃ ∧
      ∀ playerId periodId,
        (db₃.entry playerId periodId classicalRatings).map RatingHistoryRow.values =
          (db₁.entry playerId periodId classicalRatings).map RatingHistoryRow.values := by
  obtain ⟨db₁, db₃, first, second, -⟩ := longIdle_computed
  refine ⟨db₁, db₃, first, second, ?_⟩
  exact (recompute_period idleCalculator longIdle db₁ db₁ db₃ (monthly 11) (monthly 12)
    ⟨1, classicalRatings, 0, 10, 5 / 10, none, none, none, 0⟩ longIdle_wellFormed rfl first .refl
    rfl rfl second).1

end Farzin.Rating
