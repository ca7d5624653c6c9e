import Farzin.RatingTables

set_option autoImplicit false

/- The chain of a player's rating history: each row begins where the one before it ended, and the
current rating is where the last one ended. It holds as long as periods are computed in the order
of their starts. -/
namespace Farzin.Rating

open Transition (System)

namespace Db

variable (db : Db)

def startOf (periodId : Nat) : Option Int := (db.planOf periodId).map fun plan => plan.2.1

/-- The period of one row starts before that of another. -/
def Earlier (a b : RatingHistoryRow) : Prop :=
  ∃ x ∈ db.startOf a.periodId, ∃ y ∈ db.startOf b.periodId, x < y

/-- The row is in the history of the player in the category. -/
def Has (category : Category) (playerId : Nat) (row : RatingHistoryRow) : Prop :=
  row ∈ db.history ∧ row.playerId = playerId ∧ row.category = category

end Db

/-- The rows of a player, ordered by the start of their periods. -/
structure Chained (db : Db) (category : Category) (playerId : Nat) : Prop where
  first : ∀ row, db.Has category playerId row →
    (∀ other, db.Has category playerId other → ¬ db.Earlier other row) →
    row.before = defaultPrePeriodState.toRatingSnapshot
  next : ∀ previous row, db.Has category playerId previous → db.Has category playerId row →
    db.Earlier previous row →
    (∀ other, db.Has category playerId other →
      ¬ (db.Earlier previous other ∧ db.Earlier other row)) →
    row.before = previous.after
  latest : ∀ row, db.Has category playerId row →
    (∀ other, db.Has category playerId other → ¬ db.Earlier row other) →
    ∃ current, db.findPlayerRating playerId category = some current ∧
      current.toRatingSnapshot = row.after

/-- A period is computed when no row of its category belongs to a period that starts later. -/
def InOrder (db : Db) : Label → Prop
  | .createPeriod _ => True
  | .computePeriod call => ∀ period ∈ db.findPeriodById call.periodId, ∀ row ∈ db.history,
      row.category = period.category →
        ∀ start ∈ db.startOf row.periodId, start ≤ period.startsAt

instance (db : Db) : DecidablePred (InOrder db)
  | .createPeriod _ => .isTrue trivial
  | .computePeriod call => inferInstanceAs (Decidable
      (∀ period ∈ db.findPeriodById call.periodId, ∀ row ∈ db.history,
        row.category = period.category →
          ∀ start ∈ db.startOf row.periodId, start ≤ period.startsAt))

/-- The periods of a category start at different times. -/
structure Calendar (db : Db) : Prop where
  ranges : ∀ p ∈ db.periods, p.startsAt < p.endsAt
  starts : ∀ p ∈ db.periods, ∀ q ∈ db.periods, p.category = q.category →
    p.startsAt = q.startsAt → p.id = q.id

/-- The chain of every player, and what carries it: whoever has a row has a rating, and whoever
has a rating in a category has one of its latest rows. -/
structure Chains (db : Db) : Prop where
  owner : ∀ row ∈ db.history,
    ∃ current, db.findPlayerRating row.playerId row.category = some current
  last : ∀ category playerId current, db.findPlayerRating playerId category = some current →
    ∃ own, db.Has category playerId own ∧
      ∀ row ∈ db.history, row.category = category → ¬ db.Earlier own row
  chained : ∀ category playerId, Chained db category playerId

section Order

variable {db db' : Db} {category : Category} {playerId : Nat} {a b : RatingHistoryRow}

theorem Calendar.step {glicko2 : Rat → Glicko2Calculator} {label : Label} (calendar : Calendar db)
    (taken : (service glicko2).step db label = some db') : Calendar db' := by
  rcases step_cases taken with rfl | ⟨call, -, created⟩ | ⟨call, period, -, computed⟩
  · exact calendar
  · obtain ⟨range, free, fresh, tau, rfl⟩ := Db.createPeriod_ok created
    -- Two periods that start together overlap.
    have apart : ∀ p ∈ db.periods, p.category = call.category → p.startsAt ≠ call.startsAt := by
      intro p inside same together
      rw [Db.findOverlappingPeriod, List.find?_eq_none] at free
      have here := calendar.ranges p inside
      apply free p inside
      rw [decide_eq_true_eq]
      exact ⟨same, by omega, by omega⟩
    constructor
    · intro p inside
      rcases List.mem_append.mp inside with old | new
      · exact calendar.ranges p old
      · rw [List.mem_singleton] at new
        subst new
        exact range
    · intro p inside q inside' same together
      rcases List.mem_append.mp inside with old | new
      · rcases List.mem_append.mp inside' with old' | new'
        · exact calendar.starts p old q old' same together
        · rw [List.mem_singleton] at new'
          subst new'
          exact absurd together (apart p old same)
      · rw [List.mem_singleton] at new
        subst new
        rcases List.mem_append.mp inside' with old' | new'
        · exact absurd together.symm (apart q old' same.symm)
        · rw [List.mem_singleton] at new'
          subst new'
          rfl
  · constructor
    · intro p' inside
      obtain ⟨p, here, -, -, starts, ends⟩ := computed.periods p' inside
      rw [starts, ends]
      exact calendar.ranges p here
    · intro p' inside q' inside' same together
      obtain ⟨p, here, id, category, starts, -⟩ := computed.periods p' inside
      obtain ⟨q, here', id', category', starts', -⟩ := computed.periods q' inside'
      rw [id, id']
      apply calendar.starts p here q here'
      · rw [← category, ← category']
        exact same
      · rw [← starts, ← starts']
        exact together

theorem startOf_congr (plans : ∀ id, db'.planOf id = db.planOf id) (id : Nat) :
    db'.startOf id = db.startOf id := by
  rw [Db.startOf, Db.startOf, plans]

theorem earlier_irrefl : ¬ db.Earlier a a := by
  rintro ⟨x, hx, y, hy, less⟩
  rw [Option.mem_def] at hx hy
  rw [hx] at hy
  cases hy
  exact lt_irrefl x less

/-- A chain depends on the rows, their order and the current rating. -/
theorem Chained.congr (chained : Chained db category playerId)
    (rows : ∀ row, db'.Has category playerId row ↔ db.Has category playerId row)
    (order : ∀ a b, db.Has category playerId a → db.Has category playerId b →
      (db'.Earlier a b ↔ db.Earlier a b))
    (current : db'.findPlayerRating playerId category = db.findPlayerRating playerId category) :
    Chained db' category playerId where
  first row here no := by
    have here := (rows row).mp here
    apply chained.first row here
    intro other there earlier
    exact no other ((rows other).mpr there) ((order other row there here).mpr earlier)
  next previous row before here earlier no := by
    have before := (rows previous).mp before
    have here := (rows row).mp here
    apply chained.next previous row before here ((order previous row before here).mp earlier)
    intro other there between
    exact no other ((rows other).mpr there)
      ⟨(order previous other before there).mpr between.1,
        (order other row there here).mpr between.2⟩
  latest row here no := by
    have here := (rows row).mp here
    rw [current]
    apply chained.latest row here
    intro other there earlier
    exact no other ((rows other).mpr there) ((order row other here there).mpr earlier)

end Order

/-- The period of a row. -/
theorem WellFormed.period {db : Db} (wellFormed : WellFormed db) {row : RatingHistoryRow}
    (inside : row ∈ db.history) : ∃ p ∈ db.periods, p.id = row.periodId ∧
      p.category = row.category ∧ db.startOf row.periodId = some p.startsAt := by
  obtain ⟨plan, known⟩ := wellFormed.known row inside
  have plans := known
  rw [Db.planOf, Option.map_eq_some_iff] at plans
  obtain ⟨p, found, eq⟩ := plans
  refine ⟨p, Table.findUnique_mem found, Table.findUnique_key found, congrArg Prod.fst eq, ?_⟩
  rw [Db.startOf, known, ← eq]
  rfl

/-- Rows of a category of which neither is earlier are of one period. -/
theorem same_period {db : Db} (wellFormed : WellFormed db) (calendar : Calendar db)
    {a b : RatingHistoryRow} (insideA : a ∈ db.history) (insideB : b ∈ db.history)
    (same : a.category = b.category) (notBefore : ¬ db.Earlier a b) (notAfter : ¬ db.Earlier b a) :
    a.periodId = b.periodId := by
  obtain ⟨p, here, id, category, start⟩ := wellFormed.period insideA
  obtain ⟨q, here', id', category', start'⟩ := wellFormed.period insideB
  rw [← id, ← id']
  apply calendar.starts p here q here'
  · rw [category, category', same]
  · apply le_antisymm
    · exact not_lt.mp fun less => notAfter ⟨_, start', _, start, less⟩
    · exact not_lt.mp fun less => notBefore ⟨_, start, _, start', less⟩

section Step

variable {glicko2 : Rat → Glicko2Calculator} {db db' : Db} {call : ComputeCall}
  {period : RatingPeriodRow} (computed : Db.Computed glicko2 db db' call period)
  (wellFormed : WellFormed db) (calendar : Calendar db) (chains : Chains db)
  (inOrder : InOrder db (.computePeriod call))

include computed in
theorem start_computed : db.startOf call.periodId = some period.startsAt := by
  rw [Db.startOf, Db.planOf, computed.found]
  rfl

include computed wellFormed inOrder in
/-- No row of the category is of a later period. -/
theorem start_le {row : RatingHistoryRow} (inside : row ∈ db.history)
    (same : row.category = period.category) :
    ∃ x ∈ db.startOf row.periodId, x ≤ period.startsAt := by
  obtain ⟨p, -, -, -, start⟩ := wellFormed.period inside
  exact ⟨_, start, inOrder period computed.found row inside same _ start⟩

include computed wellFormed calendar inOrder in
theorem start_lt {row : RatingHistoryRow} (inside : row ∈ db.history)
    (same : row.category = period.category) (apart : row.periodId ≠ call.periodId) :
    ∃ x ∈ db.startOf row.periodId, x < period.startsAt := by
  obtain ⟨p, there, id, category, start⟩ := wellFormed.period inside
  have le := inOrder period computed.found row inside same _ start
  refine ⟨_, start, lt_of_le_of_ne le fun together => apart ?_⟩
  have ids := calendar.starts p there period (Table.findUnique_mem computed.found)
    (category.trans same) together
  rw [← id, ids, Table.findUnique_key computed.found]

include computed wellFormed calendar inOrder in
/-- The rows of a computed period come last. -/
theorem earlier_new {row new : RatingHistoryRow} (inside : row ∈ db.history)
    (same : row.category = period.category) (apart : row.periodId ≠ call.periodId)
    (id : new.periodId = call.periodId) : db.Earlier row new := by
  obtain ⟨x, here, less⟩ := start_lt computed wellFormed calendar inOrder inside same apart
  refine ⟨x, here, period.startsAt, ?_, less⟩
  rw [id]
  exact start_computed computed

include computed wellFormed inOrder in
theorem new_not_earlier {row new : RatingHistoryRow} (inside : row ∈ db.history)
    (same : row.category = period.category) (id : new.periodId = call.periodId) :
    ¬ db.Earlier new row := by
  rintro ⟨x, hx, y, hy, less⟩
  obtain ⟨z, there, le⟩ := start_le computed wellFormed inOrder inside same
  rw [id, start_computed computed, Option.mem_def] at hx
  rw [Option.mem_def] at hy there
  rw [hy] at there
  cases hx
  cases there
  omega

include wellFormed in
theorem has_unique {category : Category} {playerId : Nat} {a b : RatingHistoryRow}
    (hasA : db.Has category playerId a) (hasB : db.Has category playerId b)
    (same : a.periodId = b.periodId) : a = b := by
  obtain ⟨insideA, rfl, rfl⟩ := hasA
  obtain ⟨insideB, player, category⟩ := hasB
  have hereA := (mem_history_iff wellFormed.history).mp insideA
  have hereB := (mem_history_iff wellFormed.history).mp insideB
  rw [player, category, ← same, hereA] at hereB
  exact Option.some.inj hereB

include computed wellFormed chains inOrder calendar in
/-- The computation starts where the last row of an earlier period ended, or afresh. -/
theorem before_continues {playerId : Nat} :
    let old row := db.Has period.category playerId row ∧ row.periodId ≠ call.periodId
    let before := (db.prePeriodState period playerId).toRatingSnapshot
    ((∀ row, ¬ old row) → before = defaultPrePeriodState.toRatingSnapshot) ∧
      ∀ previous, old previous → (∀ row, old row → ¬ db.Earlier previous row) →
        before = previous.after := by
  intro old before
  have id : period.id = call.periodId := Table.findUnique_key computed.found
  have found : db.findPeriodById period.id = some period := by
    rw [id]
    exact computed.found
  have chained := chains.chained period.category playerId
  cases current : db.findPlayerRating playerId period.category with
  | none =>
      have afresh : before = defaultPrePeriodState.toRatingSnapshot := by
        change (db.prePeriodState period playerId).toRatingSnapshot = _
        unfold Db.prePeriodState
        rw [current]
        cases db.priorHistory period.id playerId with
        | none => rfl
        | some prior => rfl
      refine ⟨fun _ => afresh, ?_⟩
      rintro previous ⟨⟨inside, rfl, category⟩, -⟩ -
      obtain ⟨rating, owned⟩ := chains.owner previous inside
      rw [category, current] at owned
      cases owned
  | some rating =>
      cases prior : db.priorHistory period.id playerId with
      | some row =>
          have start : before = row.before := by
            change (db.prePeriodState period playerId).toRatingSnapshot = _
            unfold Db.prePeriodState
            rw [current, prior]
          have entry := priorHistory_eq wellFormed found playerId
          rw [prior] at entry
          obtain ⟨inside, player, rowId, category⟩ := entry_mem entry.symm
          have here : db.Has period.category playerId row := ⟨inside, player, category⟩
          -- Another row of the player is of another period.
          have other : ∀ r, db.Has period.category playerId r → db.Earlier r row → old r := by
            intro r has earlier
            refine ⟨has, fun same => ?_⟩
            rw [has_unique wellFormed has here (by rw [same, rowId, id])] at earlier
            exact earlier_irrefl earlier
          rw [start]
          constructor
          · intro no
            apply chained.first row here
            intro r has earlier
            exact no r (other r has earlier)
          · intro previous was no
            apply chained.next previous row was.1 here
            · exact earlier_new computed wellFormed calendar inOrder was.1.1 was.1.2.2 was.2
                (by rw [rowId, id])
            · rintro r has ⟨after, earlier⟩
              exact no r (other r has earlier) after
      | none =>
          have start : before = rating.toRatingSnapshot := by
            change (db.prePeriodState period playerId).toRatingSnapshot = _
            unfold Db.prePeriodState
            rw [current, prior]
          obtain ⟨own, has, last⟩ := chains.last period.category playerId rating current
          have ownOld : old own := by
            refine ⟨has, fun same => ?_⟩
            have entry := priorHistory_eq wellFormed found playerId
            obtain ⟨inside, player, category⟩ := has
            have there := (mem_history_iff wellFormed.history).mp inside
            rw [player, category, same, ← id, ← entry, prior] at there
            cases there
          obtain ⟨rating', current', ended⟩ := chained.latest own has
            fun r there => last r there.1 there.2.2
          rw [current] at current'
          cases current'
          rw [start]
          refine ⟨fun no => absurd ownOld (no own), fun previous was no => ?_⟩
          -- Neither is earlier, so they are of one period.
          have same : previous = own := by
            apply has_unique wellFormed was.1 has
            apply same_period wellFormed calendar was.1.1 has.1
            · exact was.1.2.2.trans has.2.2.symm
            · exact no own ownOld
            · exact last previous was.1.1 was.1.2.2
          rw [same]
          exact ended

include computed wellFormed in
/-- The rows of a player who is not involved in the computation, or of another category. -/
theorem has_other {category : Category} {playerId : Nat} (apart : ¬ (category = period.category ∧
    playerId ∈ db.stateIds period call.games)) (row : RatingHistoryRow) :
    db'.Has category playerId row ↔ db.Has category playerId row := by
  rw [Db.Has, Db.Has, computed.mem_history wellFormed]
  constructor
  · rintro ⟨⟨old, -⟩ | ⟨⟨same, -, involved⟩, -⟩, rfl, rfl⟩
    · exact ⟨old, rfl, rfl⟩
    · exact absurd ⟨same, involved⟩ apart
  · rintro ⟨old, rfl, rfl⟩
    exact ⟨Or.inl ⟨old, fun writes => apart ⟨writes.1, writes.2.2⟩⟩, rfl, rfl⟩

include computed wellFormed in
/-- The rows of a player who is involved: the old ones of other periods and a new one. -/
theorem has_involved {playerId : Nat} (involved : playerId ∈ db.stateIds period call.games) :
    ∃ new current, db'.Has period.category playerId new ∧ new.periodId = call.periodId ∧
      new.before = (db.prePeriodState period playerId).toRatingSnapshot ∧
      db'.findPlayerRating playerId period.category = some current ∧
      current.toRatingSnapshot = new.after ∧
      ∀ row, db'.Has period.category playerId row ↔ row = new ∨
        (db.Has period.category playerId row ∧ row.periodId ≠ call.periodId) := by
  obtain ⟨r, before, after, result, hbefore, hafter, rating, entry⟩ :=
    computed.written playerId involved
  obtain ⟨current, found, values⟩ := Option.map_eq_some_iff.mp rating
  obtain ⟨inside, player, id, category⟩ := entry_mem entry
  refine ⟨_, current, ⟨inside, player, category⟩, rfl, ?_, found,
    congrArg PlayerRatingRow.toRatingSnapshot values, fun row => ?_⟩
  · exact resultOf_before wellFormed involved result hbefore
  · constructor
    · rintro ⟨here, rfl, same⟩
      rcases (computed.mem_history wellFormed).mp here with ⟨old, kept⟩ | ⟨⟨-, id', -⟩, found'⟩
      · exact Or.inr ⟨⟨old, rfl, same⟩, fun id' => kept ⟨same, id', involved⟩⟩
      · rw [id', same, entry] at found'
        exact Or.inl (Option.some.inj found').symm
    · rintro (rfl | ⟨⟨old, rfl, same⟩, apart⟩)
      · exact ⟨inside, player, category⟩
      · exact ⟨(computed.mem_history wellFormed).mpr
          (Or.inl ⟨old, fun writes => apart writes.2.1⟩), rfl, same⟩

include computed in
theorem earlier_computed (a b : RatingHistoryRow) : db'.Earlier a b ↔ db.Earlier a b := by
  rw [Db.Earlier, Db.Earlier, startOf_congr computed.plans, startOf_congr computed.plans]

include computed wellFormed calendar chains inOrder in
theorem chained_computed (category : Category) (playerId : Nat) :
    Chained db' category playerId := by
  have order := earlier_computed computed
  by_cases apart : category = period.category ∧ playerId ∈ db.stateIds period call.games
  · obtain ⟨rfl, involved⟩ := apart
    obtain ⟨new, current, has, id, start, found, ended, rows⟩ :=
      has_involved computed wellFormed involved
    obtain ⟨afresh, continues⟩ := before_continues computed wellFormed calendar chains inOrder
    have chained := chains.chained period.category playerId
    -- A row of the player that is earlier than another one is an old row.
    have old : ∀ a b, db'.Has period.category playerId a → db'.Has period.category playerId b →
        db'.Earlier a b → db.Has period.category playerId a ∧ a.periodId ≠ call.periodId := by
      intro a b hasA hasB earlier
      rw [order] at earlier
      rcases (rows a).mp hasA with rfl | before
      · rcases (rows b).mp hasB with rfl | after
        · exact absurd earlier earlier_irrefl
        · exact absurd earlier
            (new_not_earlier computed wellFormed inOrder after.1.1 after.1.2.2 id)
      · exact before
    have oldEarlier : ∀ row, db.Has period.category playerId row → row.periodId ≠ call.periodId →
        db.Earlier row new := fun row before other =>
      earlier_new computed wellFormed calendar inOrder before.1 before.2.2 other id
    -- What is earlier than an old row has been there before.
    have was : ∀ other row, db.Has period.category playerId other →
        db.Has period.category playerId row → db.Earlier other row →
        db'.Has period.category playerId other := by
      intro other row before after earlier
      refine (rows other).mpr (Or.inr ⟨before, fun same => ?_⟩)
      exact new_not_earlier computed wellFormed inOrder after.1 after.2.2 same earlier
    constructor
    case first =>
      intro row here no
      rcases (rows row).mp here with rfl | ⟨before, -⟩
      · rw [start]
        apply afresh
        intro other there
        exact no other ((rows other).mpr (Or.inr there))
          ((order _ _).mpr (oldEarlier other there.1 there.2))
      · apply chained.first row before
        intro other there earlier
        exact no other (was other row there before earlier) ((order _ _).mpr earlier)
    case next =>
      intro previous row hasPrevious here earlier no
      obtain ⟨before, apart⟩ := old previous row hasPrevious here earlier
      rcases (rows row).mp here with rfl | ⟨after, -⟩
      · rw [start]
        apply continues previous ⟨before, apart⟩
        intro other there between
        exact no other ((rows other).mpr (Or.inr there))
          ⟨(order _ _).mpr between, (order _ _).mpr (oldEarlier other there.1 there.2)⟩
      · apply chained.next previous row before after ((order _ _).mp earlier)
        rintro other there ⟨second, third⟩
        exact no other (was other row there after third)
          ⟨(order _ _).mpr second, (order _ _).mpr third⟩
    case latest =>
      intro row here no
      rcases (rows row).mp here with rfl | ⟨before, apart⟩
      · exact ⟨current, found, ended⟩
      · exact absurd ((order _ _).mpr (oldEarlier row before apart)) (no new has)
  · apply (chains.chained category playerId).congr
    · exact has_other computed wellFormed apart
    · exact fun a b _ _ => order a b
    · exact computed.ratings playerId category apart

include computed wellFormed calendar chains inOrder in
theorem chains_computed : Chains db' where
  owner row inside := by
    rcases (computed.mem_history wellFormed).mp inside with ⟨old, kept⟩ | ⟨writes, here⟩
    · by_cases apart : row.category = period.category ∧
          row.playerId ∈ db.stateIds period call.games
      · obtain ⟨new, current, -, -, -, found, -⟩ :=
          has_involved computed wellFormed apart.2
        rw [apart.1]
        exact ⟨current, found⟩
      · rw [computed.ratings _ _ apart]
        exact chains.owner row old
    · obtain ⟨new, current, -, -, -, found, -⟩ := has_involved computed wellFormed writes.2.2
      rw [writes.1]
      exact ⟨current, found⟩
  last category playerId current found := by
    have order := earlier_computed computed
    by_cases apart : category = period.category ∧ playerId ∈ db.stateIds period call.games
    · obtain ⟨rfl, involved⟩ := apart
      obtain ⟨new, -, has, id, -⟩ := has_involved computed wellFormed involved
      refine ⟨new, has, fun row inside same earlier => ?_⟩
      rw [order] at earlier
      rcases (computed.mem_history wellFormed).mp inside with ⟨old, -⟩ | ⟨writes, -⟩
      · exact new_not_earlier computed wellFormed inOrder old same id earlier
      · obtain ⟨x, hx, y, hy, less⟩ := earlier
        rw [id] at hx
        rw [writes.2.1, Option.mem_def] at hy
        rw [Option.mem_def, hy] at hx
        cases hx
        exact lt_irrefl _ less
    · rw [computed.ratings playerId category apart] at found
      have other : category ≠ period.category := by
        rintro rfl
        exact apart ⟨rfl, Db.mem_stateIds.mpr (Or.inl ⟨current, found⟩)⟩
      obtain ⟨own, has, last⟩ := chains.last category playerId current found
      refine ⟨own, (has_other computed wellFormed apart own).mpr has, fun row inside same => ?_⟩
      rw [order]
      rcases (computed.mem_history wellFormed).mp inside with ⟨old, -⟩ | ⟨writes, -⟩
      · exact last row old same
      · exact absurd (same.symm.trans writes.1) other
  chained := chained_computed computed wellFormed calendar chains inOrder

end Step

/-- A new period leaves the chains. -/
theorem Chains.create {db db' : Db} {call : CreateCall} (chains : Chains db)
    (wellFormed : WellFormed db) (created : db.createPeriod call = .ok db') : Chains db' := by
  have order : ∀ a ∈ db.history, ∀ b ∈ db.history, (db'.Earlier a b ↔ db.Earlier a b) := by
    intro a insideA b insideB
    obtain ⟨plan, known⟩ := wellFormed.known a insideA
    obtain ⟨plan', known'⟩ := wellFormed.known b insideB
    have planA := Db.planOf_create created (by rw [known]; rfl)
    have planB := Db.planOf_create created (by rw [known']; rfl)
    rw [Db.Earlier, Db.Earlier, Db.startOf, Db.startOf, Db.startOf, Db.startOf, planA, planB]
  obtain ⟨-, -, -, tau, rfl⟩ := Db.createPeriod_ok created
  constructor
  case owner => exact chains.owner
  case last =>
    intro category playerId current found
    obtain ⟨own, has, last⟩ := chains.last category playerId current found
    refine ⟨own, has, fun row inside same earlier => ?_⟩
    exact last row inside same ((order own has.1 row inside).mp earlier)
  case chained =>
    intro category playerId
    apply (chains.chained category playerId).congr
    · exact fun row => Iff.rfl
    · exact fun a b hasA hasB => order a hasA.1 b hasB.1
    · rfl

/-- In every run that computes the periods of a category in the order of their starts, the rating
history of every player is a chain that ends in the current rating. -/
theorem rating_chain (glicko2 : Rat → Glicko2Calculator) (db : Db)
    (reached : (service glicko2).ReachableWhile InOrder db) (category : Category)
    (playerId : Nat) : Chained db category playerId := by
  have sound : WellFormed db ∧ Calendar db ∧ Chains db := by
    apply reached.invariant fun db => WellFormed db ∧ Calendar db ∧ Chains db
    · rintro db rfl
      refine ⟨empty_wellFormed, ⟨?_, ?_⟩, ?_, ?_, ?_⟩
      · exact fun p inside => by cases inside
      · exact fun p inside => by cases inside
      · exact fun row inside => by cases inside
      · exact fun category playerId current found => by cases found
      · intro category playerId
        constructor
        · exact fun row here => by cases here.1
        · exact fun previous row here => by cases here.1
        · exact fun row here => by cases here.1
    · rintro db label db' ⟨wellFormed, calendar, chains⟩ inOrder taken
      refine ⟨wellFormed.step taken, calendar.step taken, ?_⟩
      rcases step_cases taken with rfl | ⟨call, -, created⟩ | ⟨call, period, rfl, computed⟩
      · exact chains
      · exact chains.create wellFormed created
      · exact chains_computed computed wellFormed calendar chains inOrder
  exact sound.2.2.chained category playerId

/-- The values of the calculator, with `tau = 0.5`, on the inputs of the runs below. -/
def glickman (tau : Rat) : Glicko2Calculator := fun current outcomes =>
  let newcomer : RatingSnapshot := ⟨1500, 350, 6 / 100⟩
  let volatility : Rat := 5999968 / 100000000
  let known : List ((RatingSnapshot × List MatchOutcome) × RatingSnapshot) := [
    ((newcomer, [⟨newcomer, 1⟩]),
      ⟨16623108939062977 / 10000000000000, 29031896371798047 / 100000000000000,
        5999967537233814 / 100000000000000000⟩),
    ((newcomer, [⟨newcomer, 0⟩]),
      ⟨13376891060937023 / 10000000000000, 29031896371798047 / 100000000000000,
        5999967537233814 / 100000000000000000⟩),
    ((⟨16623109 / 10000, 2903190 / 10000, volatility⟩, []),
      ⟨16623109 / 10000, 2905060428781222 / 10000000000000, volatility⟩),
    ((⟨13376891 / 10000, 2903190 / 10000, volatility⟩, []),
      ⟨13376891 / 10000, 2905060428781222 / 10000000000000, volatility⟩)]
  if tau = tauDefault then (known.find? fun k => k.1 = (current, outcomes)).map Prod.snd else none

def classical : Category := ⟨.otb, .classical⟩

/-- Two periods, one after the other. -/
def twoPeriods : List Label := [
  .createPeriod ⟨true, 1, classical, 0, 10, none⟩,
  .createPeriod ⟨true, 2, classical, 10, 20, none⟩]

def compute (periodId : Nat) (games : List RatedGame) (now : Int) : Label :=
  .computePeriod ⟨true, periodId, "monthly", games, now⟩

/-- The first player beats the second. -/
def oneGame : List RatedGame := [⟨1, 1, 2, .whiteWin⟩]

/-- The second period is computed before the first. -/
def backDated : List Label := twoPeriods ++ [compute 2 oneGame 30, compute 1 [] 31]

theorem backDated_rows :
    ((service glickman).run .empty backDated).map (fun db =>
      ((db.entry 1 1 classical).map RatingHistoryRow.before, db.startOf 1,
        db.periods.map RatingPeriodRow.startsAt)) =
      some (some ⟨16623109 / 10000, 2903190 / 10000, 5999968 / 100000000⟩, some 0, [0, 10]) := by
  decide +kernel

/-- The row of the first period does not begin with the initial values. -/
theorem backDated_broken :
    ∃ db, (service glickman).run .empty backDated = some db ∧ ¬ Chained db classical 1 := by
  obtain ⟨db, ran, rows⟩ := Option.map_eq_some_iff.mp backDated_rows
  simp only [Prod.mk.injEq, Option.map_eq_some_iff] at rows
  obtain ⟨⟨row, entry, before⟩, start, starts⟩ := rows
  refine ⟨db, ran, fun chained => ?_⟩
  obtain ⟨inside, player, id, category⟩ := entry_mem entry
  have afresh := chained.first row ⟨inside, player, category⟩ ?_
  · rw [before] at afresh
    have ratings := congrArg RatingSnapshot.rating afresh
    revert ratings
    decide +kernel
  · rintro other - ⟨x, hx, y, hy, less⟩
    rw [id, start] at hy
    cases hy
    rw [Db.startOf, Db.planOf, Option.map_map, Option.mem_def, Option.map_eq_some_iff] at hx
    obtain ⟨p, found, rfl⟩ := hx
    have listed : p.startsAt ∈ db.periods.map RatingPeriodRow.startsAt :=
      List.mem_map_of_mem (Table.findUnique_mem found)
    rw [starts] at listed
    change p.startsAt < 0 at less
    simp only [List.mem_cons, List.not_mem_nil, or_false] at listed
    omega

/-- The periods are computed in order, and the last one again. -/
def inOrder : List Label :=
  twoPeriods ++ [compute 1 oneGame 30, compute 2 [] 31, compute 2 [] 32]

theorem inOrder_guarded : System.Guarded InOrder (service glickman) .empty inOrder := by
  decide +kernel

theorem inOrder_chained :
    ∃ db, (service glickman).run .empty inOrder = some db ∧
      (db.history.map fun row => (row.playerId, row.periodId)) = [(1, 1), (2, 1), (1, 2), (2, 2)] ∧
      Chained db classical 1 := by
  have rows : ((service glickman).run .empty inOrder).map (fun db =>
      db.history.map fun row => (row.playerId, row.periodId)) =
      some [(1, 1), (2, 1), (1, 2), (2, 2)] := by
    decide +kernel
  obtain ⟨db, ran, rows⟩ := Option.map_eq_some_iff.mp rows
  have reached : (service glickman).ReachableWhile InOrder db :=
    ⟨.empty, rfl, System.run_steps _ _ inOrder ran inOrder_guarded⟩
  exact ⟨db, ran, rows, rating_chain glickman db reached classical 1⟩

end Farzin.Rating
