import Farzin.Interleaving
import Farzin.RatingTables

set_option autoImplicit false

/- Rating periods created by any number of requests at once (`createPeriod` of
`modules/rating/rating.service.ts`, cut at its awaits), and their ranges. -/
namespace Farzin.Rating

open Interleaving Transition

/-- The ranges of two periods of one category have a time in common. -/
def RatingPeriodRow.Overlaps (p q : RatingPeriodRow) : Prop :=
  p.category = q.category ∧ p.startsAt < q.endsAt ∧ q.startsAt < p.endsAt

instance (p q : RatingPeriodRow) : Decidable (p.Overlaps q) :=
  inferInstanceAs (Decidable (_ ∧ _))

/-- A request before it looks for an overlapping period, and before its transaction, with how many
periods it has looked through. -/
inductive PeriodCall where
  | check (call : CreateCall)
  | insert (call : CreateCall) (tau : Rat) (looked : Nat)
  deriving DecidableEq, Repr

def CreateCall.period (call : CreateCall) (tau : Rat) : RatingPeriodRow where
  id := call.id
  category := call.category
  startsAt := call.startsAt
  endsAt := call.endsAt
  tau := tau
  computedAt := none
  playersAffected := none
  gamesProcessed := none
  recomputeGeneration := 0

namespace Db

variable (db : Db)

/-- `createPeriod` of the service up to its transaction, with the `tau` it passes on. -/
def checkPeriod (call : CreateCall) : Except RatingError Rat :=
  let tau := call.tau.getD tauDefault
  if ¬ call.allowed then .error .notFound
  else if ¬ isValidRatingCombo call.category then .error .invalidRatingCategory
  else if call.endsAt ≤ call.startsAt then .error .invalidPeriodRange
  else if tau < tauMin ∨ tau > tauMax then .error .invalidTau
  else
    match db.findOverlappingPeriod call.category call.startsAt call.endsAt with
    | some existing => .error (.overlapping existing.id)
    | none => .ok tau

/-- Periods are unique by id, and by category and start. -/
def periodTaken (call : CreateCall) : Bool :=
  db.periods.any fun p =>
    p.id = call.id ∨ p.category = call.category ∧ p.startsAt = call.startsAt

/-- `createPeriod` of the repository. -/
def insertPeriod (call : CreateCall) (tau : Rat) : Except RatingError Db :=
  if db.periodTaken call then .error .storage
  else
    match toDecimal 4 3 tau with
    | none => .error .storage
    | some stored => .ok { db with periods := db.periods ++ [call.period stored] }

def advancePeriod : PeriodCall → Db × Option PeriodCall
  | .check call =>
      match db.checkPeriod call with
      | .error _ => (db, none)
      | .ok tau => (db, some (.insert call tau db.periods.length))
  | .insert call tau _ =>
      match db.insertPeriod call tau with
      | .error _ => (db, none)
      | .ok stored => (stored, none)

/-- No two periods of a category overlap. -/
def Apart : Prop := db.periods.Pairwise fun p q => ¬ p.Overlaps q

/-- Unless the database refuses the period, none that overlaps it has been inserted since its
request looked for one. -/
def NoneSince : PeriodCall → Prop
  | .check _ => True
  | .insert call tau looked => ¬ db.periodTaken call ∧ (toDecimal 4 3 tau).isSome →
      ∀ p ∈ db.periods.drop looked, ¬ p.Overlaps (call.period tau)

instance : (call : PeriodCall) → Decidable (db.NoneSince call)
  | .check _ => .isTrue trivial
  | .insert _ _ _ => inferInstanceAs (Decidable (_ → _))

/-- None of the periods that a request has looked through overlaps its own. -/
def Looked : PeriodCall → Prop
  | .check _ => True
  | .insert call tau looked => looked ≤ db.periods.length ∧
      ∀ p ∈ db.periods.take looked, ¬ p.Overlaps (call.period tau)

end Db

/-- A computation of a period goes on beside the requests. -/
structure PeriodComputed where
  periodId : Nat
  now : Int
  playersAffected : Nat
  gamesProcessed : Nat
  deriving DecidableEq, Repr

def periodRequests : Program Db PeriodCall PeriodComputed where
  initial := Db.Apart
  arrives _ call := match call with
    | .check _ => true
    | _ => false
  advance := Db.advancePeriod
  event db computed :=
    some (db.markComputed computed.periodId computed.now computed.playersAffected
      computed.gamesProcessed)

section Requests

variable {db : Db} {call : CreateCall}

/-- A range with no overlap does not start with another one of its category. -/
theorem periodTaken_eq (range : call.startsAt < call.endsAt)
    (free : db.findOverlappingPeriod call.category call.startsAt call.endsAt = none)
    (ranges : ∀ p ∈ db.periods, p.startsAt < p.endsAt) :
    db.periodTaken call = (db.findPeriodById call.id).isSome := by
  rw [Db.findOverlappingPeriod, List.find?_eq_none] at free
  rw [Bool.eq_iff_iff, Db.findPeriodById, Table.findUnique, List.find?_isSome, Db.periodTaken,
    List.any_eq_true]
  apply exists_congr
  intro p
  apply and_congr_right
  intro inside
  rw [decide_eq_true_eq, decide_eq_true_eq]
  constructor
  · rintro (same | ⟨category, together⟩)
    · exact same
    · have positive := ranges p inside
      have apart := free p inside
      rw [decide_eq_true_eq] at apart
      exact absurd ⟨category, by omega, by omega⟩ apart
  · exact .inl

/-- Both awaits taken at once are `createPeriod` as requests that follow one another take it. -/
theorem createPeriod_eq (ranges : ∀ p ∈ db.periods, p.startsAt < p.endsAt) :
    db.createPeriod call = (db.checkPeriod call).bind (db.insertPeriod call) := by
  unfold Db.createPeriod Db.checkPeriod
  dsimp only
  split
  · rfl
  split
  · rfl
  split
  · rfl
  rename_i valid
  split
  · rfl
  cases found : db.findOverlappingPeriod call.category call.startsAt call.endsAt with
  | some existing => rfl
  | none =>
      have taken := periodTaken_eq (by omega) found ranges
      dsimp only
      rw [Except.bind, Db.insertPeriod, taken]
      cases db.findPeriodById call.id with
      | some _ => rfl
      | none => cases toDecimal 4 3 (call.tau.getD tauDefault) <;> rfl

/-- The check finds every stored period that overlaps. -/
theorem checkPeriod_free {tau : Rat} (passed : db.checkPeriod call = .ok tau) :
    ∀ p ∈ db.periods, ¬ p.Overlaps (call.period tau) := by
  unfold Db.checkPeriod at passed
  dsimp only at passed
  split at passed
  · cases passed
  split at passed
  · cases passed
  split at passed
  · cases passed
  split at passed
  · cases passed
  split at passed
  · cases passed
  · rename_i none
    rw [Db.findOverlappingPeriod, List.find?_eq_none] at none
    intro p stored overlaps
    exact none p stored (decide_eq_true overlaps)

/-- An insert stores a period of its request at the end, or nothing. -/
theorem insert_cases (db : Db) (call : CreateCall) (tau : Rat) (looked : Nat) :
    ¬ (¬ db.periodTaken call ∧ (toDecimal 4 3 tau).isSome) ∧
        (db.advancePeriod (.insert call tau looked)).1 = db ∨
      (¬ db.periodTaken call ∧ (toDecimal 4 3 tau).isSome) ∧ ∃ stored,
        (db.advancePeriod (.insert call tau looked)).1 =
          { db with periods := db.periods ++ [call.period stored] } := by
  rw [Db.advancePeriod, Db.insertPeriod]
  by_cases taken : db.periodTaken call = true
  · rw [if_pos taken]
    exact .inl ⟨fun inserts => inserts.1 taken, rfl⟩
  · rw [if_neg taken]
    cases toDecimal 4 3 tau with
    | none => exact .inl ⟨fun inserts => Bool.false_ne_true inserts.2, rfl⟩
    | some stored => exact .inr ⟨⟨taken, rfl⟩, stored, rfl⟩

/-- As the request has looked through the first periods, only those inserted since matter. -/
theorem insert_apart_iff (apart : db.Apart) {tau : Rat} {looked : Nat}
    (checked : db.Looked (.insert call tau looked)) :
    (db.advancePeriod (.insert call tau looked)).1.Apart ↔
      db.NoneSince (.insert call tau looked) := by
  rcases insert_cases db call tau looked with
    ⟨refused, same⟩ | ⟨inserts, stored, same⟩
  · rw [same]
    exact iff_of_true apart fun inserts => absurd inserts refused
  · have since : db.NoneSince (.insert call tau looked) ↔
        ∀ p ∈ db.periods, ¬ p.Overlaps (call.period stored) := by
      constructor
      · intro none p listed
        rw [← List.take_append_drop looked db.periods] at listed
        rcases List.mem_append.mp listed with old | new
        · exact checked.2 p old
        · exact none inserts p new
      · intro none _ p listed
        exact none p (List.mem_of_mem_drop listed)
    rw [same, since]
    simp only [Db.Apart, List.pairwise_append, List.pairwise_singleton, List.mem_singleton,
      forall_eq]
    exact ⟨fun all => all.2.2, fun none => ⟨apart, trivial, none⟩⟩

/-- A request keeps what the others have looked through. -/
theorem advance_looked (moving : PeriodCall) {other : PeriodCall} (looked : db.Looked other) :
    (db.advancePeriod moving).1.Looked other := by
  cases other with
  | check => trivial
  | insert call tau most =>
      obtain ⟨within, free⟩ := looked
      have kept : ∀ row, Db.Looked { db with periods := db.periods ++ [row] }
          (.insert call tau most) := by
        intro row
        refine ⟨?_, ?_⟩
        · exact within.trans (by simp)
        · change ∀ p ∈ (db.periods ++ [row]).take most, _
          rw [List.take_append_of_le_length within]
          exact free
      cases moving with
      | check moving =>
          rw [Db.advancePeriod]
          split <;> exact ⟨within, free⟩
      | insert moving movingTau movingLooked =>
          rcases insert_cases db moving movingTau movingLooked with
            ⟨_, same⟩ | ⟨_, stored, same⟩
          · rw [same]
            exact ⟨within, free⟩
          · rw [same]
            exact kept _

/-- A computation rewrites the rows of periods, but not their ranges. -/
theorem markComputed_rows (db : Db) (periodId : Nat) (now : Int)
    (playersAffected gamesProcessed : Nat) :
    ∃ change : RatingPeriodRow → RatingPeriodRow,
      (db.markComputed periodId now playersAffected gamesProcessed).periods =
        db.periods.map change ∧ ∀ p q, (change p).Overlaps q ↔ p.Overlaps q := by
  refine ⟨_, rfl, fun p q => ?_⟩
  dsimp only
  split <;> rfl

theorem overlaps_comm (p q : RatingPeriodRow) : p.Overlaps q ↔ q.Overlaps p := by
  unfold RatingPeriodRow.Overlaps
  rw [eq_comm, and_congr_right_iff]
  exact fun _ => And.comm

theorem markComputed_apart (apart : db.Apart) (periodId : Nat) (now : Int)
    (playersAffected gamesProcessed : Nat) :
    (db.markComputed periodId now playersAffected gamesProcessed).Apart := by
  obtain ⟨change, rows, same⟩ :=
    markComputed_rows db periodId now playersAffected gamesProcessed
  rw [Db.Apart, rows, List.pairwise_map]
  apply apart.imp
  intro p q disjoint
  rwa [same, overlaps_comm, same, overlaps_comm]

theorem markComputed_looked {other : PeriodCall} (looked : db.Looked other) (periodId : Nat)
    (now : Int) (playersAffected gamesProcessed : Nat) :
    (db.markComputed periodId now playersAffected gamesProcessed).Looked other := by
  cases other with
  | check => trivial
  | insert call tau most =>
      obtain ⟨change, rows, same⟩ :=
        markComputed_rows db periodId now playersAffected gamesProcessed
      rw [Db.Looked, rows, List.length_map, ← List.map_take]
      refine ⟨looked.1, fun p listed => ?_⟩
      obtain ⟨before, old, rfl⟩ := List.mem_map.mp listed
      rw [same]
      exact looked.2 before old

theorem periodRequests_outline :
    Outline periodRequests (fun _ _ => True) (fun _ => True) Db.Looked where
  starts _ _ := trivial
  enters _ call _ arrives := by
    cases call with
    | check => trivial
    | insert => cases arrives
  acts _ _ _ _ _ := trivial
  continues db moving rest _ _ _ left := by
    cases moving with
    | check call =>
        change (db.advancePeriod (.check call)).2 = some rest at left
        change (db.advancePeriod (.check call)).1.Looked rest
        rw [Db.advancePeriod] at left ⊢
        cases passed : db.checkPeriod call with
        | error _ =>
            rw [passed] at left
            cases left
        | ok tau =>
            rw [passed] at left
            cases left
            have free := checkPeriod_free passed
            exact ⟨le_rfl, by rwa [List.take_length]⟩
    | insert call tau looked =>
        change (db.advancePeriod (.insert call tau looked)).2 = some rest at left
        rw [Db.advancePeriod] at left
        split at left <;> cases left
  stable _ moving _ _ _ _ looked := advance_looked moving looked
  events db computed t _ happened := by
    cases happened
    exact ⟨trivial, fun other looked => markComputed_looked looked _ _ _ _⟩

/-- No two periods of a category overlap in any state of a run exactly when no period that
overlaps is inserted between the check of a request and its own insert. -/
theorem periods_apart_iff {start after : Pool Db PeriodCall}
    {labels : List (Interleaving.Label PeriodCall PeriodComputed)}
    (initial : periodRequests.system.initial start)
    (ran : periodRequests.system.run start labels = some after) :
    periodRequests.system.Always (fun pool => pool.shared.Apart) start labels ↔
      System.Guarded (Advancing Db.NoneSince) periodRequests.system start labels := by
  apply periodRequests_outline.always_iff Db.Apart _ _ _ initial ran
  · exact fun _ apart => apart
  · intro s call _ looked apart
    cases call with
    | check call =>
        change (s.advancePeriod (.check call)).1.Apart ↔ True
        rw [Db.advancePeriod]
        cases s.checkPeriod call with
        | error _ => exact iff_of_true apart trivial
        | ok _ => exact iff_of_true apart trivial
    | insert call tau most => exact insert_apart_iff apart looked
  · intro s computed t _ apart happened
    cases happened
    exact markComputed_apart apart _ _ _ _

end Requests

section Examples

def january : CreateCall := ⟨true, 1, ⟨.otb, .classical⟩, 0, 31, none⟩

/-- It starts in January. -/
def winter : CreateCall := ⟨true, 2, ⟨.otb, .classical⟩, 15, 90, none⟩

def noPeriods : Pool Db PeriodCall := ⟨.empty, []⟩

def januaryFirst : List (Interleaving.Label PeriodCall PeriodComputed) :=
  [.arrive (.check january), .advance 0, .advance 0, .event ⟨1, 32, 10, 20⟩,
    .arrive (.check winter), .advance 0]

def bothChecked : List (Interleaving.Label PeriodCall PeriodComputed) :=
  [.arrive (.check january), .arrive (.check winter), .advance 0, .advance 0, .advance 0,
    .advance 0]

theorem noPeriods_initial : periodRequests.system.initial noPeriods :=
  ⟨List.Pairwise.nil, rfl⟩

theorem januaryFirst_apart :
    periodRequests.system.Always (fun pool => pool.shared.Apart) noPeriods januaryFirst := by
  have ran : (periodRequests.system.run noPeriods januaryFirst).map
      (fun pool => pool.shared.periods.map RatingPeriodRow.id) = some [1] := by decide +kernel
  obtain ⟨after, ran, _⟩ := Option.map_eq_some_iff.mp ran
  exact (periods_apart_iff noPeriods_initial ran).mpr (by decide +kernel)

theorem overlapping_periods_stored :
    ∃ after, periodRequests.system.run noPeriods bothChecked = some after ∧
      after.shared.periods.length = 2 ∧ ¬after.shared.Apart := by
  have ran : (periodRequests.system.run noPeriods bothChecked).map
      (fun pool => (pool.shared.periods.length,
        decide (pool.shared.periods.Pairwise fun p q => ¬ p.Overlaps q))) =
      some (2, false) := by decide +kernel
  obtain ⟨after, ran, found⟩ := Option.map_eq_some_iff.mp ran
  simp only [Prod.mk.injEq, decide_eq_false_iff_not] at found
  exact ⟨after, ran, found⟩

end Examples

end Farzin.Rating
