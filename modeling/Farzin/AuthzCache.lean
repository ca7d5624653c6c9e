import Farzin.IdentityEffects
import Farzin.Interleaving
import Mathlib.Algebra.Order.Ring.Int

set_option autoImplicit false

/- The cache in front of the role assignments of one user (`identity/authz/authz.service.ts`)
while administrators change them (`grantRole` and `revokeRole` of
`identity/admin/user-admin.service.ts`). What a call returns is compared with the role table as
it was before and after each change. -/
namespace Farzin.Identity

open Interleaving Transition

/-- When `getAssignments` was called: after which change that had returned, and at what time. -/
structure Asked where
  since : Nat
  time : Int
  deriving DecidableEq, Repr

/-- Rows as they were read from the database. -/
structure Reading where
  rows : List RoleAssignmentView
  version : Nat
  time : Int
  deriving DecidableEq, Repr

structure Answer where
  asked : Asked
  rows : List RoleAssignmentView
  deriving DecidableEq, Repr

inductive Change where
  | grant (row : UserRole)
  | revoke (assignment : UserRole)
  deriving DecidableEq, Repr

def Change.statement : Change → Statement
  | .grant row => .grant row
  | .revoke assignment => .revoke assignment.id

/-- Each constructor is the wait before an await: three of `getAssignments`, two of a change. -/
inductive AuthzCall where
  | getCached (asked : Asked)
  | loadRows (asked : Asked)
  | storeRows (asked : Asked) (reading : Reading)
  | write (change : Change)
  | invalidate (version : Nat)
  deriving DecidableEq, Repr

/-- Changes are numbered from 1; `past` holds the role tables before each of them. All fields
but the store are bookkeeping. -/
structure AuthzState where
  store : Store
  past : List (List UserRole)
  returned : Nat
  cachedFrom : Reading
  answers : List Answer

namespace AuthzState

variable (s : AuthzState)

/-- How many changes there have been. -/
def version : Nat := s.past.length

/-- The role table after a change; number 0 is the table at the start. -/
def tableAfter (version : Nat) : List UserRole := (s.past ++ [s.store.roles])[version]?.getD []

def ask : Asked := ⟨s.returned, s.store.now⟩

def answer (asked : Asked) (rows : List RoleAssignmentView) : AuthzState :=
  { s with answers := s.answers ++ [⟨asked, rows⟩] }

end AuthzState

/-- The assignments of a user that have not expired at a time, in a role table. -/
def activeAt (roles : List UserRole) (userId : Nat) (time : Int) : List RoleAssignmentView :=
  (roles.filter fun row => decide (row.userId = userId ∧ ∀ t ∈ row.expiresAt, time < t)).map
    UserRole.view

section Program

variable (crypto : Crypto) (userId : Nat)

/-- A change arrives when all its checks have let it through. -/
def AuthzState.arrives (s : AuthzState) : AuthzCall → Bool
  | .getCached asked => decide (asked = s.ask)
  | .write (.grant row) => decide (row.userId = userId)
  | .write (.revoke assignment) =>
      decide (assignment.userId = userId ∧ s.store.findAssignment assignment.id = some assignment)
  | _ => false

def AuthzState.advance (s : AuthzState) : AuthzCall → AuthzState × Option AuthzCall
  | .getCached asked =>
      match s.store.get (.authzRoles userId) with
      | some (.assignments rows) => (s.answer asked rows, none)
      | _ => (s, some (.loadRows asked))
  | .loadRows asked =>
      let reading := ⟨s.store.findActiveAssignments userId, s.version, s.store.now⟩
      (s, some (.storeRows asked reading))
  | .storeRows asked reading =>
      match s.store.exec crypto
          (.set (.authzRoles userId) (.assignments reading.rows) authzCacheTtlMs) with
      | none => (s, none)
      | some store => ({ s with store, cachedFrom := reading }.answer asked reading.rows, none)
  | .write change =>
      match s.store.exec crypto change.statement with
      | none => (s, none)
      | some store =>
          ({ s with store, past := s.past ++ [s.store.roles] }, some (.invalidate (s.version + 1)))
  | .invalidate version =>
      match s.store.exec crypto (.del (.authzRoles userId)) with
      | none => (s, none)
      | some store => ({ s with store, returned := max s.returned version }, none)

/-- Any roles, and nothing cached. -/
structure AuthzState.Initial (s : AuthzState) : Prop where
  past : s.past = []
  returned : s.returned = 0
  cache : s.store.redis (.authzRoles userId) = none
  answers : s.answers = []

def authzCache : Program AuthzState AuthzCall Nat where
  initial := AuthzState.Initial userId
  arrives := AuthzState.arrives userId
  advance := AuthzState.advance crypto userId
  event s ms := some { s with store := { s.store with now := s.store.now + ms } }

/-- The answer is what the database held for the user at some time since the call, after every
change that had returned by then. -/
def Answer.UpToDate (s : AuthzState) (answer : Answer) : Prop :=
  ∃ version time, answer.asked.since ≤ version ∧ version ≤ s.version ∧
    answer.asked.time ≤ time ∧ answer.rows = activeAt (s.tableAfter version) userId time

def AuthzState.Coherent (s : AuthzState) : Prop :=
  ∀ answer ∈ s.answers, answer.UpToDate userId s

/-- No assignment that is cached has expired by the time of the call. -/
def AuthzState.Unexpired (s : AuthzState) (time : Int) : Prop :=
  ∀ row ∈ s.tableAfter s.cachedFrom.version, row.userId = userId →
    ∀ expiry ∈ row.expiresAt, s.cachedFrom.time < expiry → time < expiry

/-- Rows go into the cache only if no change has returned since they were read, and come out of
it only if none of them has expired before the call. -/
def Timely (s : AuthzState) : AuthzCall → Prop
  | .getCached asked => (s.store.get (.authzRoles userId)).isSome → s.Unexpired userId asked.time
  | .storeRows _ reading => s.returned ≤ reading.version
  | _ => True

instance (s : AuthzState) : (call : AuthzCall) → Decidable (Timely userId s call)
  | .getCached asked =>
      inferInstanceAs (Decidable ((s.store.get (.authzRoles userId)).isSome = true →
        ∀ row ∈ s.tableAfter s.cachedFrom.version, row.userId = userId →
          ∀ expiry ∈ row.expiresAt, s.cachedFrom.time < expiry → asked.time < expiry))
  | .loadRows _ => .isTrue trivial
  | .storeRows _ reading => inferInstanceAs (Decidable (s.returned ≤ reading.version))
  | .write _ => .isTrue trivial
  | .invalidate _ => .isTrue trivial

end Program

section Invariant

variable {crypto : Crypto} {userId : Nat} {s t u : AuthzState}

/-- The first state is an earlier one: time and changes have only been added to. -/
structure AuthzState.Before (s t : AuthzState) : Prop where
  now : s.store.now ≤ t.store.now
  returned : s.returned ≤ t.returned
  version : s.version ≤ t.version
  tables : ∀ version ≤ s.version, t.tableAfter version = s.tableAfter version

/-- A reading is what the table held, then and there. -/
structure Reading.True (reading : Reading) (userId : Nat) (s : AuthzState) : Prop where
  version : reading.version ≤ s.version
  time : reading.time ≤ s.store.now
  rows : reading.rows = activeAt (s.tableAfter reading.version) userId reading.time

theorem Reading.True.later {reading : Reading} (read : reading.True userId s)
    (before : s.Before t) : reading.True userId t where
  version := read.version.trans before.version
  time := read.time.trans before.now
  rows := by rw [before.tables _ read.version, read.rows]

theorem Answer.UpToDate.later {answer : Answer} (good : answer.UpToDate userId s)
    (before : s.Before t) : answer.UpToDate userId t := by
  obtain ⟨version, time, since, known, asked, rows⟩ := good
  refine ⟨version, time, since, known.trans before.version, asked, ?_⟩
  rw [before.tables version known, rows]

theorem tableAfter_now (s : AuthzState) : s.tableAfter s.version = s.store.roles := by
  simp [AuthzState.tableAfter, AuthzState.version]

/-- A change touches neither the cache nor the clock. -/
theorem change_exec {store next : Store} {change : Change}
    (done : store.exec crypto change.statement = some next) :
    next.now = store.now ∧ next.redis = store.redis := by
  have effect := exec_effect done
  cases change with
  | grant row =>
      cases effect with
      | user update _ _ => cases update
      | granted => exact ⟨rfl, rfl⟩
  | revoke assignment =>
      cases effect with
      | user update _ _ => cases update
      | revoked => exact ⟨rfl, rfl⟩

/-- What one await of a call does. -/
inductive Awaited (crypto : Crypto) (userId : Nat) (s : AuthzState) :
    AuthzCall → AuthzState → Option AuthzCall → Prop where
  | hit {asked : Asked} {rows : List RoleAssignmentView}
      (found : s.store.get (.authzRoles userId) = some (.assignments rows)) :
      Awaited crypto userId s (.getCached asked) (s.answer asked rows) none
  | missed {asked : Asked} : Awaited crypto userId s (.getCached asked) s (some (.loadRows asked))
  | loaded {asked : Asked} :
      Awaited crypto userId s (.loadRows asked) s (some (.storeRows asked
        ⟨activeAt s.store.roles userId s.store.now, s.version, s.store.now⟩))
  | stored {asked : Asked} {reading : Reading} :
      Awaited crypto userId s (.storeRows asked reading)
        (AuthzState.answer { s with
          store := { s.store with
            redis := Function.update s.store.redis (.authzRoles userId)
              (some ⟨.assignments reading.rows, s.store.now + authzCacheTtlMs⟩) }
          cachedFrom := reading } asked reading.rows) none
  | refused {change : Change} : Awaited crypto userId s (.write change) s none
  | written {change : Change} {store : Store}
      (done : s.store.exec crypto change.statement = some store) :
      Awaited crypto userId s (.write change)
        { s with store, past := s.past ++ [s.store.roles] } (some (.invalidate (s.version + 1)))
  | invalidated {version : Nat} :
      Awaited crypto userId s (.invalidate version)
        { s with
          store := { s.store with redis := Function.update s.store.redis (.authzRoles userId) none }
          returned := max s.returned version } none

theorem advance_awaited (s : AuthzState) (call : AuthzCall) :
    Awaited crypto userId s call (s.advance crypto userId call).1
      (s.advance crypto userId call).2 := by
  cases call with
  | getCached asked =>
      simp only [AuthzState.advance]
      split
      · rename_i rows found
        exact .hit found
      · exact .missed
  | loadRows asked => exact .loaded
  | storeRows asked reading => exact .stored
  | write change =>
      simp only [AuthzState.advance]
      cases done : s.store.exec crypto change.statement with
      | none => exact .refused
      | some store => exact .written done
  | invalidate version => exact .invalidated

theorem Awaited.before {call : AuthzCall} {rest : Option AuthzCall}
    (awaited : Awaited crypto userId s call t rest) : s.Before t := by
  cases awaited with
  | hit | missed | loaded | stored | refused =>
      exact ⟨le_refl _, le_refl _, le_refl _, fun _ _ => rfl⟩
  | written done =>
      refine ⟨(change_exec done).1.ge, le_refl _, ?_, fun version known => ?_⟩
      · simp [AuthzState.version]
      · have inside : version < (s.past ++ [s.store.roles]).length := by
          rw [List.length_append, List.length_singleton]
          exact Nat.lt_succ_of_le known
        simp only [AuthzState.tableAfter]
        rw [List.getElem?_append_left inside]
  | invalidated => exact ⟨le_refl _, le_max_left _ _, le_refl _, fun _ _ => rfl⟩

/-- Whatever is cached was read from the table, after every change that has returned. -/
structure AuthzState.Sound (userId : Nat) (s : AuthzState) : Prop where
  returned : s.returned ≤ s.version
  entry : ∀ entry, s.store.redis (.authzRoles userId) = some entry →
    entry.value = .assignments s.cachedFrom.rows ∧ s.returned ≤ s.cachedFrom.version ∧
      s.cachedFrom.True userId s
  answers : s.Coherent userId

/-- What a call in flight knows. -/
def AuthzCall.Sound (userId : Nat) (s : AuthzState) : AuthzCall → Prop
  | .getCached asked => asked.since ≤ s.returned ∧ asked.time ≤ s.store.now
  | .loadRows asked => asked.since ≤ s.returned ∧ asked.time ≤ s.store.now
  | .storeRows asked reading =>
      asked.since ≤ reading.version ∧ asked.time ≤ reading.time ∧ reading.True userId s
  | .write _ => True
  | .invalidate version => version ≤ s.version

theorem AuthzCall.Sound.later {call : AuthzCall} (sound : call.Sound userId s)
    (before : s.Before t) : call.Sound userId t := by
  cases call with
  | getCached | loadRows => exact ⟨sound.1.trans before.returned, sound.2.trans before.now⟩
  | storeRows asked reading => exact ⟨sound.1, sound.2.1, sound.2.2.later before⟩
  | write change => trivial
  | invalidate version => exact Nat.le_trans sound before.version

theorem coherent_answer {asked : Asked} {rows : List RoleAssignmentView}
    (coherent : s.Coherent userId) (good : Answer.UpToDate userId s ⟨asked, rows⟩) :
    (s.answer asked rows).Coherent userId := by
  intro answer listed
  rcases List.mem_append.mp listed with old | new
  · exact coherent answer old
  · rw [List.mem_singleton.mp new]
    exact good

/-- Rows of which none has expired since are still the rows. -/
theorem activeAt_later {roles : List UserRole} {time later : Int} (order : time ≤ later)
    (unexpired : ∀ row ∈ roles, row.userId = userId →
      ∀ expiry ∈ row.expiresAt, time < expiry → later < expiry) :
    activeAt roles userId later = activeAt roles userId time := by
  unfold activeAt
  congr 1
  apply List.filter_congr
  intro row listed
  apply decide_eq_decide.mpr
  constructor
  · intro ⟨own, active⟩
    exact ⟨own, fun expiry known => lt_of_le_of_lt order (active expiry known)⟩
  · intro ⟨own, active⟩
    exact ⟨own, fun expiry known => unexpired row listed own expiry known (active expiry known)⟩

theorem hit_upToDate {asked : Asked} {rows : List RoleAssignmentView} (sound : s.Sound userId)
    (known : asked.since ≤ s.returned)
    (found : s.store.get (.authzRoles userId) = some (.assignments rows))
    (unexpired : s.Unexpired userId asked.time) : Answer.UpToDate userId s ⟨asked, rows⟩ := by
  obtain ⟨entry, present, value⟩ : ∃ entry, s.store.redis (.authzRoles userId) = some entry ∧
      entry.value = .assignments rows := by
    unfold Store.get at found
    split at found
    · cases found
    · rename_i entry present
      split at found
      · exact ⟨entry, present, Option.some.inj found⟩
      · cases found
  obtain ⟨same, newer, read⟩ := sound.entry entry present
  have cached : rows = s.cachedFrom.rows := by
    rw [value] at same
    exact RedisValue.assignments.inj same
  refine ⟨s.cachedFrom.version, max asked.time s.cachedFrom.time, known.trans newer, read.version,
    le_max_left _ _, ?_⟩
  change rows = _
  rw [cached, read.rows]
  symm
  apply activeAt_later (le_max_right _ _)
  intro row listed own expiry has active
  exact max_lt (unexpired row listed own expiry has active) active

theorem coherent_later (coherent : s.Coherent userId) (before : s.Before t)
    (same : t.answers = s.answers) : t.Coherent userId := by
  intro answer listed
  rw [same] at listed
  exact (coherent answer listed).later before

/-- A step that leaves the cache alone keeps it sound. -/
theorem AuthzState.Sound.keep (sound : s.Sound userId) (before : s.Before t)
    (redis : t.store.redis = s.store.redis) (cachedFrom : t.cachedFrom = s.cachedFrom)
    (returned : t.returned = s.returned) (answers : t.Coherent userId) : t.Sound userId where
  returned := by
    rw [returned]
    exact sound.returned.trans before.version
  entry entry present := by
    rw [redis] at present
    obtain ⟨value, newer, read⟩ := sound.entry entry present
    rw [cachedFrom, returned]
    exact ⟨value, newer, read.later before⟩
  answers := answers

/-- A timely await keeps the cache sound, and the rest of its call knows what it needs. -/
theorem timely_sound {call : AuthzCall} {rest : Option AuthzCall} (sound : s.Sound userId)
    (own : call.Sound userId s) (timely : Timely userId s call)
    (awaited : Awaited crypto userId s call t rest) :
    t.Sound userId ∧ ∀ left, rest = some left → left.Sound userId t := by
  have before := awaited.before
  cases awaited with
  | hit found =>
      have unexpired := timely (by rw [found]; rfl)
      have good := hit_upToDate sound own.1 found unexpired
      have coherent := coherent_answer sound.answers good
      exact ⟨sound.keep before rfl rfl rfl coherent, fun left none => by cases none⟩
  | missed =>
      refine ⟨sound, fun left same => ?_⟩
      cases same
      exact own
  | loaded =>
      refine ⟨sound, fun left same => ?_⟩
      cases same
      refine ⟨own.1.trans sound.returned, own.2, le_refl _, le_refl _, ?_⟩
      rw [tableAfter_now]
  | @stored asked reading =>
      obtain ⟨since, late, read⟩ := own
      refine ⟨⟨sound.returned, ?_, ?_⟩, fun left none => by cases none⟩
      · intro entry present
        change Function.update s.store.redis _ _ _ = some entry at present
        rw [Function.update_self] at present
        cases present
        exact ⟨rfl, timely, read.later before⟩
      · have read := read.later before
        apply coherent_answer
        · exact coherent_later sound.answers ⟨before.now, before.returned, before.version, before.tables⟩ rfl
        · exact ⟨reading.version, reading.time, since, read.version, late, read.rows⟩
  | refused => exact ⟨sound, fun left none => by cases none⟩
  | written done =>
      have coherent := coherent_later sound.answers before rfl
      refine ⟨sound.keep before (change_exec done).2 rfl rfl coherent, fun left next => ?_⟩
      cases next
      show s.version + 1 ≤ AuthzState.version _
      simp [AuthzState.version]
  | invalidated =>
      have coherent := coherent_later sound.answers before rfl
      refine ⟨⟨max_le sound.returned own, ?_, coherent⟩, fun left none => by cases none⟩
      intro entry present
      change Function.update s.store.redis _ _ _ = some entry at present
      rw [Function.update_self] at present
      cases present

theorem authzCache_outline : Outline (authzCache crypto userId) (Timely userId)
    (AuthzState.Sound userId) (fun s call => call.Sound userId s) where
  starts s initial := by
    refine ⟨?_, ?_, ?_⟩
    · rw [initial.returned]
      exact Nat.zero_le _
    · intro entry present
      rw [initial.cache] at present
      cases present
    · intro answer listed
      rw [initial.answers] at listed
      cases listed
  enters s call sound arrives := by
    cases call with
    | getCached asked =>
        rw [of_decide_eq_true arrives]
        exact ⟨le_refl _, le_refl _⟩
    | write change => trivial
    | loadRows | storeRows | invalidate => cases arrives
  acts s call sound own timely := (timely_sound sound own timely (advance_awaited s call)).1
  continues s call rest sound own timely left :=
    (timely_sound sound own timely (advance_awaited s call)).2 rest left
  stable s call other _ _ _ known := known.later (advance_awaited s call).before
  events s ms t sound happened := by
    cases happened
    have before : s.Before { s with store := { s.store with now := s.store.now + ms } } := by
      refine ⟨?_, le_refl _, le_refl _, fun _ _ => rfl⟩
      show s.store.now ≤ s.store.now + ms
      omega
    have coherent := coherent_later sound.answers before rfl
    exact ⟨sound.keep before rfl rfl rfl coherent, fun other known => known.later before⟩

end Invariant

/-- In a run in which rows are put into the cache before any change since their reading returns,
and taken from it before one of them expires, every answer is up to date: it reflects all changes
that had returned before the call, and no assignment in it had expired then. -/
theorem authz_cache_coherent (crypto : Crypto) (userId : Nat) (pool : Pool AuthzState AuthzCall)
    (reached : (authzCache crypto userId).system.ReachableWhile (Advancing (Timely userId)) pool) :
    pool.shared.Coherent userId :=
  (authzCache_outline.reached reached).1.answers

section Runs

/-- User 1 with one assignment, which may expire. -/
def oneAssignment (expiresAt : Option Int) : AuthzState where
  store := { twoUsers.store with roles := [superAdminRow 3 1 expiresAt] }
  past := []
  returned := 0
  cachedFrom := ⟨[], 0, 0⟩
  answers := []

theorem oneAssignment_initial (expiresAt : Option Int) :
    (authzCache plainCrypto 1).system.initial ⟨oneAssignment expiresAt, []⟩ :=
  ⟨⟨rfl, rfl, rfl, rfl⟩, rfl⟩

/-- A call reads the rows, the assignment is revoked, and only then the rows are stored. -/
def storedAfterRevoke : List (Interleaving.Label AuthzCall Nat) :=
  [.arrive (.getCached ⟨0, 0⟩), .advance 0, .advance 0,
    .arrive (.write (.revoke (superAdminRow 3 1 none))), .advance 1, .advance 1, .advance 0,
    .arrive (.getCached ⟨1, 0⟩), .advance 0]

/-- An assignment expires after ten seconds and is still in the cache after twenty. -/
def cachedPastExpiry : List (Interleaving.Label AuthzCall Nat) :=
  [.arrive (.getCached ⟨0, 0⟩), .advance 0, .advance 0, .advance 0, .event 20000,
    .arrive (.getCached ⟨0, 20000⟩), .advance 0]

def superAdminView : RoleAssignmentView := ⟨.superAdmin, none, none⟩

theorem authz_cache_stale :
    (∃ pool, (authzCache plainCrypto 1).system.run ⟨oneAssignment none, []⟩ storedAfterRevoke =
        some pool ∧ ¬ pool.shared.Coherent 1) ∧
      ∃ pool, (authzCache plainCrypto 1).system.run ⟨oneAssignment (some 10000), []⟩
          cachedPastExpiry = some pool ∧ ¬ pool.shared.Coherent 1 := by
  refine ⟨⟨_, rfl, fun coherent => ?_⟩, ⟨_, rfl, fun coherent => ?_⟩⟩
  · have late := coherent ⟨⟨1, 0⟩, [superAdminView]⟩ (.tail _ (.head _))
    obtain ⟨version, time, since, known, -, rows⟩ := late
    change 1 ≤ version at since
    change version ≤ 1 at known
    have one : version = 1 := by omega
    rw [one] at rows
    cases rows
  · have late := coherent ⟨⟨0, 20000⟩, [superAdminView]⟩ (.tail _ (.head _))
    obtain ⟨version, time, -, known, asked, rows⟩ := late
    change version ≤ 0 at known
    change 20000 ≤ time at asked
    have start : version = 0 := by omega
    have expired : ¬ time < 10000 := by omega
    rw [start] at rows
    change [superAdminView] = activeAt [superAdminRow 3 1 (some 10000)] 1 time at rows
    simp [activeAt, superAdminRow, expired] at rows

/-- The rows are stored, the assignment is revoked, and the next call reads again. -/
def storedBeforeRevoke : List (Interleaving.Label AuthzCall Nat) :=
  [.arrive (.getCached ⟨0, 0⟩), .advance 0, .advance 0, .advance 0,
    .arrive (.getCached ⟨0, 0⟩), .advance 0,
    .arrive (.write (.revoke (superAdminRow 3 1 none))), .advance 0, .advance 0,
    .arrive (.getCached ⟨1, 0⟩), .advance 0, .advance 0, .advance 0]

theorem storedBeforeRevoke_timely : System.Guarded (Advancing (Timely 1))
    (authzCache plainCrypto 1).system ⟨oneAssignment none, []⟩ storedBeforeRevoke := by
  decide

theorem storedBeforeRevoke_coherent :
    ∃ pool, (authzCache plainCrypto 1).system.run ⟨oneAssignment none, []⟩ storedBeforeRevoke =
      some pool ∧ pool.shared.Coherent 1 :=
  ⟨_, rfl, authz_cache_coherent plainCrypto 1 _ ⟨_, oneAssignment_initial none,
    System.run_steps _ _ storedBeforeRevoke rfl storedBeforeRevoke_timely⟩⟩

end Runs

end Farzin.Identity
