import Farzin.IdentityEffects

set_option autoImplicit false

/- Who lifts the suspension of an account. -/
namespace Farzin.Identity

open Transition (System)

def UserStatus.isBlocked (status : UserStatus) : Bool :=
  decide (status = .suspended ∨ status = .banned)

def Store.Blocked (s : Store) (userId : Nat) : Prop :=
  ∃ user, s.findById userId = some user ∧ user.status.isBlocked = true

def Store.IsActive (s : Store) (userId : Nat) : Prop :=
  ∃ user, s.findById userId = some user ∧ user.status = .active

/-- The step is the write of `setStatus(ACTIVE)` by an administrator who may change users. -/
def Reactivates (w : World) (label : Label) (userId : Nat) : Prop :=
  ∃ index draw actor isGlobal count, label = .advance index draw ∧
    w.inFlight[index]? = some (.statusWrite actor userId isGlobal .active count) ∧
    Admitted actor ∧ canChangeStatus actor.userId userId isGlobal .active count = none

/-- A step makes a blocked user ACTIVE only as the administrator's decision. -/
def LiftedByAdmin (w : World) (label : Label) (v : World) : Prop :=
  ∀ userId, w.store.Blocked userId → v.store.IsActive userId → Reactivates w label userId

/-- `verifyEmail` does not mark a user as verified who is suspended or banned at that moment. -/
def VerifiesUnblocked (w : World) : Label → Prop
  | .advance index _ => ∀ userId, w.inFlight[index]? = some (.verifyMark userId) →
      ¬ w.store.Blocked userId
  | _ => True

/-- An administrator whose request is in flight has been let in. -/
def Stage.Authorized : Stage → Prop
  | .grantFind actor _ _ _ _ => Admitted actor
  | .revokeFind actor _ => Admitted actor
  | .revokeCount actor _ => Admitted actor
  | .statusFind actor _ _ => Admitted actor
  | .statusCount actor _ _ _ => Admitted actor
  | .statusWrite actor userId isGlobal status count =>
      Admitted actor ∧ canChangeStatus actor.userId userId isGlobal status count = none
  | _ => True

def World.Authorized (w : World) : Prop := ∀ stage ∈ w.inFlight, stage.Authorized

section Invariant

variable {crypto : Crypto} {w v : World}

theorem follows_authorized {s : Store} {id : Nat} {stage other : Stage}
    (follows : Follows crypto s id stage other) (authorized : stage.Authorized) :
    other.Authorized := by
  cases follows with
  | @login _ password _ user _ =>
      rcases @afterTotp_cases crypto user password with same | same
      · rw [same]
        trivial
      · rw [same]
        trivial
  | @totp user password _ =>
      rcases @afterTotp_cases crypto user password with same | same
      · rw [same]
        trivial
      · rw [same]
        trivial
  | admits admitted =>
      obtain ⟨actor, inside, ⟨_, _, _, _, rfl⟩ | ⟨_, rfl⟩ | ⟨_, _, rfl⟩⟩ :=
        admitAdmin_cases admitted
      · exact inside
      · exact inside
      · exact inside
  | assignment => exact authorized
  | target => exact authorized
  | status allowed => exact ⟨authorized, allowed⟩
  | _ => trivial

theorem step_authorized {label : Label} (authorized : w.Authorized)
    (taken : w.step crypto label = some v) : v.Authorized := by
  cases label with
  | arrive request =>
      cases taken
      intro stage inside
      rcases List.mem_append.mp inside with old | new
      · exact authorized stage old
      · cases List.mem_singleton.mp new
        cases request <;> trivial
  | passTime ms =>
      cases taken
      exact authorized
  | advance index draw =>
      obtain ⟨stage, advances⟩ := advance_taken taken
      intro other inside
      rcases mem_inFlight advances inside with old | left
      · exact authorized other old
      · exact follows_authorized (rest_follows left)
          (authorized stage (List.mem_of_getElem? advances.here))

/-- Two statements make a user ACTIVE. -/
theorem onUser_active {statement : Statement} {user : User}
    (blocked : user.status.isBlocked = true) (active : (statement.onUser user).status = .active) :
    statement = .markEmailVerified user.id ∨ statement = .setStatus user.id .active := by
  rcases onUser_status statement user with same | ⟨verified, -⟩ | ⟨status, changed, same⟩
  · rw [same] at active
    rw [active] at blocked
    cases blocked
  · exact .inl verified
  · rw [same] at active
    cases status with
    | active => exact .inr changed
    | suspended | banned => cases active

/-- A step that makes a blocked user ACTIVE writes one of the two statements. -/
theorem lifted_cases {index : Nat} {draw : Draw} {stage : Stage}
    (advances : Advances crypto w v stage index draw) {userId : Nat}
    (blocked : w.store.Blocked userId) (active : v.store.IsActive userId) :
    stage = .verifyMark userId ∨
      ∃ actor isGlobal count, stage = .statusWrite actor userId isGlobal .active count := by
  obtain ⟨user, found, status⟩ := blocked
  obtain ⟨after, found', active⟩ := active
  rcases advance_store advances with kept | ⟨statement, written, done⟩
  · rw [kept, found] at found'
    cases found'
    rw [active] at status
    cases status
  · rw [(exec_effect done).onUser found] at found'
    cases found'
    have origin := statement_stage written
    rw [← findById_id found]
    rcases onUser_active status active with rfl | rfl
    · exact .inl origin
    · exact .inr origin

/-- A step lifts a suspension as it should exactly if it does not verify a blocked user. -/
theorem lifted_iff {label : Label} (authorized : w.Authorized)
    (taken : w.step crypto label = some v) :
    LiftedByAdmin w label v ↔ VerifiesUnblocked w label := by
  constructor
  · intro lifted
    cases label with
    | arrive | passTime => trivial
    | advance index draw =>
        intro userId here blocked
        obtain ⟨stage, advances⟩ := advance_taken taken
        have same := advances.here
        rw [here] at same
        cases same
        have active : v.store.IsActive userId := by
          obtain ⟨user, found, status⟩ := blocked
          rw [advances.store]
          refine ⟨(Statement.markEmailVerified userId).onUser user, ?_, ?_⟩
          · cases done : w.store.exec crypto (.markEmailVerified userId) with
            | none => simp [Store.exec, Store.updateUser, found] at done
            | some next =>
                simp only [Stage.advance, Stage.statement, done]
                exact (exec_effect done).onUser found
          · simp [Statement.onUser, Statement.userUpdate, findById_id found]
        obtain ⟨_, _, _, _, _, same, there, -⟩ := lifted userId blocked active
        cases same
        rw [here] at there
        cases there
  · intro unblocked userId blocked active
    cases label with
    | arrive request =>
        cases taken
        obtain ⟨user, found, status⟩ := blocked
        obtain ⟨after, found', active⟩ := active
        rw [found] at found'
        cases found'
        rw [active] at status
        cases status
    | passTime ms =>
        cases taken
        obtain ⟨user, found, status⟩ := blocked
        obtain ⟨after, found', active⟩ := active
        change w.store.findById userId = some after at found'
        rw [found] at found'
        cases found'
        rw [active] at status
        cases status
    | advance index draw =>
        obtain ⟨stage, advances⟩ := advance_taken taken
        rcases lifted_cases advances blocked active with rfl | ⟨actor, isGlobal, count, rfl⟩
        · exact absurd blocked (unblocked userId advances.here)
        · have allowed := authorized _ (List.mem_of_getElem? advances.here)
          exact ⟨index, draw, actor, isGlobal, count, rfl, advances.here, allowed.1, allowed.2⟩

end Invariant

/-- In a run, suspensions are lifted by administrators only, exactly if no step of `verifyEmail`
marks a user as verified who is suspended or banned. -/
theorem suspension_lifted_by_admin (crypto : Crypto) (start w : World) (labels : List Label)
    (initial : start.Initial) (ran : (worlds crypto).run start labels = some w) :
    System.EveryStep (worlds crypto) LiftedByAdmin start labels ↔
      System.Guarded VerifiesUnblocked (worlds crypto) start labels := by
  apply System.everyStep_iff_guarded World.Authorized
  · intro s label t authorized taken
    exact step_authorized authorized taken
  · intro s label t authorized taken
    exact lifted_iff authorized taken
  · exact ran
  · intro stage inside
    rw [initial.inFlight] at inside
    cases inside

/-- A new user is banned, and then follows the link of the verification mail. -/
def bannedThenVerified : List Label :=
  [.arrive (.register "vali@farzin.uz" "rook")] ++ steps 3 "first" ++ steps 1 "second" ++
    [.arrive (.admin 1 (.setStatus 12 .banned))] ++ steps 7 "third" ++
    [.arrive (.verifyEmail "first")] ++ steps 2 "fourth"

theorem bannedThenVerified_active :
    twoUsers.Initial ∧ ∃ w v, (worlds plainCrypto).run twoUsers bannedThenVerified = some w ∧
      w.step plainCrypto (.advance 0 (drawing "fourth")) = some v ∧
      w.store.Blocked 12 ∧ v.store.IsActive 12 ∧
      ¬ System.EveryStep (worlds plainCrypto) LiftedByAdmin twoUsers
        (bannedThenVerified ++ [.advance 0 (drawing "fourth")]) := by
  refine ⟨twoUsers_initial, _, _, rfl, rfl, ⟨_, rfl, rfl⟩, ⟨_, rfl, rfl⟩, ?_⟩
  intro every
  have lifted := every.last rfl rfl
  obtain ⟨_, _, _, _, _, same, here, -⟩ := lifted 12 ⟨_, rfl, rfl⟩ ⟨_, rfl, rfl⟩
  cases same
  cases here

/-- A new user follows the link of the verification mail. -/
def registeredThenVerified : List Label :=
  [.arrive (.register "vali@farzin.uz" "rook")] ++ steps 3 "first" ++ steps 1 "second" ++
    [.arrive (.verifyEmail "first")] ++ steps 3 "third"

theorem registeredThenVerified_unblocked :
    System.Guarded VerifiesUnblocked (worlds plainCrypto) twoUsers registeredThenVerified := by
  refine ⟨trivial, fun _ taken => ?_⟩
  cases taken
  iterate 4
    refine ⟨fun _ here => (by cases here), fun _ taken => ?_⟩
    cases taken
  refine ⟨trivial, fun _ taken => ?_⟩
  cases taken
  iterate 2
    refine ⟨fun _ here => (by cases here), fun _ taken => ?_⟩
    cases taken
  refine ⟨fun _ here => ?_, fun _ _ => trivial⟩
  cases here
  rintro ⟨user, found, blocked⟩
  cases found
  cases blocked

theorem registeredThenVerified_lifted :
    System.EveryStep (worlds plainCrypto) LiftedByAdmin twoUsers registeredThenVerified :=
  (suspension_lifted_by_admin plainCrypto twoUsers _ registeredThenVerified twoUsers_initial rfl).mpr
    registeredThenVerified_unblocked

end Farzin.Identity
