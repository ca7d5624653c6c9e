import Farzin.IdentityPasswords

set_option autoImplicit false

/- The last super-administrator. -/
namespace Farzin.Identity

open Transition (System)

/-- A global role of a super-administrator that has not expired. -/
def UserRole.isSuperAdmin (row : UserRole) (now : Int) : Bool :=
  decide (row.role = .superAdmin ∧ row.scope.scopeType = none ∧ ∀ t ∈ row.expiresAt, now < t)

def User.isActive (user : User) : Bool :=
  decide (user.status = .active ∧ user.deletedAt = none)

/-- An ACTIVE user who holds such a role. -/
def Store.isSuperAdmin (s : Store) (user : User) : Bool :=
  user.isActive && s.roles.any fun row => decide (row.userId = user.id) && row.isSuperAdmin s.now

def Store.superAdmins (s : Store) : Nat := s.users.countP s.isSuperAdmin

def Stage.takesAway : Stage → Bool
  | .revokeWrite _ _ => true
  | .statusWrite _ _ _ _ _ => true
  | _ => false

/-- A write of `revokeRole` or `setStatus` does not take the last super-administrator away. -/
def SuperAdminLeft (w : World) (label : Label) (v : World) : Prop :=
  match label with
  | .advance index _ => ∀ stage, w.inFlight[index]? = some stage → stage.takesAway = true →
      0 < w.store.superAdmins → 0 < v.store.superAdmins
  | _ => True

/-- When a write is about to take an unexpired global role from an ACTIVE super-administrator, or
to block one, the request has counted super-administrators, and the number it has counted is not
larger than the number of ACTIVE users who hold an unexpired global role at that moment. -/
def CountsRight (w : World) : Label → Prop
  | .advance index _ =>
      (∀ assignment count, w.inFlight[index]? = some (.revokeWrite assignment count) →
        assignment.isSuperAdmin w.store.now = true →
        (∃ user, w.store.findById assignment.userId = some user ∧ user.isActive = true) →
        count ≤ w.store.superAdmins) ∧
      ∀ actor userId isGlobal status count,
        w.inFlight[index]? = some (.statusWrite actor userId isGlobal status count) →
        status ≠ .active →
        (∃ user, w.store.findById userId = some user ∧ w.store.isSuperAdmin user = true) →
        isGlobal = true ∧ count ≤ w.store.superAdmins
  | _ => True

/-- A role row that was read is still the only one with its id. -/
structure Recognized (w : World) (assignment : UserRole) : Prop where
  old : assignment.id < w.number
  same : ∀ row ∈ w.store.roles, row.id = assignment.id → row = assignment

def Stage.Counted (w : World) : Stage → Prop
  | .revokeCount _ assignment => Recognized w assignment
  | .revokeWrite assignment count => Recognized w assignment ∧
      (assignment.role = .superAdmin → assignment.scope.scopeType = none → 2 ≤ count)
  | .statusWrite _ _ isGlobal status count => isGlobal = true → status ≠ .active → 2 ≤ count
  | _ => True

structure Admins (w : World) : Prop where
  users : Table.Unique User.id w.store.users
  roles : Table.Unique UserRole.id w.store.roles
  old : ∀ row ∈ w.store.roles, row.id < w.number
  counted : ∀ stage ∈ w.inFlight, stage.Counted w

section Counting

variable {s : Store}

theorem superAdmins_pos (unique : Table.Unique User.id s.users) :
    0 < s.superAdmins ↔
      ∃ userId user, s.findById userId = some user ∧ s.isSuperAdmin user = true := by
  unfold Store.superAdmins
  rw [List.countP_pos_iff]
  constructor
  · rintro ⟨user, inside, holds⟩
    exact ⟨user.id, user, unique.find inside, holds⟩
  · rintro ⟨userId, user, found, holds⟩
    exact ⟨user, Table.findUnique_mem found, holds⟩

/-- Of two super-administrators one is another user than any given one. -/
theorem other_superAdmin (unique : Table.Unique User.id s.users) (many : 2 ≤ s.superAdmins)
    (userId : Nat) :
    ∃ other user, other ≠ userId ∧ s.findById other = some user ∧ s.isSuperAdmin user = true := by
  by_contra none_other
  have one : s.superAdmins ≤ 1 := by
    apply unique.countP_le_one
    have only (user : User) (inside : user ∈ s.users) (holds : s.isSuperAdmin user = true) :
        user.id = userId := by
      by_contra apart
      exact none_other ⟨user.id, user, apart, unique.find inside, holds⟩
    intro a inside b inside' holds holds'
    rw [only a inside holds, only b inside' holds']
  omega

theorem isSuperAdmin_iff {user : User} :
    s.isSuperAdmin user = true ↔ user.isActive = true ∧
      ∃ row ∈ s.roles, row.userId = user.id ∧ row.isSuperAdmin s.now = true := by
  simp [Store.isSuperAdmin, List.any_eq_true]

end Counting

section Invariant

variable {crypto : Crypto} {s t : Store} {w v : World} {statement : Statement}

/-- Role rows are those of before, or the one that the step has drawn an id for. -/
theorem effect_roles {id : Nat} {draw : Draw} {stage : Stage}
    (written : stage.statement crypto s id draw = some statement)
    (effect : Effect crypto s statement t) {row : UserRole} (inside : row ∈ t.roles) :
    row ∈ s.roles ∨ row.id = id := by
  cases effect with
  | user | blocked | token | set | del => exact .inl inside
  | created free =>
      rcases List.mem_append.mp inside with old | new
      · exact .inl old
      · obtain ⟨-, drawn⟩ := statement_stage written
        rw [List.mem_singleton] at new
        subst new
        exact .inr drawn
  | granted free =>
      rcases List.mem_append.mp inside with old | new
      · exact .inl old
      · rw [List.mem_singleton] at new
        subst new
        exact .inr (statement_stage written)
  | revoked => exact .inl (List.mem_of_mem_filter inside)

theorem effect_rolesUnique {id : Nat} {draw : Draw} {stage : Stage}
    (written : stage.statement crypto s id draw = some statement)
    (effect : Effect crypto s statement t) (unique : Table.Unique UserRole.id s.roles)
    (old : ∀ row ∈ s.roles, row.id < id) : Table.Unique UserRole.id t.roles := by
  cases effect with
  | user | blocked | token | set | del => exact unique
  | @created _ assignmentId _ _ free =>
      obtain ⟨-, drawn⟩ := statement_stage written
      apply unique.insert
      rw [Table.findUnique_eq_none]
      intro row inside same
      have before := old row inside
      change row.id = assignmentId at same
      omega
  | granted free => exact unique.insert _ free
  | revoked => exact (List.Nodup.sublist (List.Sublist.map _ List.filter_sublist) unique)

theorem follows_counted (admins : Admins w) {stage other : Stage}
    (follows : Follows crypto w.store w.number stage other) (here : stage.Counted w) :
    other.Counted w := by
  cases follows with
  | @login _ password _ user _ =>
      rcases @afterTotp_cases crypto user password with same | same
      · rw [same]
        trivial
      · rw [same]
        trivial
  | @totp user password _ =>
      rcases @afterTotp_cases crypto user password with same | same
      · rw [same]
        trivial
      · rw [same]
        trivial
  | admits admitted =>
      obtain ⟨_, -, ⟨_, _, _, _, rfl⟩ | ⟨_, rfl⟩ | ⟨_, _, rfl⟩⟩ := admitAdmin_cases admitted
      · trivial
      · trivial
      · trivial
  | assignment found =>
      have inside := Table.findUnique_mem found
      exact ⟨admins.old _ inside,
        fun row there same => List.inj_on_of_nodup_map admins.roles there inside same⟩
  | revoke allowed => exact ⟨here, canRevoke_counted allowed⟩
  | status allowed =>
      intro isGlobal blocks
      subst isGlobal
      exact canChangeStatus_counted allowed blocks
  | _ => trivial

theorem Recognized.later {assignment : UserRole} (known : Recognized w assignment)
    (number : v.number = w.number + 1)
    (roles : ∀ row ∈ v.store.roles, row ∈ w.store.roles ∨ row.id = w.number) :
    Recognized v assignment := by
  refine ⟨by rw [number]; exact Nat.lt_succ_of_lt known.old, fun row inside same => ?_⟩
  rcases roles row inside with old | new
  · exact known.same row old same
  · have before := known.old
    omega

theorem Stage.Counted.later {stage : Stage} (counted : stage.Counted w)
    (number : v.number = w.number + 1)
    (roles : ∀ row ∈ v.store.roles, row ∈ w.store.roles ∨ row.id = w.number) :
    stage.Counted v := by
  cases stage with
  | revokeCount => exact Recognized.later counted number roles
  | revokeWrite => exact ⟨counted.1.later number roles, counted.2⟩
  | statusWrite => exact counted
  | _ => trivial

theorem step_admins (admins : Admins w) {label : Label} (taken : w.step crypto label = some v) :
    Admins v := by
  cases label with
  | arrive request =>
      cases taken
      refine ⟨admins.users, admins.roles, fun row inside => Nat.lt_succ_of_lt (admins.old row inside),
        fun stage inside => ?_⟩
      rcases List.mem_append.mp inside with old | new
      · exact (admins.counted stage old).later rfl fun _ there => .inl there
      · cases List.mem_singleton.mp new
        cases request <;> trivial
  | passTime ms =>
      cases taken
      refine ⟨admins.users, admins.roles, fun row inside => Nat.lt_succ_of_lt (admins.old row inside),
        fun stage inside => ?_⟩
      exact (admins.counted stage inside).later rfl fun _ there => .inl there
  | advance index draw =>
      obtain ⟨stage, advances⟩ := advance_taken taken
      have rows : (∀ row ∈ v.store.roles, row ∈ w.store.roles ∨ row.id = w.number) ∧
          Table.Unique User.id v.store.users ∧ Table.Unique UserRole.id v.store.roles := by
        rcases advance_store advances with same | ⟨_, written, done⟩
        · rw [same]
          exact ⟨fun _ there => .inl there, admins.users, admins.roles⟩
        · have effect := exec_effect done
          exact ⟨fun _ => effect_roles written effect, effect.unique admins.users,
            effect_rolesUnique written effect admins.roles admins.old⟩
      refine ⟨rows.2.1, rows.2.2, ?_, ?_⟩
      · intro row inside
        rw [advances.number]
        rcases rows.1 row inside with old | new
        · exact Nat.lt_succ_of_lt (admins.old row old)
        · omega
      · intro other inside
        have counted : other.Counted w := by
          rcases mem_inFlight advances inside with old | left
          · exact admins.counted other old
          · exact follows_counted admins (rest_follows left)
              (admins.counted stage (List.mem_of_getElem? advances.here))
        exact counted.later advances.number rows.1

/-- A super-administrator who is not the one concerned keeps the role when a row is deleted. -/
theorem revoke_left (admins : Admins w) {assignment : UserRole} {count : Nat} {next : Store}
    (effect : Effect crypto w.store (.revoke assignment.id) next)
    (known : Recognized w assignment)
    (two : assignment.role = .superAdmin → assignment.scope.scopeType = none → 2 ≤ count)
    (right : assignment.isSuperAdmin w.store.now = true →
      (∃ user, w.store.findById assignment.userId = some user ∧ user.isActive = true) →
      count ≤ w.store.superAdmins)
    (before : 0 < w.store.superAdmins) : 0 < next.superAdmins := by
  have unique := effect.unique admins.users
  have roles : next.roles = w.store.roles.filter fun row => row.id ≠ assignment.id := by
    cases effect with
    | user update => cases update
    | revoked => rfl
  have keep (userId : Nat) (user : User) (found : w.store.findById userId = some user)
      (holds : w.store.isSuperAdmin user = true)
      (apart : ¬ (assignment.userId = userId ∧ assignment.isSuperAdmin w.store.now = true)) :
      0 < next.superAdmins := by
    obtain ⟨active, row, inside, owner, grants⟩ := isSuperAdmin_iff.mp holds
    have after : next.findById userId = some user := effect.onUser found
    have other : row.id ≠ assignment.id := by
      intro same
      cases known.same row inside same
      exact apart ⟨owner.trans (findById_id found), grants⟩
    apply (superAdmins_pos unique).mpr
    refine ⟨userId, user, after, isSuperAdmin_iff.mpr ⟨active, row, ?_, owner, ?_⟩⟩
    · rw [roles]
      exact List.mem_filter.mpr ⟨inside, decide_eq_true other⟩
    · rw [effect.now]
      exact grants
  obtain ⟨userId, user, found, holds⟩ := (superAdmins_pos admins.users).mp before
  by_cases taken : assignment.isSuperAdmin w.store.now = true ∧
      ∃ user, w.store.findById assignment.userId = some user ∧ user.isActive = true
  · have superAdmin := taken.1
    simp only [UserRole.isSuperAdmin, decide_eq_true_eq] at superAdmin
    have many : 2 ≤ w.store.superAdmins :=
      Nat.le_trans (two superAdmin.1 superAdmin.2.1) (right taken.1 taken.2)
    obtain ⟨other, user, apart, found, holds⟩ :=
      other_superAdmin admins.users many assignment.userId
    exact keep other user found holds fun same => apart same.1.symm
  · apply keep userId user found holds
    rintro ⟨rfl, grants⟩
    exact taken ⟨grants, user, found, (isSuperAdmin_iff.mp holds).1⟩

theorem status_left (admins : Admins w) {userId count : Nat} {isGlobal : Bool}
    {status : ManageableStatus} {next : Store}
    (effect : Effect crypto w.store (.setStatus userId status) next)
    (two : isGlobal = true → status ≠ .active → 2 ≤ count)
    (right : status ≠ .active →
      (∃ user, w.store.findById userId = some user ∧ w.store.isSuperAdmin user = true) →
      isGlobal = true ∧ count ≤ w.store.superAdmins)
    (before : 0 < w.store.superAdmins) : 0 < next.superAdmins := by
  have unique := effect.unique admins.users
  have roles : next.roles = w.store.roles := by
    cases effect with
    | user | blocked => rfl
  have keep (other : Nat) (user : User) (found : w.store.findById other = some user)
      (holds : w.store.isSuperAdmin user = true) (apart : other ≠ userId ∨ status = .active) :
      0 < next.superAdmins := by
    have id_same := findById_id found
    obtain ⟨active, row, inside, owner, grants⟩ := isSuperAdmin_iff.mp holds
    have after := effect.onUser found
    apply (superAdmins_pos unique).mpr
    refine ⟨other, _, after, isSuperAdmin_iff.mpr ⟨?_, row, ?_, ?_, ?_⟩⟩
    · simp only [User.isActive, decide_eq_true_eq] at active ⊢
      by_cases here : user.id = userId
      · rcases apart with apart | rfl
        · exact absurd (id_same.symm.trans here) apart
        · simp [Statement.onUser, Statement.userUpdate, here, ManageableStatus.status, active.2]
      · simp [Statement.onUser, Statement.userUpdate, here, active]
    · rw [roles]
      exact inside
    · rw [owner]
      by_cases here : user.id = userId
      · simp [Statement.onUser, Statement.userUpdate, here]
      · simp [Statement.onUser, Statement.userUpdate, here]
    · rw [effect.now]
      exact grants
  obtain ⟨holder, user, found, holds⟩ := (superAdmins_pos admins.users).mp before
  by_cases taken : status ≠ .active ∧
      ∃ user, w.store.findById userId = some user ∧ w.store.isSuperAdmin user = true
  · obtain ⟨counted, bound⟩ := right taken.1 taken.2
    have many : 2 ≤ w.store.superAdmins := Nat.le_trans (two counted taken.1) bound
    obtain ⟨other, user, apart, found, holds⟩ := other_superAdmin admins.users many userId
    exact keep other user found holds (.inl apart)
  · apply keep holder user found holds
    by_cases reactivated : status = .active
    · exact .inr reactivated
    · left
      rintro rfl
      exact taken ⟨reactivated, user, found, holds⟩

theorem superAdmin_left (admins : Admins w) {label : Label} (right : CountsRight w label)
    (taken : w.step crypto label = some v) : SuperAdminLeft w label v := by
  cases label with
  | arrive | passTime => trivial
  | advance index draw =>
      intro stage here takes before
      obtain ⟨same, advances⟩ := advance_taken taken
      have equal := advances.here
      rw [here] at equal
      cases equal
      have counted := admins.counted stage (List.mem_of_getElem? here)
      rcases advance_store advances with kept | ⟨statement, written, done⟩
      · rw [kept]
        exact before
      · have effect := exec_effect done
        cases stage with
        | revokeWrite assignment count =>
            cases written
            exact revoke_left admins effect counted.1 counted.2 (right.1 assignment count here)
              before
        | statusWrite actor userId isGlobal status count =>
            cases written
            exact status_left admins effect counted
              (right.2 actor userId isGlobal status count here) before
        | _ => cases takes

theorem initial_admins (initial : w.Initial) : Admins w := by
  refine ⟨initial.usersUnique, initial.rolesUnique, initial.roles, ?_⟩
  rw [initial.inFlight]
  intro stage inside
  cases inside

end Invariant

/-- In a run whose counts of super-administrators are right when they are relied on, no
`revokeRole` and no `setStatus` takes the last one away. -/
theorem last_superAdmin_stays (crypto : Crypto) (start : World) (labels : List Label)
    (initial : start.Initial)
    (right : System.Guarded CountsRight (worlds crypto) start labels) :
    System.EveryStep (worlds crypto) SuperAdminLeft start labels := by
  apply System.everyStep_of_guarded Admins
  · intro s label t admins _ taken
    exact step_admins admins taken
  · intro s label t admins counts taken
    exact superAdmin_left admins counts taken
  · exact initial_admins initial
  · exact right

/-- A super-administrator for good, and one whose role has run out. -/
def expiredAdmin : World :=
  { twoUsers with store := { twoUsers.store with
      now := 1000
      roles := [superAdminRow 3 1 none, superAdminRow 4 2 (some 500)] } }

theorem expiredAdmin_initial : expiredAdmin.Initial where
  usersUnique := by decide
  users := by decide
  roles := by decide
  rolesUnique := by decide
  tokens := rfl
  inFlight := rfl
  closings := rfl
  lastSet := fun _ => rfl

/-- The only super-administrator takes the role from himself. -/
def revokeOwnRole : List Label :=
  [.arrive (.admin 1 (.revokeRole 3))] ++ steps 5 "first"

theorem revokeOwnRole_last :
    expiredAdmin.Initial ∧ expiredAdmin.store.superAdmins = 1 ∧
      ∃ w v, (worlds plainCrypto).run expiredAdmin revokeOwnRole = some w ∧
        w.store.superAdmins = 1 ∧ w.step plainCrypto (.advance 0 (drawing "first")) = some v ∧
        v.store.superAdmins = 0 ∧
        ¬ System.EveryStep (worlds plainCrypto) SuperAdminLeft expiredAdmin
          (revokeOwnRole ++ [.advance 0 (drawing "first")]) := by
  refine ⟨expiredAdmin_initial, by decide, _, _, rfl, by decide, rfl, by decide, ?_⟩
  intro every
  have left := every.last rfl rfl _ rfl rfl (by decide)
  revert left
  decide

/-- Two super-administrators, one of whom takes the role from the other. -/
def twoAdmins : World :=
  { twoUsers with store := { twoUsers.store with
      roles := [superAdminRow 3 1 none, superAdminRow 4 2 none] } }

theorem twoAdmins_initial : twoAdmins.Initial where
  usersUnique := by decide
  users := by decide
  roles := by decide
  rolesUnique := by decide
  tokens := rfl
  inFlight := rfl
  closings := rfl
  lastSet := fun _ => rfl

def revokeOtherRole : List Label :=
  [.arrive (.admin 1 (.revokeRole 4))] ++ steps 6 "first"

theorem revokeOtherRole_right :
    System.Guarded CountsRight (worlds plainCrypto) twoAdmins revokeOtherRole := by
  refine ⟨trivial, fun _ taken => ?_⟩
  cases taken
  iterate 5
    refine ⟨⟨fun _ _ here => (by cases here), fun _ _ _ _ _ here => (by cases here)⟩,
      fun _ taken => ?_⟩
    cases taken
  refine ⟨⟨fun assignment count here _ _ => ?_, fun _ _ _ _ _ here => (by cases here)⟩,
    fun _ _ => trivial⟩
  cases here
  decide

theorem revokeOtherRole_left :
    System.EveryStep (worlds plainCrypto) SuperAdminLeft twoAdmins revokeOtherRole :=
  last_superAdmin_stays plainCrypto twoAdmins revokeOtherRole twoAdmins_initial
    revokeOtherRole_right

end Farzin.Identity
