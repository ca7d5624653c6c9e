import Mathlib.Data.List.Basic

set_option autoImplicit false

/- Who may give or take which role (`identity/admin/role-grant.rules.ts`), and what the access
rules of `identity/rbac` say about the resource `User`. -/
namespace Farzin.Identity

inductive Role where
  | superAdmin
  | federationAdmin
  | regionAdmin
  | clubAdmin
  | arbiter
  | coach
  | schoolTeacher
  | player
  | parent
  | spectator
  deriving DecidableEq, Repr

inductive ScopeType where
  | federation
  | region
  | club
  | school
  | tournament
  deriving DecidableEq, Repr

structure ScopeRef where
  scopeType : Option ScopeType
  scopeId : Option Nat
  deriving DecidableEq, Repr

inductive GrantDenial where
  | roleNotDelegable
  | scopeRequired
  | scopeNotAllowed
  | scopeIdRequired
  | scopeIdNotAllowed
  | lastSuperAdmin
  | selfLockout
  deriving DecidableEq, Repr

/-- `none` is `ALLOW`. -/
abbrev Decision := Option GrantDenial

def allowedScopes : Role → List (Option ScopeType)
  | .superAdmin => [none]
  | .federationAdmin => [some .federation]
  | .regionAdmin => [some .region]
  | .clubAdmin => [some .club]
  | .schoolTeacher => [some .school]
  | .arbiter => [some .tournament, none]
  | .coach => [some .club, some .school, none]
  | .player => [none]
  | .parent => [none]
  | .spectator => [none]

def delegable : Role → List Role
  | .superAdmin =>
      [.superAdmin, .federationAdmin, .regionAdmin, .clubAdmin, .arbiter, .coach, .schoolTeacher,
        .player, .parent, .spectator]
  | .federationAdmin =>
      [.regionAdmin, .clubAdmin, .arbiter, .coach, .schoolTeacher, .player, .parent, .spectator]
  | .regionAdmin => [.clubAdmin, .arbiter, .coach, .player, .parent, .spectator]
  | .clubAdmin => [.coach, .player, .parent, .spectator]
  | .schoolTeacher => []
  | .arbiter => []
  | .coach => []
  | .player => []
  | .parent => []
  | .spectator => []

def canDelegate (actorRoles : List Role) (role : Role) : Bool :=
  actorRoles.any fun own => decide (role ∈ delegable own)

def canGrant (actorRoles : List Role) (role : Role) (scope : ScopeRef) : Decision :=
  if ¬ canDelegate actorRoles role then some .roleNotDelegable
  else if scope.scopeType ∉ allowedScopes role then
    if scope.scopeType = none then some .scopeRequired else some .scopeNotAllowed
  else if scope.scopeType ≠ none ∧ scope.scopeId = none then some .scopeIdRequired
  else if scope.scopeType = none ∧ scope.scopeId ≠ none then some .scopeIdNotAllowed
  else none

def isLastGlobalSuperAdmin (role : Role) (scope : ScopeRef) (globalSuperAdminCount : Nat) : Bool :=
  decide (role = .superAdmin ∧ scope.scopeType = none ∧ globalSuperAdminCount ≤ 1)

def canRevoke (actorRoles : List Role) (role : Role) (scope : ScopeRef)
    (globalSuperAdminCount : Nat) : Decision :=
  if ¬ canDelegate actorRoles role then some .roleNotDelegable
  else if isLastGlobalSuperAdmin role scope globalSuperAdminCount then some .lastSuperAdmin
  else none

inductive UserStatus where
  | pendingVerification
  | active
  | suspended
  | banned
  | deleted
  deriving DecidableEq, Repr

/-- The statuses an administrator can set. -/
inductive ManageableStatus where
  | active
  | suspended
  | banned
  deriving DecidableEq, Repr

def ManageableStatus.status : ManageableStatus → UserStatus
  | .active => .active
  | .suspended => .suspended
  | .banned => .banned

def canChangeStatus (actorUserId userId : Nat) (isGlobalSuperAdmin : Bool)
    (newStatus : ManageableStatus) (globalSuperAdminCount : Nat) : Decision :=
  if newStatus = .active then none
  else if actorUserId = userId then some .selfLockout
  else if isGlobalSuperAdmin ∧ globalSuperAdminCount ≤ 1 then some .lastSuperAdmin
  else none

/-- A role that is taken away is not the last of its kind that was counted. -/
theorem canRevoke_counted {actorRoles : List Role} {role : Role} {scope : ScopeRef} {count : Nat}
    (allowed : canRevoke actorRoles role scope count = none) (superAdmin : role = .superAdmin)
    (unscoped : scope.scopeType = none) : 2 ≤ count := by
  unfold canRevoke at allowed
  split at allowed
  · cases allowed
  · split at allowed
    · cases allowed
    · rename_i counted
      simp [isLastGlobalSuperAdmin, superAdmin, unscoped] at counted
      exact counted

theorem canChangeStatus_counted {actorUserId userId count : Nat} {newStatus : ManageableStatus}
    (allowed : canChangeStatus actorUserId userId true newStatus count = none)
    (blocks : newStatus ≠ .active) : 2 ≤ count := by
  unfold canChangeStatus at allowed
  rw [if_neg blocks] at allowed
  split at allowed
  · cases allowed
  · split at allowed
    · cases allowed
    · rename_i counted
      simp only [true_and] at counted
      omega

inductive Action where
  | create
  | read
  | update
  | delete
  deriving DecidableEq, Repr

/-- A role row as the cache holds it, where the column `scope_type` may hold any text. -/
structure RoleAssignmentView where
  role : Role
  scopeType : Option String
  scopeId : Option Nat
  deriving DecidableEq, Repr

/-- What a role reaches. -/
inductive Scope where
  | global
  | own
  | resource (scopeType : ScopeType) (scopeId : Nat)
  deriving DecidableEq, Repr

/-- The text of a scope type, as the column holds it. -/
def ScopeType.text : ScopeType → String
  | .federation => "FEDERATION"
  | .region => "REGION"
  | .club => "CLUB"
  | .school => "SCHOOL"
  | .tournament => "TOURNAMENT"

/-- The scope type of a text, if it has one. -/
def ScopeType.ofText : String → Option ScopeType
  | "FEDERATION" => some .federation
  | "REGION" => some .region
  | "CLUB" => some .club
  | "TOURNAMENT" => some .tournament
  | "SCHOOL" => some .school
  | _ => none

theorem ScopeType.ofText_text (scopeType : ScopeType) :
    ScopeType.ofText scopeType.text = some scopeType := by
  cases scopeType <;> rfl

theorem ScopeType.text_of_ofText {text : String} {scopeType : ScopeType}
    (named : ScopeType.ofText text = some scopeType) : text = scopeType.text := by
  unfold ScopeType.ofText at named
  split at named
  all_goals cases named
  all_goals rfl

/-- A missing scope is global for a super-administrator only, and one of no known type is `own`. -/
def toScope (role : Role) (scopeType : Option String) (scopeId : Option Nat) : Scope :=
  match scopeType, scopeId with
  | some text, some scopeId =>
      match ScopeType.ofText text with
      | some scopeType => .resource scopeType scopeId
      | none => .own
  | _, _ => if role = .superAdmin then .global else .own

structure RoleAssignment where
  role : Role
  scope : Scope
  deriving DecidableEq, Repr

def toDomainAssignments (rows : List RoleAssignmentView) : List RoleAssignment :=
  rows.map fun row => ⟨row.role, toScope row.role row.scopeType row.scopeId⟩

structure Actor where
  userId : Nat
  assignments : List RoleAssignment
  deriving DecidableEq, Repr

/-- `rolesOf`; the assignments of a request carry no time limit. -/
def rolesOf (actor : Actor) : List Role := actor.assignments.map RoleAssignment.role

/-- The row `User` of `POLICY`, with its mark for a scoped grant. -/
def userGrant : Role → Option (List Action × Bool)
  | .superAdmin => some ([.create, .read, .update, .delete], false)
  | .federationAdmin => some ([.read], false)
  | .regionAdmin => some ([.read], true)
  | .clubAdmin => some ([.read], true)
  | .player => some ([.read, .update], true)
  | .parent => some ([.read], true)
  | _ => none

/-- `hasCapability` for the resource `User`. -/
def hasCapability (actor : Actor) (action : Action) : Bool :=
  actor.assignments.any fun a =>
    match userGrant a.role with
    | some (actions, _) => decide (action ∈ actions)
    | none => false

/-- `RbacService.can` for the resource `User` as a whole, which only a global scope covers. -/
def can (actor : Actor) (action : Action) : Bool :=
  actor.assignments.any fun a =>
    match userGrant a.role with
    | some (actions, starred) =>
        decide (action ∈ actions) &&
          ((decide (action = .read) && !starred) || decide (a.scope = .global))
    | none => false

end Farzin.Identity
