import Farzin.RefreshTokens
import Farzin.RoleRules

set_option autoImplicit false

/- The rows of the identity module and its entries in Redis, with the reads and writes of
`identity/user.repository.ts`, `identity/admin/user-admin.repository.ts` and
`identity/token/refresh-token.repository.ts`.

A statement or a transaction is taken to happen at once. The database promises that for `rotate`,
which is SERIALIZABLE, against another `rotate` only: `revokeFamily` and `revokeAllForUser` are bulk
updates under READ COMMITTED, and a token that a rotation inserts while such an update runs can
escape it. That race is not in the model. -/
namespace Farzin.Identity

structure User where
  id : Nat
  email : Option String
  passwordHash : Option String
  status : UserStatus
  emailVerified : Bool
  totpEnabled : Bool
  totpSecret : Option String
  totpBackupCodes : List String
  deletedAt : Option Int
  deriving DecidableEq, Repr

structure UserRole where
  id : Nat
  userId : Nat
  role : Role
  scope : ScopeRef
  expiresAt : Option Int
  deriving DecidableEq, Repr

def UserRole.view (row : UserRole) : RoleAssignmentView :=
  ⟨row.role, row.scope.scopeType.map ScopeType.text, row.scope.scopeId⟩

inductive RedisKey where
  | emailverify (token : String)
  | pwdreset (token : String)
  | authzRoles (userId : Nat)
  | totpPending (userId : Nat)
  | totpUsed (userId : Nat) (code : String)
  deriving DecidableEq, Repr

inductive RedisValue where
  | user (userId : Nat)
  | assignments (rows : List RoleAssignmentView)
  | secret (text : String)
  | mark
  deriving DecidableEq, Repr

structure RedisEntry where
  value : RedisValue
  expiresAt : Int
  deriving DecidableEq, Repr

structure Store where
  now : Int
  users : List User
  roles : List UserRole
  tokens : TokenTable
  redis : RedisKey → Option RedisEntry

/-- The calls into argon2, node:crypto and otplib. -/
structure Crypto where
  hash : (password salt : String) → String
  verify : (hash password : String) → Bool
  needsRehash : String → Bool
  sha256 : String → String
  checkTotp : (code encryptedSecret : String) → Int → Bool

/-- A password hash is good for the password that it was made of, and for no other. -/
structure Crypto.Lawful (crypto : Crypto) : Prop where
  hash : ∀ password salt, crypto.verify (crypto.hash password salt) password = true
  exact : ∀ hash password other, crypto.verify hash password = true →
    crypto.verify hash other = true → password = other

namespace Store

variable (s : Store)

def findById (userId : Nat) : Option User := Table.findUnique User.id s.users userId

def findByEmail (email : String) : Option User :=
  Table.findUnique User.email s.users (some email)

/-- `findActiveAssignments`. -/
def findActiveAssignments (userId : Nat) : List RoleAssignmentView :=
  (s.roles.filter fun row => decide (row.userId = userId ∧ ∀ t ∈ row.expiresAt, s.now < t)).map
    UserRole.view

/-- `UserAdminRepository.findById`, which leaves out deleted users. -/
def findManaged (userId : Nat) : Option User :=
  (s.findById userId).filter fun user => user.deletedAt = none

def rolesOfUser (userId : Nat) : List UserRole := s.roles.filter fun row => row.userId = userId

def findAssignment (assignmentId : Nat) : Option UserRole :=
  Table.findUnique UserRole.id s.roles assignmentId

/-- A row that `countGlobalSuperAdmins` counts, whether it has expired or not. -/
def countsAsSuperAdmin (row : UserRole) : Bool :=
  decide (row.role = .superAdmin ∧ row.scope.scopeType = none ∧
    ∃ user ∈ s.findById row.userId, user.deletedAt = none ∧ user.status = .active)

def countGlobalSuperAdmins : Nat := s.roles.countP s.countsAsSuperAdmin

def get (key : RedisKey) : Option RedisValue :=
  match s.redis key with
  | none => none
  | some entry => if s.now < entry.expiresAt then some entry.value else none

/-- An update of one user; `none` when there is no such user. -/
def updateUser (userId : Nat) (change : User → User) : Option Store :=
  match s.findById userId with
  | none => none
  | some _ => some { s with users := Table.updateWhere (fun u => u.id = userId) change s.users }

end Store

/-- What a request writes at one await. -/
inductive Statement where
  | createWithPlayer (userId assignmentId : Nat) (email passwordHash : String)
  | updatePasswordHash (userId : Nat) (passwordHash : String)
  | changePassword (userId : Nat) (passwordHash : String)
  | markEmailVerified (userId : Nat)
  | enableTotp (userId : Nat) (secret : String) (hashedBackupCodes : List String)
  | disableTotp (userId : Nat)
  | replaceBackupCodes (userId : Nat) (remaining : List String)
  | setStatus (userId : Nat) (status : ManageableStatus)
  | grant (row : UserRole)
  | revoke (assignmentId : Nat)
  | token (call : TokenCall)
  | set (key : RedisKey) (value : RedisValue) (ttlMs : Int)
  | del (key : RedisKey)
  deriving DecidableEq, Repr

def newUser (userId : Nat) (email passwordHash : String) : User where
  id := userId
  email := some email
  passwordHash := some passwordHash
  status := .pendingVerification
  emailVerified := false
  totpEnabled := false
  totpSecret := none
  totpBackupCodes := []
  deletedAt := none

section Execution

variable (crypto : Crypto)

namespace Store

/-- `createWithPlayer`; the keys on the id and the e-mail address are unique. -/
def createWithPlayer (s : Store) (userId assignmentId : Nat) (email passwordHash : String) :
    Option Store :=
  if (s.findById userId).isSome ∨ (s.findByEmail email).isSome ∨
      (s.findAssignment assignmentId).isSome then none
  else some { s with
    users := s.users ++ [newUser userId email passwordHash]
    roles := s.roles ++ [⟨assignmentId, userId, .player, ⟨none, none⟩, none⟩] }

/-- `UserAdminRepository.setStatus`, which ends all sessions of a user who is not active. -/
def setStatus (s : Store) (userId : Nat) (status : ManageableStatus) : Option Store := do
  let next ← s.updateUser userId fun u => { u with status := status.status }
  if status = .active then return next
  else return { next with tokens := next.tokens.revokeAllForUser userId next.now }

/-- `grant`. The unique key of a role row lets rows with a missing scope in twice. -/
def grant (s : Store) (row : UserRole) : Option Store :=
  let duplicate (r : UserRole) : Bool :=
    decide (r.userId = row.userId ∧ r.role = row.role ∧ r.scope = row.scope ∧
      row.scope.scopeType ≠ none ∧ row.scope.scopeId ≠ none)
  if (s.findAssignment row.id).isSome ∨ s.roles.any duplicate then none
  else some { s with roles := s.roles ++ [row] }

def revoke (s : Store) (assignmentId : Nat) : Option Store :=
  match s.findAssignment assignmentId with
  | none => none
  | some _ => some { s with roles := s.roles.filter fun row => row.id ≠ assignmentId }

/-- The state after a statement, or `none` when it fails. -/
def exec (s : Store) : Statement → Option Store
  | .createWithPlayer userId assignmentId email passwordHash =>
      s.createWithPlayer userId assignmentId email passwordHash
  | .updatePasswordHash userId passwordHash =>
      s.updateUser userId fun u => { u with passwordHash := some passwordHash }
  | .changePassword userId passwordHash =>
      s.updateUser userId fun u => { u with passwordHash := some passwordHash }
  | .markEmailVerified userId =>
      s.updateUser userId fun u => { u with emailVerified := true, status := .active }
  | .enableTotp userId secret codes =>
      s.updateUser userId fun u =>
        { u with totpSecret := some secret, totpEnabled := true, totpBackupCodes := codes }
  | .disableTotp userId =>
      s.updateUser userId fun u =>
        { u with totpSecret := none, totpEnabled := false, totpBackupCodes := [] }
  | .replaceBackupCodes userId remaining =>
      s.updateUser userId fun u => { u with totpBackupCodes := remaining }
  | .setStatus userId status => s.setStatus userId status
  | .grant row => s.grant row
  | .revoke assignmentId => s.revoke assignmentId
  | .token call => (s.tokens.run crypto.sha256 s.now call).map fun tokens => { s with tokens }
  | .set key value ttlMs =>
      some { s with redis := Function.update s.redis key (some ⟨value, s.now + ttlMs⟩) }
  | .del key => some { s with redis := Function.update s.redis key none }

end Store

end Execution

section Effects

variable {crypto : Crypto} {s t : Store}

theorem updateUser_some {userId : Nat} {change : User → User}
    (updated : s.updateUser userId change = some t) :
    (s.findById userId).isSome ∧
      t = { s with users := Table.updateWhere (fun u => u.id = userId) change s.users } := by
  unfold Store.updateUser at updated
  cases found : s.findById userId with
  | none =>
      rw [found] at updated
      cases updated
  | some user =>
      rw [found] at updated
      cases updated
      exact ⟨rfl, rfl⟩

theorem updateUser_find {userId : Nat} {change : User → User} (keeps : ∀ u, (change u).id = u.id)
    (updated : s.updateUser userId change = some t) (other : Nat) :
    t.findById other =
      (s.findById other).map fun u => if u.id = userId then change u else u := by
  obtain ⟨-, rfl⟩ := updateUser_some updated
  unfold Store.findById
  rw [Table.findUnique_updateWhere _ _ _ keeps]
  simp only [decide_eq_true_eq]

theorem createWithPlayer_some {userId assignmentId : Nat} {email passwordHash : String}
    (created : s.createWithPlayer userId assignmentId email passwordHash = some t) :
    s.findById userId = none ∧
      t = { s with
        users := s.users ++ [newUser userId email passwordHash]
        roles := s.roles ++ [⟨assignmentId, userId, .player, ⟨none, none⟩, none⟩] } := by
  unfold Store.createWithPlayer at created
  split at created
  · cases created
  · rename_i free
    cases created
    simp only [not_or, Option.not_isSome_iff_eq_none] at free
    exact ⟨free.1, rfl⟩

theorem setStatus_some {userId : Nat} {status : ManageableStatus}
    (changed : s.setStatus userId status = some t) :
    ∃ next, s.updateUser userId (fun u => { u with status := status.status }) = some next ∧
      t = if status = .active then next
        else { next with tokens := next.tokens.revokeAllForUser userId next.now } := by
  unfold Store.setStatus at changed
  simp only [Option.bind_eq_bind, Option.bind_eq_some_iff] at changed
  obtain ⟨next, updated, rest⟩ := changed
  refine ⟨next, updated, ?_⟩
  split at rest
  · rename_i reactivated
    cases rest
    rw [if_pos reactivated]
  · rename_i blocked
    cases rest
    rw [if_neg blocked]

end Effects

end Farzin.Identity
