import Farzin.IdentityStore

set_option autoImplicit false

/- The requests of the identity module cut at their awaits, so that any number of them can run
at once: `auth/auth.service.ts`, `mfa/totp.service.ts`, `admin/user-admin.service.ts` and the
guard of `rbac.port.ts`. The rate limiter only ever refuses a request and is left out. -/
namespace Farzin.Identity

inductive AdminRequest where
  | grantRole (userId : Nat) (role : Role) (scope : ScopeRef) (expiresAt : Option Int)
  | revokeRole (assignmentId : Nat)
  | setStatus (userId : Nat) (status : ManageableStatus)
  deriving DecidableEq, Repr

/-- A request as its controller passes it on; an e-mail address is in lower case and trimmed. -/
inductive Request where
  | register (email password : String)
  | login (email password : String) (totpCode : Option String)
  | refresh (rawToken : String)
  | logout (rawToken : String)
  | logoutAll (userId : Nat)
  | verifyEmail (token : String)
  | requestPasswordReset (email : String)
  | resetPassword (token newPassword : String)
  | changePassword (userId : Nat) (currentPassword newPassword : String)
  | enrollTotp (userId : Nat)
  | activateTotp (userId : Nat) (code : String)
  | disableTotp (userId : Nat) (code : String)
  | admin (actorUserId : Nat) (request : AdminRequest)
  deriving DecidableEq, Repr

/-- Where a request stands: each constructor is the wait before its next await. `arrivedAt` is
the number of the step in which the request arrived, which is bookkeeping. -/
inductive Stage where
  | registerFind (email password : String)
  | registerCreate (email password : String)
  | registerMail (userId : Nat)
  | issuing (userId : Nat)
  | loginFind (email password : String) (totpCode : Option String)
  | loginTotp (user : User) (password code : String)
  | loginRehash (user : User) (password : String)
  | refreshing (rawToken : String)
  | logoutFind (rawToken : String)
  | logoutRevoke (familyId : Nat)
  | endingSessions (userId arrivedAt : Nat)
  | verifyGet (token : String)
  | verifyDel (token : String) (userId : Nat)
  | verifyMark (userId : Nat)
  | forgotFind (email : String)
  | forgotSet (userId : Nat)
  | resetTake (token newPassword : String) (arrivedAt : Nat)
  | resetFind (userId : Nat) (newPassword : String) (arrivedAt : Nat)
  | changeFind (userId : Nat) (currentPassword newPassword : String) (arrivedAt : Nat)
  | settingPassword (userId : Nat) (newPassword : String) (arrivedAt : Nat)
  | enrollFind (userId : Nat)
  | enrollSet (userId : Nat)
  | activateGet (userId : Nat) (code : String)
  | activateEnable (userId : Nat) (secret : String)
  | activateDel (userId : Nat)
  | disableFind (userId : Nat) (code : String)
  | disableVerify (user : User) (code : String)
  | disableWrite (userId : Nat)
  | guardCache (actorUserId : Nat) (request : AdminRequest)
  | guardLoad (actorUserId : Nat) (request : AdminRequest)
  | guardStore (actorUserId : Nat) (request : AdminRequest) (rows : List RoleAssignmentView)
  | grantFind (actor : Actor) (userId : Nat) (role : Role) (scope : ScopeRef)
      (expiresAt : Option Int)
  | grantWrite (userId : Nat) (role : Role) (scope : ScopeRef) (expiresAt : Option Int)
  | revokeFind (actor : Actor) (assignmentId : Nat)
  | revokeCount (actor : Actor) (assignment : UserRole)
  | revokeWrite (assignment : UserRole) (count : Nat)
  | statusFind (actor : Actor) (userId : Nat) (status : ManageableStatus)
  | statusCount (actor : Actor) (userId : Nat) (isGlobalSuperAdmin : Bool)
      (status : ManageableStatus)
  | statusWrite (actor : Actor) (userId : Nat) (isGlobalSuperAdmin : Bool)
      (status : ManageableStatus) (count : Nat)
  | invalidating (userId : Nat)
  deriving DecidableEq, Repr

/-- Where a request begins. -/
def Request.start (arrivedAt : Nat) : Request → Stage
  | .register email password => .registerFind email password
  | .login email password totpCode => .loginFind email password totpCode
  | .refresh rawToken => .refreshing rawToken
  | .logout rawToken => .logoutFind rawToken
  | .logoutAll userId => .endingSessions userId arrivedAt
  | .verifyEmail token => .verifyGet token
  | .requestPasswordReset email => .forgotFind email
  | .resetPassword token newPassword => .resetTake token newPassword arrivedAt
  | .changePassword userId currentPassword newPassword =>
      .changeFind userId currentPassword newPassword arrivedAt
  | .enrollTotp userId => .enrollFind userId
  | .activateTotp userId code => .activateGet userId code
  | .disableTotp userId code => .disableFind userId code
  | .admin actorUserId request => .guardCache actorUserId request

/-- The random texts that a step may draw. -/
structure Draw where
  token : String
  salt : String
  backupCodes : List String
  deriving DecidableEq, Repr

def emailVerifyTtlMs : Int := 24 * 60 * 60 * 1000
def passwordResetTtlMs : Int := 60 * 60 * 1000
def authzCacheTtlMs : Int := 60 * 1000
def totpPendingTtlMs : Int := 10 * 60 * 1000
def totpUsedTtlMs : Int := 90 * 1000

section Service

variable (crypto : Crypto)

/-- A status with which `login` refuses. -/
def loginDisabled (user : User) : Bool :=
  decide (user.status = .suspended ∨ user.status = .banned ∨ user.status = .deleted ∨
    user.deletedAt ≠ none)

/-- What is left of `login` after the second factor. -/
def afterTotp (user : User) (password : String) : Stage :=
  if ∃ hash ∈ user.passwordHash, crypto.needsRehash hash then .loginRehash user password
  else .issuing user.id

/-- `login` with the user in hand. -/
def checkLogin (user : User) (password : String) (totpCode : Option String) : Option Stage :=
  match user.passwordHash with
  | none => none
  | some hash =>
      if ¬ crypto.verify hash password then none
      else if loginDisabled user then none
      else if user.totpEnabled then totpCode.map fun code => .loginTotp user password code
      else some (afterTotp crypto user password)

/-- `TotpService.verify`: the write that accepts a code, or `none`. A six-digit code counts once,
and a backup code is taken from the list that was read. -/
def verifyTotp (s : Store) (user : User) (code : String) : Option Statement :=
  match user.totpEnabled, user.totpSecret with
  | true, some secret =>
      let sixDigits := code.toList.length = 6 ∧ code.toList.all Char.isDigit
      if sixDigits ∧ crypto.checkTotp code secret s.now then
        if (s.get (.totpUsed user.id code)).isSome then none
        else some (.set (.totpUsed user.id code) .mark totpUsedTtlMs)
      else
        let codeHash := crypto.sha256 (code.map Char.toLower)
        if codeHash ∈ user.totpBackupCodes then
          some (.replaceBackupCodes user.id (user.totpBackupCodes.filter fun c => c ≠ codeHash))
        else none
  | _, _ => none

/-- `RbacGuard` and `assertGlobal` with the assignments in hand. -/
def admitAdmin (actorUserId : Nat) (rows : List RoleAssignmentView) (request : AdminRequest) :
    Option Stage :=
  let actor : Actor := ⟨actorUserId, toDomainAssignments rows⟩
  if hasCapability actor .update ∧ can actor .update then
    match request with
    | .grantRole userId role scope expiresAt => some (.grantFind actor userId role scope expiresAt)
    | .revokeRole assignmentId => some (.revokeFind actor assignmentId)
    | .setStatus userId status => some (.statusFind actor userId status)
  else none

def checkGrant (s : Store) (actor : Actor) (userId : Nat) (role : Role) (scope : ScopeRef)
    (expiresAt : Option Int) : Option Stage :=
  match s.findManaged userId with
  | none => none
  | some _ =>
      let duplicate (r : UserRole) : Bool := decide (r.role = role ∧ r.scope = scope)
      if canGrant (rolesOf actor) role scope ≠ none then none
      else if (s.rolesOfUser userId).any duplicate then none
      else some (.grantWrite userId role scope expiresAt)

/-- The statement of the next await, if it writes; `id` is the id that the step may draw. -/
def Stage.statement (s : Store) (id : Nat) (draw : Draw) : Stage → Option Statement
  | .registerCreate email password =>
      some (.createWithPlayer id id email (crypto.hash password draw.salt))
  | .registerMail userId =>
      some (.set (.emailverify draw.token) (.user userId) emailVerifyTtlMs)
  | .issuing userId => some (.token (.issueNewFamily userId id draw.token))
  | .loginTotp user _ code => verifyTotp crypto s user code
  | .loginRehash user password =>
      some (.updatePasswordHash user.id (crypto.hash password draw.salt))
  | .refreshing rawToken => some (.token (.rotate rawToken draw.token))
  | .logoutRevoke familyId => some (.token (.revokeFamily familyId))
  | .endingSessions userId _ => some (.token (.revokeAllForUser userId))
  | .verifyDel token _ => some (.del (.emailverify token))
  | .verifyMark userId => some (.markEmailVerified userId)
  | .forgotSet userId => some (.set (.pwdreset draw.token) (.user userId) passwordResetTtlMs)
  | .resetTake token _ _ => if token = "" then none else some (.del (.pwdreset token))
  | .settingPassword userId newPassword _ =>
      some (.changePassword userId (crypto.hash newPassword draw.salt))
  | .enrollSet userId => some (.set (.totpPending userId) (.secret draw.token) totpPendingTtlMs)
  | .activateEnable userId secret =>
      some (.enableTotp userId secret (draw.backupCodes.map crypto.sha256))
  | .activateDel userId => some (.del (.totpPending userId))
  | .disableVerify user code => verifyTotp crypto s user code
  | .disableWrite userId => some (.disableTotp userId)
  | .guardStore actorUserId _ rows =>
      some (.set (.authzRoles actorUserId) (.assignments rows) authzCacheTtlMs)
  | .grantWrite userId role scope expiresAt => some (.grant ⟨id, userId, role, scope, expiresAt⟩)
  | .revokeWrite assignment _ => some (.revoke assignment.id)
  | .statusWrite _ userId _ status _ => some (.setStatus userId status)
  | .invalidating userId => some (.del (.authzRoles userId))
  | _ => none

/-- What is left of a request after its next await, if that does not fail. -/
def Stage.rest (s : Store) (id : Nat) : Stage → Option Stage
  | .registerFind email password =>
      if (s.findByEmail email).isSome then none else some (.registerCreate email password)
  | .registerCreate _ _ => some (.registerMail id)
  | .registerMail userId => some (.issuing userId)
  | .issuing _ => none
  | .loginFind email password totpCode =>
      (s.findByEmail email).bind fun user => checkLogin crypto user password totpCode
  | .loginTotp user password code =>
      (verifyTotp crypto s user code).map fun _ => afterTotp crypto user password
  | .loginRehash user _ => some (.issuing user.id)
  | .refreshing _ => none
  | .logoutFind rawToken =>
      (s.tokens.findToken (crypto.sha256 rawToken)).map fun stored => .logoutRevoke stored.familyId
  | .logoutRevoke _ => none
  | .endingSessions _ _ => none
  | .verifyGet token =>
      if token = "" then none
      else match s.get (.emailverify token) with
        | some (.user userId) => some (.verifyDel token userId)
        | _ => none
  | .verifyDel _ userId => some (.verifyMark userId)
  | .verifyMark _ => none
  | .forgotFind email =>
      match s.findByEmail email with
      | none => none
      | some user => if user.deletedAt ≠ none then none else some (.forgotSet user.id)
  | .forgotSet _ => none
  | .resetTake token newPassword arrivedAt =>
      if token = "" then none
      else match s.get (.pwdreset token) with
        | some (.user userId) => some (.resetFind userId newPassword arrivedAt)
        | _ => none
  | .resetFind userId newPassword arrivedAt =>
      match s.findById userId with
      | none => none
      | some user =>
          if user.deletedAt ≠ none then none
          else some (.settingPassword userId newPassword arrivedAt)
  | .changeFind userId currentPassword newPassword arrivedAt =>
      match (s.findById userId).bind User.passwordHash with
      | none => none
      | some hash =>
          if ¬ crypto.verify hash currentPassword then none
          else some (.settingPassword userId newPassword arrivedAt)
  | .settingPassword userId _ arrivedAt => some (.endingSessions userId arrivedAt)
  | .enrollFind userId => (s.findById userId).map fun _ => .enrollSet userId
  | .enrollSet _ => none
  | .activateGet userId code =>
      match s.get (.totpPending userId) with
      | some (.secret secret) =>
          if crypto.checkTotp code secret s.now then some (.activateEnable userId secret) else none
      | _ => none
  | .activateEnable userId _ => some (.activateDel userId)
  | .activateDel _ => none
  | .disableFind userId code => (s.findById userId).map fun user => .disableVerify user code
  | .disableVerify user code => (verifyTotp crypto s user code).map fun _ => .disableWrite user.id
  | .disableWrite _ => none
  | .guardCache actorUserId request =>
      match s.get (.authzRoles actorUserId) with
      | some (.assignments rows) => admitAdmin actorUserId rows request
      | _ => some (.guardLoad actorUserId request)
  | .guardLoad actorUserId request =>
      some (.guardStore actorUserId request (s.findActiveAssignments actorUserId))
  | .guardStore actorUserId request rows => admitAdmin actorUserId rows request
  | .grantFind actor userId role scope expiresAt => checkGrant s actor userId role scope expiresAt
  | .grantWrite userId _ _ _ => some (.invalidating userId)
  | .revokeFind actor assignmentId =>
      (s.findAssignment assignmentId).map fun assignment => .revokeCount actor assignment
  | .revokeCount actor assignment =>
      let count := s.countGlobalSuperAdmins
      if canRevoke (rolesOf actor) assignment.role assignment.scope count ≠ none then none
      else some (.revokeWrite assignment count)
  | .revokeWrite assignment _ => some (.invalidating assignment.userId)
  | .statusFind actor userId status =>
      (s.findManaged userId).map fun _ =>
        .statusCount actor userId
          ((s.rolesOfUser userId).any fun r => r.role = .superAdmin ∧ r.scope.scopeType = none)
          status
  | .statusCount actor userId isGlobalSuperAdmin status =>
      let count := s.countGlobalSuperAdmins
      if canChangeStatus actor.userId userId isGlobalSuperAdmin status count ≠ none then none
      else some (.statusWrite actor userId isGlobalSuperAdmin status count)
  | .statusWrite _ userId _ _ _ => some (.invalidating userId)
  | .invalidating _ => none

/-- The store and what is left of a request after its next await. A statement that fails ends
the request. -/
def Stage.advance (s : Store) (id : Nat) (draw : Draw) (stage : Stage) : Store × Option Stage :=
  match stage.statement crypto s id draw with
  | none => (s, stage.rest crypto s id)
  | some statement =>
      match s.exec crypto statement with
      | none => (s, none)
      | some next => (next, stage.rest crypto s id)

/-- A request that has ended the sessions of a user, with the number of the step in which it
arrived. -/
structure Closing where
  userId : Nat
  arrivedAt : Nat
  deriving DecidableEq, Repr

/-- The state with all requests in flight. A step is numbered, and an id that it draws is its
number, so that ids are new and tell the order in which they were drawn. `closings` and the
password last set for a user are bookkeeping. -/
structure World where
  store : Store
  inFlight : List Stage
  number : Nat
  closings : List Closing
  lastSet : Nat → Option String

inductive Label where
  | arrive (request : Request)
  | advance (index : Nat) (draw : Draw)
  | passTime (ms : Nat)
  deriving DecidableEq, Repr

/-- What is noted down when the statement of a stage has succeeded. -/
def World.note (w : World) : Stage → World
  | .endingSessions userId arrivedAt =>
      { w with closings := w.closings ++ [⟨userId, arrivedAt⟩] }
  | .settingPassword userId newPassword _ =>
      { w with lastSet := Function.update w.lastSet userId (some newPassword) }
  | _ => w

/-- The statement of a stage, if there is one, succeeds. -/
def Stage.succeeds (s : Store) (id : Nat) (draw : Draw) (stage : Stage) : Bool :=
  match stage.statement crypto s id draw with
  | none => true
  | some statement => (s.exec crypto statement).isSome

def World.step (w : World) : Label → Option World
  | .arrive request =>
      some { w with inFlight := w.inFlight ++ [request.start w.number], number := w.number + 1 }
  | .advance index draw =>
      match w.inFlight[index]? with
      | none => none
      | some stage =>
          let (store, rest) := stage.advance crypto w.store w.number draw
          let noted := if stage.succeeds crypto w.store w.number draw then w.note stage else w
          some { noted with
            store
            inFlight := w.inFlight.eraseIdx index ++ rest.toList
            number := w.number + 1 }
  | .passTime ms =>
      some { w with store := { w.store with now := w.store.now + ms }, number := w.number + 1 }

/-- Any users and roles, no sessions and no request in flight. -/
structure World.Initial (w : World) : Prop where
  usersUnique : Table.Unique User.id w.store.users
  users : ∀ user ∈ w.store.users, user.id < w.number
  roles : ∀ row ∈ w.store.roles, row.id < w.number
  rolesUnique : Table.Unique UserRole.id w.store.roles
  tokens : w.store.tokens = []
  inFlight : w.inFlight = []
  closings : w.closings = []
  lastSet : ∀ userId, w.lastSet userId = none

def worlds : Transition.System World Label where
  initial := World.Initial
  step := World.step crypto

end Service

section Example

/-- A hash that shows the age of its parameters and keeps the password; `digests` knows the
tokens drawn below. -/
def plainCrypto : Crypto where
  hash password salt := String.ofList ((if salt = "weak" then '1' else '2') :: password.toList)
  verify hash password := decide (hash.toList.drop 1 = password.toList)
  needsRehash hash := decide (hash.toList.head? = some '1')
  sha256 := digests
  checkTotp _ _ _ := false

theorem plainCrypto_lawful : plainCrypto.Lawful where
  hash := by
    intro password salt
    simp [plainCrypto]
  exact := by
    intro hash password other verified verified'
    simp only [plainCrypto, decide_eq_true_eq] at verified verified'
    rw [← String.toList_inj, ← verified, verified']

def aUser (id : Nat) (email passwordHash : String) : User :=
  { newUser id email passwordHash with status := .active, emailVerified := true }

def superAdminRow (id userId : Nat) (expiresAt : Option Int) : UserRole where
  id := id
  userId := userId
  role := .superAdmin
  scope := ⟨none, none⟩
  expiresAt := expiresAt

/-- A super-administrator and a user whose password hash is out of date. -/
def twoUsers : World where
  store :=
    { now := 0
      users := [aUser 1 "admin@farzin.uz" "2root", aUser 2 "ali@farzin.uz" "1pawn"]
      roles := [superAdminRow 3 1 none]
      tokens := []
      redis := fun _ => none }
  inFlight := []
  number := 10
  closings := []
  lastSet := fun _ => none

theorem twoUsers_initial : twoUsers.Initial where
  usersUnique := by decide
  users := by decide
  roles := by decide
  rolesUnique := by decide
  tokens := rfl
  inFlight := rfl
  closings := rfl
  lastSet := fun _ => rfl

def drawing (token : String) : Draw := ⟨token, "salt", []⟩

/-- Some steps of the request in front. -/
def steps (n : Nat) (token : String) : List Label := List.replicate n (.advance 0 (drawing token))

end Example

end Farzin.Identity
