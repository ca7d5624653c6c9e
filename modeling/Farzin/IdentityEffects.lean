import Farzin.IdentityRequests

set_option autoImplicit false

/- What a statement does to the rows of one user, to the tokens and to the roles, and what a step
does to the store. -/
namespace Farzin.Identity

/-- The user whose row a statement updates, and the change. -/
def Statement.userUpdate : Statement → Option (Nat × (User → User))
  | .updatePasswordHash userId passwordHash =>
      some (userId, fun u => { u with passwordHash := some passwordHash })
  | .changePassword userId passwordHash =>
      some (userId, fun u => { u with passwordHash := some passwordHash })
  | .markEmailVerified userId =>
      some (userId, fun u => { u with emailVerified := true, status := .active })
  | .enableTotp userId secret codes =>
      some (userId, fun u =>
        { u with totpSecret := some secret, totpEnabled := true, totpBackupCodes := codes })
  | .disableTotp userId =>
      some (userId, fun u =>
        { u with totpSecret := none, totpEnabled := false, totpBackupCodes := [] })
  | .replaceBackupCodes userId remaining =>
      some (userId, fun u => { u with totpBackupCodes := remaining })
  | .setStatus userId status => some (userId, fun u => { u with status := status.status })
  | _ => none

/-- What a statement makes of the row of a known user. -/
def Statement.onUser (statement : Statement) (user : User) : User :=
  match statement.userUpdate with
  | some (userId, change) => if user.id = userId then change user else user
  | none => user

theorem userUpdate_id {statement : Statement} {userId : Nat} {change : User → User}
    (update : statement.userUpdate = some (userId, change)) (u : User) :
    (change u).id = u.id := by
  cases statement with
  | updatePasswordHash | changePassword | markEmailVerified | enableTotp | disableTotp |
      replaceBackupCodes | setStatus =>
      cases update
      rfl
  | createWithPlayer | grant | revoke | token | set | del => cases update

/-- The rows that a statement which succeeds leaves behind. -/
inductive Effect (crypto : Crypto) (s : Store) : Statement → Store → Prop where
  | user {statement : Statement} {userId : Nat} {change : User → User}
      (update : statement.userUpdate = some (userId, change)) (known : (s.findById userId).isSome)
      (kept : ∀ u status, statement = .setStatus u status → status = .active) :
      Effect crypto s statement
        { s with users := Table.updateWhere (fun u => u.id = userId) change s.users }
  | blocked {userId : Nat} {status : ManageableStatus} (known : (s.findById userId).isSome)
      (blocks : status ≠ .active) :
      Effect crypto s (.setStatus userId status)
        { s with
          users := Table.updateWhere (fun u => u.id = userId)
            (fun u => { u with status := status.status }) s.users
          tokens := s.tokens.revokeAllForUser userId s.now }
  | created {userId assignmentId : Nat} {email passwordHash : String}
      (free : s.findById userId = none) :
      Effect crypto s (.createWithPlayer userId assignmentId email passwordHash)
        { s with
          users := s.users ++ [newUser userId email passwordHash]
          roles := s.roles ++ [⟨assignmentId, userId, .player, ⟨none, none⟩, none⟩] }
  | granted {row : UserRole} (free : s.findAssignment row.id = none) :
      Effect crypto s (.grant row) { s with roles := s.roles ++ [row] }
  | revoked {assignmentId : Nat} :
      Effect crypto s (.revoke assignmentId)
        { s with roles := s.roles.filter fun row => row.id ≠ assignmentId }
  | token {call : TokenCall} {tokens : TokenTable}
      (ran : s.tokens.run crypto.sha256 s.now call = some tokens) :
      Effect crypto s (.token call) { s with tokens }
  | set {key : RedisKey} {value : RedisValue} {ttlMs : Int} :
      Effect crypto s (.set key value ttlMs)
        { s with redis := Function.update s.redis key (some ⟨value, s.now + ttlMs⟩) }
  | del {key : RedisKey} :
      Effect crypto s (.del key) { s with redis := Function.update s.redis key none }

section Exec

variable {crypto : Crypto} {s t : Store} {statement : Statement}

theorem exec_effect (done : s.exec crypto statement = some t) : Effect crypto s statement t := by
  have updated (userId : Nat) (change : User → User)
      (update : statement.userUpdate = some (userId, change))
      (kept : ∀ u status, statement = .setStatus u status → status = .active)
      (done : s.updateUser userId change = some t) : Effect crypto s statement t := by
    obtain ⟨known, rfl⟩ := updateUser_some done
    exact .user update known kept
  cases statement with
  | updatePasswordHash | changePassword | markEmailVerified | enableTotp | disableTotp |
      replaceBackupCodes => exact updated _ _ rfl (fun _ _ same => by cases same) done
  | createWithPlayer =>
      obtain ⟨free, rfl⟩ := createWithPlayer_some done
      exact .created free
  | setStatus userId status =>
      obtain ⟨next, changed, rfl⟩ := setStatus_some done
      obtain ⟨known, rfl⟩ := updateUser_some changed
      by_cases reactivated : status = .active
      · rw [if_pos reactivated]
        refine .user rfl known ?_
        intro _ _ same
        cases same
        exact reactivated
      · rw [if_neg reactivated]
        exact .blocked known reactivated
  | grant row =>
      simp only [Store.exec, Store.grant] at done
      split at done
      · cases done
      · rename_i free
        cases done
        simp only [not_or, Option.not_isSome_iff_eq_none] at free
        exact .granted free.1
  | revoke assignmentId =>
      simp only [Store.exec, Store.revoke] at done
      split at done
      · cases done
      · cases done
        exact .revoked
  | token call =>
      simp only [Store.exec, Option.map_eq_some_iff] at done
      obtain ⟨tokens, ran, rfl⟩ := done
      exact .token ran
  | set key value ttlMs =>
      cases done
      exact .set
  | del key =>
      cases done
      exact .del

theorem findById_id {userId : Nat} {user : User} (found : s.findById userId = some user) :
    user.id = userId :=
  Table.findUnique_key found

/-- A statement changes the row of a known user as `onUser` says. -/
theorem Effect.onUser (effect : Effect crypto s statement t) {userId : Nat} {user : User}
    (found : s.findById userId = some user) :
    t.findById userId = some (statement.onUser user) := by
  have updated (changedId : Nat) (change : User → User)
      (update : statement.userUpdate = some (changedId, change)) :
      Table.findUnique User.id
        (Table.updateWhere (fun u => u.id = changedId) change s.users) userId =
          some (statement.onUser user) := by
    rw [Table.findUnique_updateWhere _ _ _ (userUpdate_id update)]
    unfold Store.findById at found
    rw [found, Statement.onUser, update]
    simp only [Option.map_some, decide_eq_true_eq]
  cases effect with
  | user update => exact updated _ _ update
  | blocked => exact updated _ _ rfl
  | @created newId _ _ _ free =>
      unfold Store.findById at found free ⊢
      rw [Table.findUnique_insert _ _ _ free, if_neg, found]
      · rfl
      · intro same
        change newId = userId at same
        rw [← same, free] at found
        cases found
  | granted | revoked | token | set | del => exact found

/-- The two statements that write the status of a known user. -/
theorem onUser_status (statement : Statement) (user : User) :
    (statement.onUser user).status = user.status ∨
      (statement = .markEmailVerified user.id ∧ (statement.onUser user).status = .active) ∨
      ∃ status, statement = .setStatus user.id status ∧
        (statement.onUser user).status = status.status := by
  unfold Statement.onUser
  cases statement with
  | markEmailVerified userId =>
      by_cases here : user.id = userId
      · right
        left
        simp [Statement.userUpdate, here]
      · simp [Statement.userUpdate, here]
  | setStatus userId status =>
      by_cases here : user.id = userId
      · right
        right
        refine ⟨status, ?_⟩
        simp [Statement.userUpdate, here]
      · simp [Statement.userUpdate, here]
  | updatePasswordHash | changePassword | enableTotp | disableTotp | replaceBackupCodes =>
      left
      simp only [Statement.userUpdate]
      split <;> rfl
  | createWithPlayer | grant | revoke | token | set | del => exact .inl rfl

/-- Only a registration brings a new user in. -/
theorem Effect.newUser (effect : Effect crypto s statement t) {userId : Nat} {user : User}
    (unknown : s.findById userId = none) (found : t.findById userId = some user) :
    ∃ assignmentId email passwordHash,
      statement = .createWithPlayer userId assignmentId email passwordHash ∧
      user = Identity.newUser userId email passwordHash := by
  have updated (changedId : Nat) (change : User → User)
      (update : statement.userUpdate = some (changedId, change)) (found : Table.findUnique User.id
        (Table.updateWhere (fun u => u.id = changedId) change s.users) userId = some user) :
      False := by
    rw [Table.findUnique_updateWhere _ _ _ (userUpdate_id update)] at found
    unfold Store.findById at unknown
    rw [unknown] at found
    cases found
  cases effect with
  | user update => exact absurd (updated _ _ update found) id
  | blocked => exact absurd (updated _ _ rfl found) id
  | @created newId assignmentId email passwordHash free =>
      unfold Store.findById at found free unknown
      rw [Table.findUnique_insert _ _ _ free] at found
      split at found
      · rename_i same
        cases found
        change newId = userId at same
        subst same
        exact ⟨assignmentId, email, passwordHash, rfl, rfl⟩
      · rw [unknown] at found
        cases found
  | granted | revoked | token | set | del =>
      change s.findById userId = some user at found
      rw [unknown] at found
      cases found

theorem Effect.now (effect : Effect crypto s statement t) : t.now = s.now := by
  cases effect <;> rfl

end Exec

section Stages

/-- A user who has passed the checks of `login` up to the second factor. -/
structure LoggedIn (crypto : Crypto) (s : Store) (user : User) (password : String) : Prop where
  known : ∃ email, s.findByEmail email = some user
  verified : ∃ hash, user.passwordHash = some hash ∧ crypto.verify hash password = true
  enabled : loginDisabled user = false

/-- An administrator whom the guard has let in. -/
def Admitted (actor : Actor) : Prop :=
  hasCapability actor .update = true ∧ can actor .update = true ∧
    ∃ rows, actor.assignments = toDomainAssignments rows

/-- What can be left of a request after an await. -/
inductive Follows (crypto : Crypto) (s : Store) (id : Nat) : Stage → Stage → Prop where
  | registerCreate {email password : String} :
      Follows crypto s id (.registerFind email password) (.registerCreate email password)
  | registerMail {email password : String} :
      Follows crypto s id (.registerCreate email password) (.registerMail id)
  | registerIssue {userId : Nat} : Follows crypto s id (.registerMail userId) (.issuing userId)
  | loginTotp {email password code : String} {totpCode : Option String} {user : User}
      (login : LoggedIn crypto s user password) :
      Follows crypto s id (.loginFind email password totpCode) (.loginTotp user password code)
  | login {email password : String} {totpCode : Option String} {user : User}
      (login : LoggedIn crypto s user password) :
      Follows crypto s id (.loginFind email password totpCode) (afterTotp crypto user password)
  | totp {user : User} {password code : String} :
      Follows crypto s id (.loginTotp user password code) (afterTotp crypto user password)
  | rehashed {user : User} {password : String} :
      Follows crypto s id (.loginRehash user password) (.issuing user.id)
  | logout {rawToken : String} {familyId : Nat} :
      Follows crypto s id (.logoutFind rawToken) (.logoutRevoke familyId)
  | verifyDel {token : String} {userId : Nat} :
      Follows crypto s id (.verifyGet token) (.verifyDel token userId)
  | verifyMark {token : String} {userId : Nat} :
      Follows crypto s id (.verifyDel token userId) (.verifyMark userId)
  | forgot {email : String} {userId : Nat} :
      Follows crypto s id (.forgotFind email) (.forgotSet userId)
  | resetFind {token newPassword : String} {userId arrivedAt : Nat} :
      Follows crypto s id (.resetTake token newPassword arrivedAt)
        (.resetFind userId newPassword arrivedAt)
  | resetSet {newPassword : String} {userId arrivedAt : Nat} :
      Follows crypto s id (.resetFind userId newPassword arrivedAt)
        (.settingPassword userId newPassword arrivedAt)
  | changeSet {currentPassword newPassword : String} {userId arrivedAt : Nat} :
      Follows crypto s id (.changeFind userId currentPassword newPassword arrivedAt)
        (.settingPassword userId newPassword arrivedAt)
  | endSessions {newPassword : String} {userId arrivedAt : Nat} :
      Follows crypto s id (.settingPassword userId newPassword arrivedAt)
        (.endingSessions userId arrivedAt)
  | enroll {userId : Nat} : Follows crypto s id (.enrollFind userId) (.enrollSet userId)
  | activate {userId : Nat} {code secret : String} :
      Follows crypto s id (.activateGet userId code) (.activateEnable userId secret)
  | activated {userId : Nat} {secret : String} :
      Follows crypto s id (.activateEnable userId secret) (.activateDel userId)
  | disable {userId : Nat} {code : String} {user : User} :
      Follows crypto s id (.disableFind userId code) (.disableVerify user code)
  | disabled {user : User} {code : String} :
      Follows crypto s id (.disableVerify user code) (.disableWrite user.id)
  | load {actorUserId : Nat} {request : AdminRequest} :
      Follows crypto s id (.guardCache actorUserId request) (.guardLoad actorUserId request)
  | store {actorUserId : Nat} {request : AdminRequest} {rows : List RoleAssignmentView} :
      Follows crypto s id (.guardLoad actorUserId request) (.guardStore actorUserId request rows)
  | admits {stage other : Stage} {actorUserId : Nat} {request : AdminRequest}
      {rows : List RoleAssignmentView} (admitted : admitAdmin actorUserId rows request = some other) :
      Follows crypto s id stage other
  | grant {actor : Actor} {userId : Nat} {role : Role} {scope : ScopeRef}
      {expiresAt : Option Int} :
      Follows crypto s id (.grantFind actor userId role scope expiresAt)
        (.grantWrite userId role scope expiresAt)
  | granted {userId : Nat} {role : Role} {scope : ScopeRef} {expiresAt : Option Int} :
      Follows crypto s id (.grantWrite userId role scope expiresAt) (.invalidating userId)
  | assignment {actor : Actor} {assignmentId : Nat} {assignment : UserRole}
      (found : s.findAssignment assignmentId = some assignment) :
      Follows crypto s id (.revokeFind actor assignmentId) (.revokeCount actor assignment)
  | revoke {actor : Actor} {assignment : UserRole}
      (allowed : canRevoke (rolesOf actor) assignment.role assignment.scope
        s.countGlobalSuperAdmins = none) :
      Follows crypto s id (.revokeCount actor assignment)
        (.revokeWrite assignment s.countGlobalSuperAdmins)
  | revoked {assignment : UserRole} {count : Nat} :
      Follows crypto s id (.revokeWrite assignment count) (.invalidating assignment.userId)
  | target {actor : Actor} {userId : Nat} {status : ManageableStatus} {isGlobal : Bool} :
      Follows crypto s id (.statusFind actor userId status)
        (.statusCount actor userId isGlobal status)
  | status {actor : Actor} {userId : Nat} {status : ManageableStatus} {isGlobal : Bool}
      (allowed : canChangeStatus actor.userId userId isGlobal status
        s.countGlobalSuperAdmins = none) :
      Follows crypto s id (.statusCount actor userId isGlobal status)
        (.statusWrite actor userId isGlobal status s.countGlobalSuperAdmins)
  | changed {actor : Actor} {userId count : Nat} {status : ManageableStatus} {isGlobal : Bool} :
      Follows crypto s id (.statusWrite actor userId isGlobal status count)
        (.invalidating userId)

variable {crypto : Crypto} {s : Store} {id : Nat} {stage other : Stage}

theorem checkLogin_follows {email password : String} {totpCode : Option String} {user : User}
    (found : s.findByEmail email = some user)
    (left : checkLogin crypto user password totpCode = some other) :
    Follows crypto s id (.loginFind email password totpCode) other := by
  unfold checkLogin at left
  cases stored : user.passwordHash with
  | none =>
      simp only [stored] at left
      cases left
  | some hash =>
      simp only [stored] at left
      split at left
      · cases left
      · rename_i verified
        rw [not_not] at verified
        split at left
        · cases left
        · rename_i enabled
          have login : LoggedIn crypto s user password :=
            ⟨⟨email, found⟩, ⟨hash, stored, verified⟩, by simpa using enabled⟩
          split at left
          · obtain ⟨code, _, rfl⟩ := Option.map_eq_some_iff.mp left
            exact .loginTotp login
          · cases left
            exact .login login

theorem registerFind_follows {email password : String}
    (left : (Stage.registerFind email password).rest crypto s id = some other) :
    Follows crypto s id (.registerFind email password) other := by
  unfold Stage.rest at left
  dsimp only at left
  split at left
  · cases left
  · cases left
    exact .registerCreate

theorem loginFind_follows {email password : String} {totpCode : Option String}
    (left : (Stage.loginFind email password totpCode).rest crypto s id = some other) :
    Follows crypto s id (.loginFind email password totpCode) other := by
  unfold Stage.rest at left
  simp only [Option.bind_eq_some_iff] at left
  obtain ⟨user, found, checked⟩ := left
  exact checkLogin_follows found checked

theorem verifyGet_follows {token : String}
    (left : (Stage.verifyGet token).rest crypto s id = some other) :
    Follows crypto s id (.verifyGet token) other := by
  unfold Stage.rest at left
  dsimp only at left
  split at left
  · cases left
  · split at left
    · cases left
      exact .verifyDel
    · cases left

theorem forgotFind_follows {email : String}
    (left : (Stage.forgotFind email).rest crypto s id = some other) :
    Follows crypto s id (.forgotFind email) other := by
  unfold Stage.rest at left
  dsimp only at left
  split at left
  · cases left
  · split at left
    · cases left
    · cases left
      exact .forgot

theorem resetTake_follows {token newPassword : String} {arrivedAt : Nat}
    (left : (Stage.resetTake token newPassword arrivedAt).rest crypto s id = some other) :
    Follows crypto s id (.resetTake token newPassword arrivedAt) other := by
  unfold Stage.rest at left
  dsimp only at left
  split at left
  · cases left
  · split at left
    · cases left
      exact .resetFind
    · cases left

theorem resetFind_follows {userId : Nat} {newPassword : String} {arrivedAt : Nat}
    (left : (Stage.resetFind userId newPassword arrivedAt).rest crypto s id = some other) :
    Follows crypto s id (.resetFind userId newPassword arrivedAt) other := by
  unfold Stage.rest at left
  dsimp only at left
  split at left
  · cases left
  · split at left
    · cases left
    · cases left
      exact .resetSet

theorem changeFind_follows {userId : Nat} {currentPassword newPassword : String} {arrivedAt : Nat}
    (left : (Stage.changeFind userId currentPassword newPassword arrivedAt).rest crypto s id =
      some other) :
    Follows crypto s id (.changeFind userId currentPassword newPassword arrivedAt) other := by
  unfold Stage.rest at left
  dsimp only at left
  split at left
  · cases left
  · split at left
    · cases left
    · cases left
      exact .changeSet

theorem activateGet_follows {userId : Nat} {code : String}
    (left : (Stage.activateGet userId code).rest crypto s id = some other) :
    Follows crypto s id (.activateGet userId code) other := by
  unfold Stage.rest at left
  dsimp only at left
  split at left
  · split at left
    · cases left
      exact .activate
    · cases left
  · cases left

theorem guardCache_follows {actorUserId : Nat} {request : AdminRequest}
    (left : (Stage.guardCache actorUserId request).rest crypto s id = some other) :
    Follows crypto s id (.guardCache actorUserId request) other := by
  unfold Stage.rest at left
  dsimp only at left
  split at left
  · exact .admits left
  · cases left
    exact .load

theorem grantFind_follows {actor : Actor} {userId : Nat} {role : Role} {scope : ScopeRef}
    {expiresAt : Option Int}
    (left : (Stage.grantFind actor userId role scope expiresAt).rest crypto s id = some other) :
    Follows crypto s id (.grantFind actor userId role scope expiresAt) other := by
  unfold Stage.rest checkGrant at left
  dsimp only at left
  split at left
  · cases left
  · split at left
    · cases left
    · split at left
      · cases left
      · cases left
        exact .grant

theorem revokeCount_follows {actor : Actor} {assignment : UserRole}
    (left : (Stage.revokeCount actor assignment).rest crypto s id = some other) :
    Follows crypto s id (.revokeCount actor assignment) other := by
  unfold Stage.rest at left
  dsimp only at left
  split at left
  · cases left
  · rename_i allowed
    cases left
    exact .revoke (not_not.mp allowed)

theorem statusCount_follows {actor : Actor} {userId : Nat} {isGlobal : Bool}
    {status : ManageableStatus}
    (left : (Stage.statusCount actor userId isGlobal status).rest crypto s id = some other) :
    Follows crypto s id (.statusCount actor userId isGlobal status) other := by
  unfold Stage.rest at left
  dsimp only at left
  split at left
  · cases left
  · rename_i allowed
    cases left
    exact .status (not_not.mp allowed)

/-- What a request goes on with follows the stage that it comes from. -/
theorem rest_follows (left : stage.rest crypto s id = some other) :
    Follows crypto s id stage other := by
  cases stage with
  | registerFind => exact registerFind_follows left
  | registerCreate =>
      cases left
      exact .registerMail
  | registerMail =>
      cases left
      exact .registerIssue
  | loginFind => exact loginFind_follows left
  | loginTotp user password code =>
      obtain ⟨_, _, rfl⟩ := Option.map_eq_some_iff.mp left
      exact .totp
  | loginRehash =>
      cases left
      exact .rehashed
  | logoutFind rawToken =>
      obtain ⟨_, _, rfl⟩ := Option.map_eq_some_iff.mp left
      exact .logout
  | verifyGet => exact verifyGet_follows left
  | verifyDel =>
      cases left
      exact .verifyMark
  | forgotFind => exact forgotFind_follows left
  | resetTake => exact resetTake_follows left
  | resetFind => exact resetFind_follows left
  | changeFind => exact changeFind_follows left
  | settingPassword =>
      cases left
      exact .endSessions
  | enrollFind userId =>
      obtain ⟨_, _, rfl⟩ := Option.map_eq_some_iff.mp left
      exact .enroll
  | activateGet => exact activateGet_follows left
  | activateEnable =>
      cases left
      exact .activated
  | disableFind userId code =>
      obtain ⟨_, _, rfl⟩ := Option.map_eq_some_iff.mp left
      exact .disable
  | disableVerify user code =>
      obtain ⟨_, _, rfl⟩ := Option.map_eq_some_iff.mp left
      exact .disabled
  | guardCache => exact guardCache_follows left
  | guardLoad =>
      cases left
      exact .store
  | guardStore => exact .admits left
  | grantFind => exact grantFind_follows left
  | grantWrite =>
      cases left
      exact .granted
  | revokeFind actor assignmentId =>
      obtain ⟨assignment, found, rfl⟩ := Option.map_eq_some_iff.mp left
      exact .assignment found
  | revokeCount => exact revokeCount_follows left
  | revokeWrite =>
      cases left
      exact .revoked
  | statusFind actor userId status =>
      obtain ⟨_, _, rfl⟩ := Option.map_eq_some_iff.mp left
      exact .target
  | statusCount => exact statusCount_follows left
  | statusWrite =>
      cases left
      exact .changed
  | issuing | refreshing | logoutRevoke | endingSessions | verifyMark | forgotSet | enrollSet |
      activateDel | disableWrite | invalidating => cases left

theorem admitAdmin_cases {actorUserId : Nat} {rows : List RoleAssignmentView}
    {request : AdminRequest} (admitted : admitAdmin actorUserId rows request = some other) :
    ∃ actor, Admitted actor ∧
      ((∃ userId role scope expiresAt, other = .grantFind actor userId role scope expiresAt) ∨
        (∃ assignmentId, other = .revokeFind actor assignmentId) ∨
        ∃ userId status, other = .statusFind actor userId status) := by
  simp only [admitAdmin] at admitted
  by_cases allowed : hasCapability ⟨actorUserId, toDomainAssignments rows⟩ .update = true ∧
      can ⟨actorUserId, toDomainAssignments rows⟩ .update = true
  · rw [if_pos allowed] at admitted
    refine ⟨_, ⟨allowed.1, allowed.2, rows, rfl⟩, ?_⟩
    cases request with
    | grantRole =>
        cases admitted
        exact .inl ⟨_, _, _, _, rfl⟩
    | revokeRole =>
        cases admitted
        exact .inr (.inl ⟨_, rfl⟩)
    | setStatus =>
        cases admitted
        exact .inr (.inr ⟨_, _, rfl⟩)
  · rw [if_neg allowed] at admitted
    cases admitted

theorem afterTotp_cases (user : User) (password : String) :
    afterTotp crypto user password = .loginRehash user password ∨
      afterTotp crypto user password = .issuing user.id := by
  unfold afterTotp
  split
  · exact .inl rfl
  · exact .inr rfl

/-- A code is accepted by a mark in Redis or by a shorter list of backup codes. -/
theorem verifyTotp_some {user : User} {code : String} {statement : Statement}
    (accepted : verifyTotp crypto s user code = some statement) :
    statement = .set (.totpUsed user.id code) .mark totpUsedTtlMs ∨
      ∃ remaining, statement = .replaceBackupCodes user.id remaining := by
  unfold verifyTotp at accepted
  split at accepted
  · dsimp only at accepted
    split at accepted
    · split at accepted
      · cases accepted
      · cases accepted
        exact .inl rfl
    · split at accepted
      · cases accepted
        exact .inr ⟨_, rfl⟩
      · cases accepted
  · cases accepted

/-- The stage that is about to make a statement of a kind that only one kind of stage makes. -/
theorem statement_stage {draw : Draw} {statement : Statement}
    (written : stage.statement crypto s id draw = some statement) :
    match statement with
    | .updatePasswordHash userId hash => ∃ user password, stage = .loginRehash user password ∧
        userId = user.id ∧ hash = crypto.hash password draw.salt
    | .changePassword userId hash => ∃ newPassword arrivedAt,
        stage = .settingPassword userId newPassword arrivedAt ∧
        hash = crypto.hash newPassword draw.salt
    | .markEmailVerified userId => stage = .verifyMark userId
    | .setStatus userId status => ∃ actor isGlobal count,
        stage = .statusWrite actor userId isGlobal status count
    | .grant row => row.id = id
    | .revoke assignmentId => ∃ assignment count, stage = .revokeWrite assignment count ∧
        assignmentId = assignment.id
    | .createWithPlayer userId assignmentId _ _ => userId = id ∧ assignmentId = id
    | .token (.issueNewFamily userId familyId _) => stage = .issuing userId ∧ familyId = id
    | .token (.revokeAllForUser userId) => ∃ arrivedAt, stage = .endingSessions userId arrivedAt
    | _ => True := by
  have totp {user : User} {code : String}
      (accepted : verifyTotp crypto s user code = some statement) :
      statement = .set (.totpUsed user.id code) .mark totpUsedTtlMs ∨
        ∃ remaining, statement = .replaceBackupCodes user.id remaining :=
    verifyTotp_some accepted
  cases stage with
  | loginTotp | disableVerify =>
      rcases totp written with rfl | ⟨_, rfl⟩
      · trivial
      · trivial
  | resetTake token newPassword arrivedAt =>
      simp only [Stage.statement] at written
      split at written
      · cases written
      · cases written
        trivial
  | loginRehash user password =>
      cases written
      exact ⟨user, password, rfl, rfl, rfl⟩
  | settingPassword userId newPassword arrivedAt =>
      cases written
      exact ⟨newPassword, arrivedAt, rfl, rfl⟩
  | verifyMark | grantWrite =>
      cases written
      rfl
  | statusWrite actor userId isGlobal status count =>
      cases written
      exact ⟨actor, isGlobal, count, rfl⟩
  | revokeWrite assignment count =>
      cases written
      exact ⟨assignment, count, rfl, rfl⟩
  | registerCreate | issuing =>
      cases written
      exact ⟨rfl, rfl⟩
  | endingSessions userId arrivedAt =>
      cases written
      exact ⟨arrivedAt, rfl⟩
  | registerMail | refreshing | logoutRevoke | verifyDel | forgotSet | enrollSet |
      activateEnable | activateDel | disableWrite | guardStore | invalidating =>
      cases written
      trivial
  | registerFind | loginFind | logoutFind | verifyGet | forgotFind | resetFind | changeFind |
      enrollFind | activateGet | disableFind | guardCache | guardLoad | grantFind | revokeFind |
      revokeCount | statusFind | statusCount => cases written

end Stages

section Steps

variable {crypto : Crypto} {w v : World}

/-- A stage reads only, fails, or has its statement executed. -/
theorem stage_advance_cases (s : Store) (id : Nat) (draw : Draw) (stage : Stage) :
    (stage.statement crypto s id draw = none ∧ stage.succeeds crypto s id draw = true ∧
      stage.advance crypto s id draw = (s, stage.rest crypto s id)) ∨
    (stage.succeeds crypto s id draw = false ∧ stage.advance crypto s id draw = (s, none)) ∨
    ∃ statement next, stage.statement crypto s id draw = some statement ∧
      s.exec crypto statement = some next ∧ stage.succeeds crypto s id draw = true ∧
      stage.advance crypto s id draw = (next, stage.rest crypto s id) := by
  unfold Stage.advance Stage.succeeds
  cases written : stage.statement crypto s id draw with
  | none => exact .inl ⟨rfl, rfl, rfl⟩
  | some statement =>
      cases done : s.exec crypto statement with
      | none =>
          refine .inr (.inl ?_)
          simp [done]
      | some next =>
          refine .inr (.inr ⟨statement, next, rfl, done, ?_, ?_⟩)
          · simp [done]
          · simp [done]

/-- A step of a request in flight. -/
structure Advances (crypto : Crypto) (w v : World) (stage : Stage) (index : Nat) (draw : Draw) :
    Prop where
  here : w.inFlight[index]? = some stage
  store : v.store = (stage.advance crypto w.store w.number draw).1
  inFlight : v.inFlight = w.inFlight.eraseIdx index ++
    (stage.advance crypto w.store w.number draw).2.toList
  number : v.number = w.number + 1
  noted : v.closings =
      (if stage.succeeds crypto w.store w.number draw then w.note stage else w).closings ∧
    v.lastSet = (if stage.succeeds crypto w.store w.number draw then w.note stage else w).lastSet

theorem advance_taken {index : Nat} {draw : Draw}
    (taken : w.step crypto (.advance index draw) = some v) :
    ∃ stage, Advances crypto w v stage index draw := by
  unfold World.step at taken
  cases here : w.inFlight[index]? with
  | none =>
      simp only [here] at taken
      cases taken
  | some stage =>
      simp only [here, Option.some.injEq] at taken
      subst taken
      exact ⟨stage, here, rfl, rfl, rfl, rfl, rfl⟩

/-- A step leaves the store as it is, or executes the statement of its stage. -/
theorem advance_store {stage : Stage} {index : Nat} {draw : Draw}
    (advances : Advances crypto w v stage index draw) :
    v.store = w.store ∨ ∃ statement,
      stage.statement crypto w.store w.number draw = some statement ∧
        w.store.exec crypto statement = some v.store := by
  rw [advances.store]
  rcases @stage_advance_cases crypto w.store w.number draw stage with
    ⟨-, -, same⟩ | ⟨-, same⟩ | ⟨statement, next, written, done, -, same⟩
  · exact .inl (by rw [same])
  · exact .inl (by rw [same])
  · refine .inr ⟨statement, written, ?_⟩
    rw [same]
    exact done

/-- A request in flight after a step was in flight before it, or is what is left of one, or has
just arrived. -/
theorem mem_inFlight {index : Nat} {draw : Draw} {stage other : Stage}
    (advances : Advances crypto w v stage index draw) (inside : other ∈ v.inFlight) :
    other ∈ w.inFlight ∨ stage.rest crypto w.store w.number = some other := by
  rw [advances.inFlight] at inside
  rcases List.mem_append.mp inside with old | new
  · exact .inl (List.mem_of_mem_eraseIdx old)
  · right
    rw [Option.mem_toList] at new
    rcases @stage_advance_cases crypto w.store w.number draw stage with
      ⟨-, -, same⟩ | ⟨-, same⟩ | ⟨_, _, -, -, -, same⟩
    · rw [same] at new
      exact new
    · rw [same] at new
      cases new
    · rw [same] at new
      exact new

end Steps

end Farzin.Identity
