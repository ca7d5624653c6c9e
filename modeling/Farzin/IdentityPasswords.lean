import Farzin.IdentityEffects

set_option autoImplicit false

/- The password that an account has: the one that was set last. -/
namespace Farzin.Identity

open Transition (System)

section Definitions

variable (crypto : Crypto)

/-- The stored hash of a user is good for this password. -/
def Store.Verifies (s : Store) (userId : Nat) (password : String) : Prop :=
  ∀ user, s.findById userId = some user →
    ∃ hash, user.passwordHash = some hash ∧ crypto.verify hash password = true

/-- The password that `changePassword` or `resetPassword` has set last is the one that the stored
hash verifies, and the only one. -/
def LastSetHolds (w : World) : Prop :=
  ∀ userId password, w.lastSet userId = some password →
    ∀ user, w.store.findById userId = some user →
      ∃ hash, user.passwordHash = some hash ∧ crypto.verify hash password = true ∧
        ∀ other, other ≠ password → crypto.verify hash other = false

/-- A login that writes its password hashed anew does so while the stored hash still verifies
that password. -/
def RehashesCurrent (w : World) : Label → Prop
  | .advance index _ => ∀ user password,
      w.inFlight[index]? = some (.loginRehash user password) →
      w.store.Verifies crypto user.id password
  | _ => True

/-- What a login knows about its user: while no password has been set the stored hash is good for
the password of the login. -/
structure LoginFits (w : World) (user : User) (password : String) : Prop where
  known : (w.store.findById user.id).isSome
  stored : w.lastSet user.id = none → w.store.Verifies crypto user.id password

def Stage.LoginFits (w : World) : Stage → Prop
  | .loginTotp user password _ => Identity.LoginFits crypto w user password
  | .loginRehash user password => Identity.LoginFits crypto w user password
  | _ => True

structure Passwords (w : World) : Prop where
  unique : Table.Unique User.id w.store.users
  set : ∀ userId, w.lastSet userId ≠ none → (w.store.findById userId).isSome
  logins : ∀ stage ∈ w.inFlight, stage.LoginFits crypto w

end Definitions

section Invariant

variable {crypto : Crypto} {s t : Store} {w v : World} {statement : Statement}

theorem Effect.unique (effect : Effect crypto s statement t)
    (unique : Table.Unique User.id s.users) : Table.Unique User.id t.users := by
  cases effect with
  | user update => exact unique.update _ _ (userUpdate_id update)
  | blocked => exact unique.update _ _ fun _ => rfl
  | created free => exact unique.insert _ free
  | granted | revoked | token | set | del => exact unique

theorem Effect.known (effect : Effect crypto s statement t) {userId : Nat}
    (known : (s.findById userId).isSome) : (t.findById userId).isSome := by
  obtain ⟨user, found⟩ := Option.isSome_iff_exists.mp known
  rw [effect.onUser found]
  rfl

/-- The two statements that write the password hash of a known user. -/
theorem onUser_passwordHash (statement : Statement) (user : User) :
    (statement.onUser user).passwordHash = user.passwordHash ∨
      ∃ hash, (statement = .updatePasswordHash user.id hash ∨
        statement = .changePassword user.id hash) ∧
        (statement.onUser user).passwordHash = some hash := by
  unfold Statement.onUser
  cases statement with
  | updatePasswordHash userId hash =>
      by_cases here : user.id = userId
      · right
        refine ⟨hash, .inl (by rw [here]), ?_⟩
        simp [Statement.userUpdate, here]
      · simp [Statement.userUpdate, here]
  | changePassword userId hash =>
      by_cases here : user.id = userId
      · right
        refine ⟨hash, .inr (by rw [here]), ?_⟩
        simp [Statement.userUpdate, here]
      · simp [Statement.userUpdate, here]
  | markEmailVerified | enableTotp | disableTotp | replaceBackupCodes | setStatus =>
      left
      simp only [Statement.userUpdate]
      split <;> rfl
  | createWithPlayer | grant | revoke | token | set | del => exact .inl rfl

theorem note_lastSet (w : World) (stage : Stage) (userId : Nat) :
    (w.note stage).lastSet userId = w.lastSet userId ∨
      ∃ password arrivedAt, stage = .settingPassword userId password arrivedAt := by
  cases stage with
  | settingPassword target password arrivedAt =>
      by_cases here : target = userId
      · subst here
        exact .inr ⟨password, arrivedAt, rfl⟩
      · left
        exact Function.update_of_ne (Ne.symm here) _ _
  | _ => exact .inl rfl

/-- How a step changes the hash of a known user: not at all, by a login that hashes its password
anew, or by a new password, which is noted. -/
theorem hash_cases {index : Nat} {draw : Draw} {stage : Stage}
    (advances : Advances crypto w v stage index draw) {userId : Nat} {user : User}
    (found : w.store.findById userId = some user) :
    ∃ after, v.store.findById userId = some after ∧
      ((after.passwordHash = user.passwordHash ∧ v.lastSet userId = w.lastSet userId) ∨
        (∃ login password, stage = .loginRehash login password ∧ login.id = userId ∧
          after.passwordHash = some (crypto.hash password draw.salt) ∧
          v.lastSet userId = w.lastSet userId) ∨
        ∃ password, after.passwordHash = some (crypto.hash password draw.salt) ∧
          v.lastSet userId = some password) := by
  obtain ⟨-, store, -, -, -, lastSet⟩ := advances
  have kept (written : ∀ hash,
      stage.statement crypto w.store w.number draw ≠ some (.changePassword userId hash)) :
      (w.note stage).lastSet userId = w.lastSet userId := by
    rcases note_lastSet w stage userId with same | ⟨password, arrivedAt, rfl⟩
    · exact same
    · exact absurd rfl (written _)
  rcases @stage_advance_cases crypto w.store w.number draw stage with
    ⟨written, succeeded, same⟩ | ⟨failed, same⟩ | ⟨statement, next, written, done, succeeded, same⟩
  · rw [same] at store
    rw [succeeded, if_pos rfl] at lastSet
    refine ⟨user, by rw [store]; exact found, .inl ⟨rfl, ?_⟩⟩
    rw [lastSet]
    apply kept
    intro hash wrote
    rw [written] at wrote
    cases wrote
  · rw [same] at store
    rw [failed] at lastSet
    refine ⟨user, by rw [store]; exact found, .inl ⟨rfl, ?_⟩⟩
    rw [lastSet]
    rfl
  · rw [same] at store
    rw [succeeded, if_pos rfl] at lastSet
    refine ⟨statement.onUser user, by rw [store]; exact (exec_effect done).onUser found, ?_⟩
    rw [lastSet]
    have here := findById_id found
    rcases onUser_passwordHash statement user with kept_hash | ⟨hash, rfl | rfl, set⟩
    · by_cases other : ∀ hash, statement ≠ .changePassword userId hash
      · refine .inl ⟨kept_hash, kept fun hash wrote => ?_⟩
        rw [written] at wrote
        exact other hash (Option.some.inj wrote)
      · obtain ⟨hash, rfl⟩ := not_forall_not.mp other
        obtain ⟨password, arrivedAt, rfl, rfl⟩ := statement_stage written
        right
        right
        refine ⟨password, ?_, ?_⟩
        · simp [Statement.onUser, Statement.userUpdate, here]
        · exact Function.update_self userId (some password) w.lastSet
    · obtain ⟨login, password, rfl, same_user, rfl⟩ := statement_stage written
      right
      left
      refine ⟨login, password, rfl, ?_, set, ?_⟩
      · rw [← same_user, here]
      · rfl
    · obtain ⟨password, arrivedAt, rfl, rfl⟩ := statement_stage written
      right
      right
      refine ⟨password, set, ?_⟩
      rw [here]
      exact Function.update_self userId (some password) w.lastSet

/-- Only for a known user is a password noted. -/
theorem lastSet_known (passwords : Passwords crypto w) {index : Nat} {draw : Draw} {stage : Stage}
    (advances : Advances crypto w v stage index draw) {userId : Nat}
    (set : v.lastSet userId ≠ none) : (w.store.findById userId).isSome := by
  by_cases before : w.lastSet userId = none
  · rw [advances.noted.2] at set
    split at set
    · rename_i succeeded
      rcases note_lastSet w stage userId with same | ⟨password, arrivedAt, rfl⟩
      · rw [same] at set
        exact absurd before set
      · rcases @stage_advance_cases crypto w.store w.number draw
          (.settingPassword userId password arrivedAt) with
          ⟨impossible, -⟩ | ⟨failed, -⟩ | ⟨statement, next, written, done, -⟩
        · cases impossible
        · rw [failed] at succeeded
          cases succeeded
        · cases written
          cases exec_effect done with
          | user update known =>
              cases update
              exact known
    · exact absurd before set
  · exact passwords.set userId before

/-- A step keeps what logins in flight know of their users. -/
theorem loginFits_step (lawful : crypto.Lawful) (passwords : Passwords crypto w) {index : Nat}
    {draw : Draw} {stage : Stage} (advances : Advances crypto w v stage index draw) {user : User}
    {password : String} (fits : LoginFits crypto w user password) :
    LoginFits crypto v user password := by
  obtain ⟨row, found⟩ := Option.isSome_iff_exists.mp fits.known
  obtain ⟨after, found', change⟩ := hash_cases advances found
  refine ⟨by rw [found']; rfl, ?_⟩
  intro unset other there
  rw [found'] at there
  cases there
  rcases change with ⟨kept, same⟩ | ⟨login, password', rfl, target, set, same⟩ | ⟨_, -, changed⟩
  · rw [same] at unset
    rw [kept]
    exact fits.stored unset row found
  · rw [same] at unset
    obtain ⟨hash, stored, verified⟩ := fits.stored unset row found
    have own := passwords.logins _ (List.mem_of_getElem? advances.here)
    rw [← target] at unset found
    obtain ⟨hash', stored', verified'⟩ := own.stored unset row found
    rw [stored] at stored'
    cases stored'
    cases lawful.exact hash password password' verified verified'
    exact ⟨_, set, lawful.hash password draw.salt⟩
  · rw [changed] at unset
    cases unset

theorem follows_loginFits (passwords : Passwords crypto w) {stage other : Stage}
    (follows : Follows crypto w.store w.number stage other) (here : stage.LoginFits crypto w) :
    other.LoginFits crypto w := by
  have start {user : User} {password : String} (login : LoggedIn crypto w.store user password) :
      LoginFits crypto w user password := by
    obtain ⟨email, found⟩ := login.known
    have byId : w.store.findById user.id = some user :=
      passwords.unique.find (Table.findUnique_mem found)
    refine ⟨by rw [byId]; rfl, fun _ row there => ?_⟩
    rw [byId] at there
    cases there
    exact login.verified
  cases follows with
  | loginTotp login => exact start login
  | @login _ password _ user login =>
      rcases @afterTotp_cases crypto user password with same | same
      · rw [same]
        exact start login
      · rw [same]
        trivial
  | @totp user password _ =>
      rcases @afterTotp_cases crypto user password with same | same
      · rw [same]
        exact here
      · rw [same]
        trivial
  | admits admitted =>
      obtain ⟨_, -, ⟨_, _, _, _, rfl⟩ | ⟨_, rfl⟩ | ⟨_, _, rfl⟩⟩ := admitAdmin_cases admitted
      · trivial
      · trivial
      · trivial
  | _ => trivial

theorem step_passwords (lawful : crypto.Lawful) (passwords : Passwords crypto w) {label : Label}
    (taken : w.step crypto label = some v) : Passwords crypto v := by
  cases label with
  | arrive request =>
      cases taken
      refine ⟨passwords.unique, passwords.set, fun stage inside => ?_⟩
      rcases List.mem_append.mp inside with old | new
      · have fits := passwords.logins stage old
        cases stage with
        | loginTotp | loginRehash => exact ⟨fits.known, fits.stored⟩
        | _ => trivial
      · cases List.mem_singleton.mp new
        cases request <;> trivial
  | passTime ms =>
      cases taken
      refine ⟨passwords.unique, passwords.set, fun stage inside => ?_⟩
      have fits := passwords.logins stage inside
      cases stage with
      | loginTotp | loginRehash => exact ⟨fits.known, fits.stored⟩
      | _ => trivial
  | advance index draw =>
      obtain ⟨stage, advances⟩ := advance_taken taken
      refine ⟨?_, ?_, ?_⟩
      · rcases advance_store advances with same | ⟨_, _, done⟩
        · rw [same]
          exact passwords.unique
        · exact (exec_effect done).unique passwords.unique
      · intro userId set
        obtain ⟨row, found⟩ := Option.isSome_iff_exists.mp (lastSet_known passwords advances set)
        obtain ⟨after, found', -⟩ := hash_cases advances found
        rw [found']
        rfl
      · intro other inside
        have fits : other.LoginFits crypto w := by
          rcases mem_inFlight advances inside with old | left
          · exact passwords.logins other old
          · exact follows_loginFits passwords (rest_follows left)
              (passwords.logins stage (List.mem_of_getElem? advances.here))
        cases other with
        | loginTotp | loginRehash => exact loginFits_step lawful passwords advances fits
        | _ => trivial

/-- What a login that hashes its password anew writes. -/
theorem rehash_writes {index : Nat} {draw : Draw} {user : User} {password : String}
    (advances : Advances crypto w v (.loginRehash user password) index draw) {row : User}
    (found : w.store.findById user.id = some row) :
    ∃ after, v.store.findById user.id = some after ∧
      after.passwordHash = some (crypto.hash password draw.salt) ∧
      v.lastSet user.id = w.lastSet user.id := by
  cases done : w.store.exec crypto (.updatePasswordHash user.id (crypto.hash password draw.salt)) with
  | none => simp [Store.exec, Store.updateUser, found] at done
  | some next =>
      refine ⟨(Statement.updatePasswordHash user.id (crypto.hash password draw.salt)).onUser row,
        ?_, ?_, ?_⟩
      · rw [advances.store]
        simp only [Stage.advance, Stage.statement, done]
        exact (exec_effect done).onUser found
      · simp [Statement.onUser, Statement.userUpdate, findById_id found]
      · rw [advances.noted.2]
        split <;> rfl

/-- A step keeps the password that was set last in force exactly if it does not write another one
that a login has hashed anew. -/
theorem lastSet_iff (lawful : crypto.Lawful) (passwords : Passwords crypto w)
    (holds : LastSetHolds crypto w) {label : Label} (taken : w.step crypto label = some v) :
    LastSetHolds crypto v ↔ RehashesCurrent crypto w label := by
  have only {hash password : String} (verified : crypto.verify hash password = true) :
      ∀ other, other ≠ password → crypto.verify hash other = false := by
    intro other apart
    by_contra also
    rw [Bool.not_eq_false] at also
    exact apart (lawful.exact hash other password also verified)
  cases label with
  | arrive request =>
      cases taken
      exact ⟨fun _ => trivial, fun _ => holds⟩
  | passTime ms =>
      cases taken
      exact ⟨fun _ => trivial, fun _ => holds⟩
  | advance index draw =>
      obtain ⟨stage, advances⟩ := advance_taken taken
      constructor
      · intro after user password here row found
        have same := advances.here
        rw [here] at same
        cases same
        have fits := passwords.logins _ (List.mem_of_getElem? here)
        cases set : w.lastSet user.id with
        | none => exact fits.stored set row found
        | some last =>
            obtain ⟨hash, stored, verified, -⟩ := holds user.id last set row found
            refine ⟨hash, stored, ?_⟩
            obtain ⟨next, found', written, kept⟩ := rehash_writes advances found
            rw [← kept] at set
            obtain ⟨hash', stored', verified', -⟩ := after user.id last set next found'
            rw [written] at stored'
            cases stored'
            rw [lawful.exact _ password last (lawful.hash password draw.salt) verified']
            exact verified
      · intro current userId password set user found'
        have known := lastSet_known passwords advances (by rw [set]; exact Option.some_ne_none _)
        obtain ⟨row, found⟩ := Option.isSome_iff_exists.mp known
        obtain ⟨after, there, change⟩ := hash_cases advances found
        rw [found'] at there
        cases there
        rcases change with ⟨kept, same⟩ | ⟨login, password', rfl, target, written, same⟩ |
          ⟨last, written, changed⟩
        · rw [same] at set
          rw [kept]
          exact holds userId password set row found
        · rw [same] at set
          obtain ⟨hash, stored, verified, -⟩ := holds userId password set row found
          rw [← target] at found
          obtain ⟨hash', stored', verified'⟩ := current login password' advances.here row found
          rw [stored] at stored'
          cases stored'
          cases lawful.exact hash password password' verified verified'
          have good := lawful.hash password draw.salt
          exact ⟨_, written, good, only good⟩
        · rw [changed] at set
          cases set
          have good := lawful.hash password draw.salt
          exact ⟨_, written, good, only good⟩

theorem initial_passwords (initial : w.Initial) : Passwords crypto w ∧ LastSetHolds crypto w := by
  refine ⟨⟨initial.usersUnique, ?_, ?_⟩, ?_⟩
  · intro userId set
    exact absurd (initial.lastSet userId) set
  · rw [initial.inFlight]
    intro stage inside
    cases inside
  · intro userId password set
    rw [initial.lastSet userId] at set
    cases set

end Invariant

/-- In a run the stored hash verifies the password that was set last, and no other, in every
state, exactly if each login that hashes its password anew writes while the stored hash still
verifies it. -/
theorem password_change_final (crypto : Crypto) (lawful : crypto.Lawful) (start w : World)
    (labels : List Label) (initial : start.Initial)
    (ran : (worlds crypto).run start labels = some w) :
    System.Always (worlds crypto) (LastSetHolds crypto) start labels ↔
      System.Guarded (RehashesCurrent crypto) (worlds crypto) start labels := by
  obtain ⟨passwords, holds⟩ := @initial_passwords crypto start initial
  apply System.always_iff_guarded (Passwords crypto) (LastSetHolds crypto)
  · intro s label t passwords taken
    exact step_passwords lawful passwords taken
  · intro s label t passwords holds taken
    exact lastSet_iff lawful passwords holds taken
  · exact ran
  · exact passwords
  · exact holds

/-- A login with the old password is overtaken by a change of the password, and then writes the
old one back with stronger parameters. -/
def changedWhileLoggingIn : List Label :=
  [.arrive (.login "ali@farzin.uz" "pawn" none)] ++ steps 1 "first" ++
    [.arrive (.changePassword 2 "pawn" "queen")] ++ List.replicate 3 (.advance 1 (drawing "second"))

theorem changedWhileLoggingIn_restored :
    plainCrypto.Lawful ∧ twoUsers.Initial ∧ ∃ w v,
      (worlds plainCrypto).run twoUsers changedWhileLoggingIn = some w ∧
      w.inFlight.length = 1 ∧ w.lastSet 2 = some "queen" ∧ w.store.Verifies plainCrypto 2 "queen" ∧
      w.step plainCrypto (.advance 0 (drawing "third")) = some v ∧
      v.store.Verifies plainCrypto 2 "pawn" ∧ ¬ LastSetHolds plainCrypto v := by
  refine ⟨plainCrypto_lawful, twoUsers_initial, _, _, rfl, rfl, rfl, ?_, rfl, ?_, ?_⟩
  · intro user found
    cases found
    exact ⟨_, rfl, by decide⟩
  · intro user found
    cases found
    exact ⟨_, rfl, by decide⟩
  · intro holds
    obtain ⟨hash, stored, verified, -⟩ := holds 2 "queen" rfl _ rfl
    cases stored
    revert verified
    decide

/-- A login that is over when the password changes. -/
def loginThenChange : List Label :=
  [.arrive (.login "ali@farzin.uz" "pawn" none)] ++ steps 3 "first" ++
    [.arrive (.changePassword 2 "pawn" "queen")] ++ steps 3 "second"

theorem loginThenChange_current :
    System.Guarded (RehashesCurrent plainCrypto) (worlds plainCrypto) twoUsers loginThenChange := by
  refine ⟨trivial, fun _ taken => ?_⟩
  cases taken
  refine ⟨fun _ _ here => (by cases here), fun _ taken => ?_⟩
  cases taken
  refine ⟨fun _ _ here user found => ?_, fun _ taken => ?_⟩
  · cases here
    cases found
    exact ⟨_, rfl, by decide⟩
  · cases taken
    refine ⟨fun _ _ here => (by cases here), fun _ taken => ?_⟩
    cases taken
    refine ⟨trivial, fun _ taken => ?_⟩
    cases taken
    iterate 3
      refine ⟨fun _ _ here => (by cases here), fun _ taken => ?_⟩
      cases taken
    trivial

theorem loginThenChange_final :
    System.Always (worlds plainCrypto) (LastSetHolds plainCrypto) twoUsers loginThenChange :=
  (password_change_final plainCrypto plainCrypto_lawful twoUsers _ loginThenChange twoUsers_initial
    rfl).mpr loginThenChange_current

end Farzin.Identity
