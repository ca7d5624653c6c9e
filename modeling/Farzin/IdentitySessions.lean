import Farzin.IdentityStatus
import Farzin.RefreshFamilies

set_option autoImplicit false

/- Sessions that must have ended: after a logout from all devices or a new password, and while an
account is suspended or banned. Each statement is atomic here, the bulk update of
`revokeAllForUser` as well as the transaction of `rotate`. -/
namespace Farzin.Identity

open Transition (System)

/-- No token of certain users and families is live. -/
def Dead (tokens : TokenTable) (now : Int) (p : (userId familyId : Nat) → Prop) : Prop :=
  ∀ t ∈ tokens, p t.userId t.familyId → t.live now = false

/-- The sessions that a request had to end when it completed: those of its user that started
before it arrived. -/
def Closing.ends (closing : Closing) (userId familyId : Nat) : Prop :=
  userId = closing.userId ∧ familyId < closing.arrivedAt

/-- Every session that had to end has ended. -/
structure SessionsEnded (w : World) : Prop where
  closed : ∀ closing ∈ w.closings, Dead w.store.tokens w.store.now closing.ends
  blocked : ∀ userId, w.store.Blocked userId →
    Dead w.store.tokens w.store.now fun owner _ => owner = userId

section Guard

variable (crypto : Crypto)

/-- No login or registration issues its tokens to a user who is suspended or banned at that
moment. -/
def IssuesUnblocked (w : World) : Label → Prop
  | .advance index draw => ∀ userId, w.inFlight[index]? = some (.issuing userId) →
      (Stage.issuing userId).succeeds crypto w.store w.number draw = true →
      ¬ w.store.Blocked userId
  | _ => True

end Guard

def Stage.arrivedBefore (number : Nat) : Stage → Prop
  | .endingSessions _ arrivedAt => arrivedAt < number
  | .resetTake _ _ arrivedAt => arrivedAt < number
  | .resetFind _ _ arrivedAt => arrivedAt < number
  | .changeFind _ _ _ arrivedAt => arrivedAt < number
  | .settingPassword _ _ arrivedAt => arrivedAt < number
  | _ => True

/-- The families are in order, and requests arrived before the present step. -/
structure Ordered (w : World) : Prop where
  families : Families w.store.tokens
  arrived : ∀ stage ∈ w.inFlight, stage.arrivedBefore w.number
  closings : ∀ closing ∈ w.closings, closing.arrivedAt < w.number

section Tokens

variable {sha256 : String → String} {tokens next : TokenTable} {now : Int}
  {p : (userId familyId : Nat) → Prop}

theorem live_mono {t : RefreshToken} {later : Int} (dead : t.live now = false)
    (passed : now ≤ later) : t.live later = false := by
  simp only [RefreshToken.live, decide_eq_false_iff_not] at dead ⊢
  intro alive
  exact dead ⟨alive.1, alive.2.1, by omega⟩

theorem revoked_dead {t : RefreshToken} (revoked : t.revokedAt ≠ none) : t.live now = false := by
  simp [RefreshToken.live, revoked]

theorem Dead.later {later : Int} (dead : Dead tokens now p) (passed : now ≤ later) :
    Dead tokens later p :=
  fun t inside here => live_mono (dead t inside here) passed

theorem Dead.update {condition : RefreshToken → Bool} {change : RefreshToken → RefreshToken}
    (dead : Dead tokens now p) (revoking : Revoking change) :
    Dead (Table.updateWhere condition change tokens) now p := by
  intro t inside here
  by_cases unrevoked : t.revokedAt = none
  · exact dead t (mem_update_unrevoked revoking inside unrevoked).1 here
  · exact revoked_dead unrevoked

theorem Dead.persist {userId familyId : Nat} {tokenHash : String} (dead : Dead tokens now p)
    (persisted : tokens.persist userId familyId tokenHash now = some next)
    (other : ¬ p userId familyId) : Dead next now p := by
  obtain ⟨-, rfl⟩ := persist_some persisted
  intro t inside here
  rcases List.mem_append.mp inside with old | new
  · exact dead t old here
  · rw [List.mem_singleton] at new
    subst new
    exact absurd here other

/-- What no token is alive of stays dead, but for a new session: a token can be exchanged only
while it is live. -/
theorem run_dead (families : Families tokens) (dead : Dead tokens now p) {call : TokenCall}
    (ran : tokens.run sha256 now call = some next)
    (old : ∀ userId familyId token, call = .issueNewFamily userId familyId token →
      ¬ p userId familyId) : Dead next now p := by
  cases call with
  | issueNewFamily userId familyId token =>
      exact dead.persist (issue_fresh ran).2 (old userId familyId token rfl)
  | rotate rawToken newToken =>
      simp only [TokenTable.run, Option.map_eq_some_iff] at ran
      obtain ⟨⟨outcome, after⟩, rotated, rfl⟩ := ran
      rcases rotate_cases families.unique rotated with
        ⟨-, rfl⟩ | ⟨stored, -, -, -, rfl⟩ | ⟨stored, found, unused, unrevoked, fresh, -, issued⟩
      · exact dead
      · exact dead.update (revoke_revoking now)
      · apply (dead.update (use_revoking now)).persist issued
        intro here
        have ended := dead stored (Table.findUnique_mem found) here
        simp [RefreshToken.live, unused, unrevoked, fresh] at ended
  | revokeByToken rawToken =>
      cases ran
      unfold TokenTable.revokeByToken
      split
      · exact dead
      · exact dead.update (revoke_revoking now)
  | revokeFamily | revokeAllForUser =>
      cases ran
      exact dead.update (revoke_revoking now)

theorem revokeAllForUser_dead (userId : Nat) :
    Dead (tokens.revokeAllForUser userId now) now fun owner _ => owner = userId := by
  intro t inside here
  apply revoked_dead
  intro unrevoked
  obtain ⟨-, missed⟩ := mem_update_unrevoked (revoke_revoking now) inside unrevoked
  simp [here, unrevoked] at missed

end Tokens

section Invariant

variable {crypto : Crypto} {s t : Store} {w v : World} {statement : Statement}

theorem Effect.families (effect : Effect crypto s statement t) (families : Families s.tokens) :
    Families t.tokens := by
  cases effect with
  | user | created | granted | revoked | set | del => exact families
  | blocked => exact families.revoke s.now
  | token ran => exact run_families families ran

theorem Effect.dead {p : (userId familyId : Nat) → Prop} (effect : Effect crypto s statement t)
    (families : Families s.tokens) (dead : Dead s.tokens s.now p)
    (old : ∀ userId familyId token, statement = .token (.issueNewFamily userId familyId token) →
      ¬ p userId familyId) : Dead t.tokens t.now p := by
  cases effect with
  | user | created | granted | revoked | set | del => exact dead
  | blocked => exact dead.update (revoke_revoking s.now)
  | token ran =>
      apply run_dead families dead ran
      rintro userId familyId token rfl
      exact old userId familyId token rfl

/-- A user is blocked after a statement who was so before it, or whom it has blocked. -/
theorem Effect.blocked_cases (effect : Effect crypto s statement t) {userId : Nat}
    (blocked : t.Blocked userId) :
    s.Blocked userId ∨ Dead t.tokens t.now fun owner _ => owner = userId := by
  obtain ⟨after, found', status⟩ := blocked
  cases found : s.findById userId with
  | none =>
      obtain ⟨_, _, _, -, rfl⟩ := effect.newUser found found'
      cases status
  | some user =>
      rw [effect.onUser found] at found'
      cases found'
      rcases onUser_status statement user with same | ⟨-, same⟩ | ⟨set, rfl, same⟩
      · rw [same] at status
        exact .inl ⟨user, found, status⟩
      · rw [same] at status
        cases status
      · rw [same] at status
        cases effect with
        | user _ _ kept =>
            rw [kept _ _ rfl] at status
            cases status
        | blocked =>
            right
            rw [findById_id found]
            exact revokeAllForUser_dead userId

theorem step_ordered {label : Label} (ordered : Ordered w)
    (taken : w.step crypto label = some v) : Ordered v := by
  have grown {stage : Stage} (before : stage.arrivedBefore w.number) :
      stage.arrivedBefore (w.number + 1) := by
    cases stage with
    | endingSessions | resetTake | resetFind | changeFind | settingPassword =>
        exact Nat.lt_succ_of_lt before
    | _ => trivial
  cases label with
  | arrive request =>
      cases taken
      refine ⟨ordered.families, ?_, fun c inside => Nat.lt_succ_of_lt (ordered.closings c inside)⟩
      intro stage inside
      rcases List.mem_append.mp inside with old | new
      · exact grown (ordered.arrived stage old)
      · cases List.mem_singleton.mp new
        cases request with
        | logoutAll | resetPassword | changePassword => exact Nat.lt_succ_self w.number
        | _ => trivial
  | passTime ms =>
      cases taken
      exact ⟨ordered.families, fun stage inside => grown (ordered.arrived stage inside),
        fun c inside => Nat.lt_succ_of_lt (ordered.closings c inside)⟩
  | advance index draw =>
      obtain ⟨stage, advances⟩ := advance_taken taken
      have here := ordered.arrived stage (List.mem_of_getElem? advances.here)
      refine ⟨?_, ?_, ?_⟩
      · rcases advance_store advances with same | ⟨_, _, done⟩
        · rw [same]
          exact ordered.families
        · exact (exec_effect done).families ordered.families
      · intro other inside
        rw [advances.number]
        rcases mem_inFlight advances inside with old | left
        · exact grown (ordered.arrived other old)
        · apply grown
          cases rest_follows left with
          | @login _ password _ user | @totp user password =>
              rcases @afterTotp_cases crypto user password with same | same
              · rw [same]
                trivial
              · rw [same]
                trivial
          | admits admitted =>
              obtain ⟨_, -, ⟨_, _, _, _, rfl⟩ | ⟨_, rfl⟩ | ⟨_, _, rfl⟩⟩ :=
                admitAdmin_cases admitted
              · trivial
              · trivial
              · trivial
          | resetFind | resetSet | changeSet | endSessions => exact here
          | _ => trivial
      · intro closing inside
        rw [advances.number]
        rw [advances.noted.1] at inside
        split at inside
        · cases stage with
          | endingSessions userId arrivedAt =>
              rcases List.mem_append.mp inside with old | new
              · exact Nat.lt_succ_of_lt (ordered.closings closing old)
              · cases List.mem_singleton.mp new
                exact Nat.lt_succ_of_lt here
          | _ => exact Nat.lt_succ_of_lt (ordered.closings closing inside)
        · exact Nat.lt_succ_of_lt (ordered.closings closing inside)

/-- A family that is issued now is younger than every request. -/
theorem issued_now {s : Store} {id userId familyId : Nat} {draw : Draw} {stage : Stage}
    {token : String} (written : stage.statement crypto s id draw =
      some (.token (.issueNewFamily userId familyId token))) :
    stage = .issuing userId ∧ familyId = id :=
  statement_stage written

theorem note_closings (w : World) (stage : Stage) {closing : Closing}
    (inside : closing ∈ (w.note stage).closings) :
    closing ∈ w.closings ∨
      ∃ arrivedAt, stage = .endingSessions closing.userId arrivedAt := by
  cases stage with
  | endingSessions userId arrivedAt =>
      rcases List.mem_append.mp inside with old | new
      · exact .inl old
      · cases List.mem_singleton.mp new
        exact .inr ⟨arrivedAt, rfl⟩
  | _ => exact .inl inside

theorem statement_ended (ordered : Ordered w) (ended : SessionsEnded w) {draw : Draw}
    {stage : Stage} {next : Store}
    (written : stage.statement crypto w.store w.number draw = some statement)
    (done : w.store.exec crypto statement = some next)
    (unblocked : ∀ userId, stage = .issuing userId → ¬ w.store.Blocked userId) :
    (∀ closing ∈ (w.note stage).closings, Dead next.tokens next.now closing.ends) ∧
      ∀ userId, next.Blocked userId →
        Dead next.tokens next.now fun owner _ => owner = userId := by
  have effect := exec_effect done
  refine ⟨?_, ?_⟩
  · intro closing inside
    rcases note_closings w stage inside with old | ⟨arrivedAt, rfl⟩
    · apply effect.dead ordered.families (ended.closed closing old)
      rintro userId familyId token rfl here
      obtain ⟨-, rfl⟩ := issued_now written
      exact absurd (ordered.closings closing old) (Nat.lt_asymm here.2)
    · cases written
      cases effect with
      | user update => cases update
      | token ran =>
          cases ran
          intro t member here
          exact revokeAllForUser_dead closing.userId t member here.1
  · intro userId blocked
    rcases effect.blocked_cases blocked with before | dead
    · apply effect.dead ordered.families (ended.blocked userId before)
      rintro owner familyId token rfl rfl
      exact unblocked owner (issued_now written).1 before
    · exact dead

/-- Tokens issued to a blocked user are live. -/
theorem issued_live {draw : Draw} {userId : Nat} {next : Store}
    (done : w.store.exec crypto (.token (.issueNewFamily userId w.number draw.token)) = some next)
    (blocked : w.store.Blocked userId) :
    next.Blocked userId ∧ ∃ t ∈ next.tokens, t.userId = userId ∧ t.live next.now = true := by
  cases exec_effect done with
  | user update => cases update
  | token ran =>
      refine ⟨blocked, ?_⟩
      obtain ⟨-, rfl⟩ := persist_some (issue_fresh ran).2
      refine ⟨_, List.mem_append_right _ (List.mem_singleton.mpr rfl), rfl, ?_⟩
      simp only [RefreshToken.live, refreshTtlMs, decide_eq_true_eq, true_and]
      omega

/-- A step keeps every session ended exactly if it does not issue tokens to a blocked user. -/
theorem ended_iff {label : Label} (ordered : Ordered w) (ended : SessionsEnded w)
    (taken : w.step crypto label = some v) :
    SessionsEnded v ↔ IssuesUnblocked crypto w label := by
  cases label with
  | arrive request =>
      cases taken
      exact ⟨fun _ => trivial, fun _ => ⟨ended.closed, ended.blocked⟩⟩
  | passTime ms =>
      cases taken
      have passed : w.store.now ≤ w.store.now + ms := by omega
      exact ⟨fun _ => trivial, fun _ => ⟨fun c inside => (ended.closed c inside).later passed,
        fun userId blocked => (ended.blocked userId blocked).later passed⟩⟩
  | advance index draw =>
      obtain ⟨stage, advances⟩ := advance_taken taken
      constructor
      · intro after userId here succeeded blocked
        have same := advances.here
        rw [here] at same
        cases same
        rcases @stage_advance_cases crypto w.store w.number draw (.issuing userId) with
          ⟨impossible, -⟩ | ⟨failed, -⟩ | ⟨statement, next, written, done, -, moved⟩
        · cases impossible
        · rw [failed] at succeeded
          cases succeeded
        · cases written
          obtain ⟨still, t, inside, owner, live⟩ := issued_live done blocked
          have store := advances.store
          rw [moved] at store
          have dead := after.blocked userId (by rw [store]; exact still) t (by rw [store]; exact inside)
            owner
          rw [store, live] at dead
          cases dead
      · intro unblocked
        obtain ⟨here, store, -, -, closings, -⟩ := advances
        rcases @stage_advance_cases crypto w.store w.number draw stage with
          ⟨written, succeeded, same⟩ | ⟨failed, same⟩ | ⟨statement, next, written, done, succeeded,
            same⟩
        · rw [same] at store
          rw [succeeded, if_pos rfl] at closings
          refine ⟨?_, ?_⟩
          · intro closing inside
            rw [closings] at inside
            rw [store]
            rcases note_closings w stage inside with old | ⟨_, rfl⟩
            · exact ended.closed closing old
            · cases written
          · rw [store]
            exact ended.blocked
        · rw [same] at store
          rw [failed] at closings
          refine ⟨?_, ?_⟩
          · rw [store, closings]
            exact ended.closed
          · rw [store]
            exact ended.blocked
        · rw [same] at store
          rw [succeeded, if_pos rfl] at closings
          have all := statement_ended ordered ended written done fun userId issuing => by
            subst issuing
            exact unblocked userId here succeeded
          refine ⟨?_, ?_⟩
          · rw [store, closings]
            exact all.1
          · rw [store]
            exact all.2

theorem initial_ended (initial : w.Initial) : Ordered w ∧ SessionsEnded w := by
  refine ⟨⟨?_, ?_, ?_⟩, ⟨?_, ?_⟩⟩
  · rw [initial.tokens]
    exact ⟨List.nodup_nil, by simp, by simp, by simp⟩
  · rw [initial.inFlight]
    intro stage inside
    cases inside
  · rw [initial.closings]
    intro closing inside
    cases inside
  · rw [initial.closings]
    intro closing inside
    cases inside
  · rw [initial.tokens]
    intro _ _ t inside
    cases inside

end Invariant

/-- In a run every session that had to end has ended, in every state, exactly if no login or
registration issues its tokens to a user who is suspended or banned at that moment. -/
theorem sessions_end_when_revoked (crypto : Crypto) (start w : World) (labels : List Label)
    (initial : start.Initial) (ran : (worlds crypto).run start labels = some w) :
    System.Always (worlds crypto) SessionsEnded start labels ↔
      System.Guarded (IssuesUnblocked crypto) (worlds crypto) start labels := by
  obtain ⟨ordered, ended⟩ := initial_ended initial
  apply System.always_iff_guarded Ordered SessionsEnded
  · intro s label t ordered taken
    exact step_ordered ordered taken
  · intro s label t ordered ended taken
    exact ended_iff ordered ended taken
  · exact ran
  · exact ordered
  · exact ended

/-- A login has passed its checks when its user is banned, and issues its tokens afterwards. -/
def bannedWhileLoggingIn : List Label :=
  [.arrive (.login "ali@farzin.uz" "pawn" none)] ++ steps 2 "first" ++
    [.arrive (.admin 1 (.setStatus 2 .banned))] ++
    List.replicate 7 (.advance 1 (drawing "second"))

theorem bannedWhileLoggingIn_live :
    twoUsers.Initial ∧ ∃ w v, (worlds plainCrypto).run twoUsers bannedWhileLoggingIn = some w ∧
      w.store.Blocked 2 ∧ w.inFlight = [.issuing 2] ∧
      w.step plainCrypto (.advance 0 (drawing "first")) = some v ∧ ¬ SessionsEnded v := by
  refine ⟨twoUsers_initial, _, _, rfl, ⟨_, rfl, rfl⟩, rfl, rfl, ?_⟩
  intro ended
  have dead := ended.blocked 2 ⟨_, rfl, rfl⟩ _ List.mem_cons_self rfl
  cases dead

/-- A user logs in, and logs out from all devices. -/
def loginThenLogoutAll : List Label :=
  [.arrive (.login "ali@farzin.uz" "pawn" none)] ++ steps 3 "first" ++
    [.arrive (.logoutAll 2)] ++ steps 1 "second"

theorem loginThenLogoutAll_unblocked :
    System.Guarded (IssuesUnblocked plainCrypto) (worlds plainCrypto) twoUsers
      loginThenLogoutAll := by
  refine ⟨trivial, fun _ taken => ?_⟩
  cases taken
  iterate 2
    refine ⟨fun _ here => (by cases here), fun _ taken => ?_⟩
    cases taken
  refine ⟨fun _ here _ => ?_, fun _ taken => ?_⟩
  · cases here
    rintro ⟨user, found, blocked⟩
    cases found
    cases blocked
  · cases taken
    refine ⟨trivial, fun _ taken => ?_⟩
    cases taken
    exact ⟨fun _ here => (by cases here), fun _ _ => trivial⟩

theorem loginThenLogoutAll_ended :
    System.Always (worlds plainCrypto) SessionsEnded twoUsers loginThenLogoutAll :=
  (sessions_end_when_revoked plainCrypto twoUsers _ loginThenLogoutAll twoUsers_initial rfl).mpr
    loginThenLogoutAll_unblocked

end Farzin.Identity
