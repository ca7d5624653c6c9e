import Farzin.RefreshTokens

set_option autoImplicit false

/- Token families: at most one member can be exchanged, and a revoked family stays revoked. -/
namespace Farzin.Identity

open Transition (System)

/-- A change of a row that revokes it and leaves its identity alone. -/
structure Revoking (change : RefreshToken → RefreshToken) : Prop where
  tokenHash : ∀ t, (change t).tokenHash = t.tokenHash
  familyId : ∀ t, (change t).familyId = t.familyId
  userId : ∀ t, (change t).userId = t.userId
  revokedAt : ∀ t, (change t).revokedAt ≠ none

theorem revoke_revoking (now : Int) : Revoking (RefreshToken.revoke now) :=
  ⟨fun _ => rfl, fun _ => rfl, fun _ => rfl, fun _ => Option.some_ne_none now⟩

theorem use_revoking (now : Int) : Revoking (RefreshToken.use now) :=
  ⟨fun _ => rfl, fun _ => rfl, fun _ => rfl, fun _ => Option.some_ne_none now⟩

/-- A token is revoked when it is used, a family belongs to one user, and at most one token of a
family is not revoked. -/
structure Families (tokens : TokenTable) : Prop where
  unique : Table.Unique RefreshToken.tokenHash tokens
  used : ∀ t ∈ tokens, t.usedAt ≠ none → t.revokedAt ≠ none
  single : ∀ t ∈ tokens, ∀ u ∈ tokens, t.familyId = u.familyId → t.revokedAt = none →
    u.revokedAt = none → t = u
  owner : ∀ t ∈ tokens, ∀ u ∈ tokens, t.familyId = u.familyId → t.userId = u.userId

/-- All tokens of a family are revoked, and there is one. -/
structure RevokedFamily (tokens : TokenTable) (familyId : Nat) : Prop where
  known : ∃ t ∈ tokens, t.familyId = familyId
  revoked : ∀ t ∈ tokens, t.familyId = familyId → t.revokedAt ≠ none

/-- The token with this hash is revoked. -/
def Spent (tokens : TokenTable) (tokenHash : String) : Prop :=
  ∃ t ∈ tokens, t.tokenHash = tokenHash ∧ t.revokedAt ≠ none

section Updates

variable {tokens : TokenTable} {condition : RefreshToken → Bool}
  {change : RefreshToken → RefreshToken}

/-- A row that is not revoked after an update was there before it. -/
theorem mem_update_unrevoked (revoking : Revoking change) {t : RefreshToken}
    (inside : t ∈ Table.updateWhere condition change tokens) (unrevoked : t.revokedAt = none) :
    t ∈ tokens ∧ condition t = false := by
  obtain ⟨before, member, rfl⟩ := Table.mem_updateWhere.mp inside
  by_cases hit : condition before = true
  · rw [if_pos hit] at unrevoked
    exact absurd unrevoked (revoking.revokedAt before)
  · rw [if_neg hit]
    exact ⟨member, by simpa using hit⟩

theorem mem_update_source (revoking : Revoking change) {t : RefreshToken}
    (inside : t ∈ Table.updateWhere condition change tokens) :
    ∃ before ∈ tokens, t.tokenHash = before.tokenHash ∧ t.familyId = before.familyId ∧
      t.userId = before.userId ∧ (before.revokedAt ≠ none → t.revokedAt ≠ none) := by
  obtain ⟨before, member, rfl⟩ := Table.mem_updateWhere.mp inside
  refine ⟨before, member, ?_⟩
  split
  · exact ⟨revoking.tokenHash _, revoking.familyId _, revoking.userId _,
      fun _ => revoking.revokedAt _⟩
  · exact ⟨rfl, rfl, rfl, id⟩

theorem mem_update_image (revoking : Revoking change) {before : RefreshToken}
    (member : before ∈ tokens) :
    ∃ t ∈ Table.updateWhere condition change tokens, t.tokenHash = before.tokenHash ∧
      t.familyId = before.familyId ∧ (before.revokedAt ≠ none → t.revokedAt ≠ none) := by
  refine ⟨_, Table.mem_updateWhere.mpr ⟨before, member, rfl⟩, ?_⟩
  split
  · exact ⟨revoking.tokenHash _, revoking.familyId _, fun _ => revoking.revokedAt _⟩
  · exact ⟨rfl, rfl, id⟩

theorem Families.update (families : Families tokens) (revoking : Revoking change)
    (change_used : ∀ t, (change t).usedAt ≠ none → (change t).revokedAt ≠ none) :
    Families (Table.updateWhere condition change tokens) := by
  refine ⟨families.unique.update condition change revoking.tokenHash, ?_, ?_, ?_⟩
  · intro t inside used
    obtain ⟨before, member, rfl⟩ := Table.mem_updateWhere.mp inside
    by_cases hit : condition before = true
    · rw [if_pos hit] at used ⊢
      exact change_used before used
    · rw [if_neg hit] at used ⊢
      exact families.used before member used
  · intro t inside u inside' same unrevoked unrevoked'
    exact families.single t (mem_update_unrevoked revoking inside unrevoked).1 u
      (mem_update_unrevoked revoking inside' unrevoked').1 same unrevoked unrevoked'
  · intro t inside u inside' same
    obtain ⟨before, member, -, family, user, -⟩ := mem_update_source revoking inside
    obtain ⟨before', member', -, family', user', -⟩ := mem_update_source revoking inside'
    rw [user, user']
    apply families.owner before member before' member'
    rw [← family, ← family', same]

theorem RevokedFamily.update {familyId : Nat} (ended : RevokedFamily tokens familyId)
    (revoking : Revoking change) :
    RevokedFamily (Table.updateWhere condition change tokens) familyId := by
  obtain ⟨known, member, family⟩ := ended.known
  refine ⟨?_, ?_⟩
  · obtain ⟨t, inside, -, same, -⟩ := mem_update_image revoking member
    exact ⟨t, inside, same.trans family⟩
  · intro t inside same
    obtain ⟨before, there, -, family', -, kept⟩ := mem_update_source revoking inside
    exact kept (ended.revoked before there (family'.symm.trans same))

theorem Spent.update {tokenHash : String} (spent : Spent tokens tokenHash)
    (revoking : Revoking change) :
    Spent (Table.updateWhere condition change tokens) tokenHash := by
  obtain ⟨before, member, hash, revoked⟩ := spent
  obtain ⟨t, inside, same, -, kept⟩ := mem_update_image revoking member
  exact ⟨t, inside, same.trans hash, kept revoked⟩

/-- A bulk update that reaches every unrevoked row of a family revokes the family. -/
theorem update_revokes {familyId : Nat} (revoking : Revoking change)
    (known : ∃ t ∈ tokens, t.familyId = familyId)
    (reached : ∀ t ∈ tokens, t.familyId = familyId → t.revokedAt = none → condition t = true) :
    RevokedFamily (Table.updateWhere condition change tokens) familyId := by
  obtain ⟨member, there, family⟩ := known
  refine ⟨?_, ?_⟩
  · obtain ⟨t, inside, -, same, -⟩ := mem_update_image revoking there
    exact ⟨t, inside, same.trans family⟩
  · intro t inside same unrevoked
    obtain ⟨old, missed⟩ := mem_update_unrevoked revoking inside unrevoked
    have hit := reached t old same unrevoked
    rw [missed] at hit
    cases hit

theorem Families.revoke (families : Families tokens) (now : Int) :
    Families (Table.updateWhere condition (RefreshToken.revoke now) tokens) :=
  families.update (revoke_revoking now) fun _ _ => Option.some_ne_none now

theorem revokeFamily_revokes {familyId : Nat} (now : Int)
    (known : ∃ t ∈ tokens, t.familyId = familyId) :
    RevokedFamily (tokens.revokeFamily familyId now) familyId := by
  apply update_revokes (revoke_revoking now) known
  intro t _ family unrevoked
  exact decide_eq_true ⟨family, unrevoked⟩

theorem revokeAllForUser_revokes (families : Families tokens) {userId familyId : Nat} (now : Int)
    (known : ∃ t ∈ tokens, t.familyId = familyId ∧ t.userId = userId) :
    RevokedFamily (tokens.revokeAllForUser userId now) familyId := by
  obtain ⟨member, there, family, user⟩ := known
  apply update_revokes (revoke_revoking now) ⟨member, there, family⟩
  intro t inside same unrevoked
  have owned := families.owner t inside member there (same.trans family.symm)
  exact decide_eq_true ⟨owned.trans user, unrevoked⟩

end Updates

section Insertion

variable {tokens next : TokenTable} {userId familyId : Nat} {tokenHash : String} {now : Int}

theorem persist_some (persisted : tokens.persist userId familyId tokenHash now = some next) :
    Table.findUnique RefreshToken.tokenHash tokens tokenHash = none ∧
      next = tokens ++ [⟨userId, tokenHash, familyId, none, none, now + refreshTtlMs⟩] := by
  unfold TokenTable.persist at persisted
  cases found : tokens.findToken tokenHash with
  | some t =>
      rw [found] at persisted
      cases persisted
  | none =>
      rw [found] at persisted
      cases persisted
      exact ⟨found, rfl⟩

/-- A new token keeps the families in order when its family has no other unrevoked token and
belongs to its user. -/
theorem Families.persist (families : Families tokens)
    (persisted : tokens.persist userId familyId tokenHash now = some next)
    (revoked : ∀ t ∈ tokens, t.familyId = familyId → t.revokedAt ≠ none)
    (owner : ∀ t ∈ tokens, t.familyId = familyId → t.userId = userId) : Families next := by
  obtain ⟨fresh, rfl⟩ := persist_some persisted
  refine ⟨families.unique.insert _ fresh, ?_, ?_, ?_⟩
  · intro t inside used
    rcases List.mem_append.mp inside with old | new
    · exact families.used t old used
    · rw [List.mem_singleton] at new
      subst new
      exact absurd rfl used
  · intro t inside u inside' same unrevoked unrevoked'
    rcases List.mem_append.mp inside with old | new <;>
      rcases List.mem_append.mp inside' with old' | new'
    · exact families.single t old u old' same unrevoked unrevoked'
    · rw [List.mem_singleton] at new'
      subst new'
      exact absurd unrevoked (revoked t old same)
    · rw [List.mem_singleton] at new
      subst new
      exact absurd unrevoked' (revoked u old' same.symm)
    · rw [List.mem_singleton] at new new'
      rw [new, new']
  · intro t inside u inside' same
    rcases List.mem_append.mp inside with old | new <;>
      rcases List.mem_append.mp inside' with old' | new'
    · exact families.owner t old u old' same
    · rw [List.mem_singleton] at new'
      subst new'
      exact owner t old same
    · rw [List.mem_singleton] at new
      subst new
      exact (owner u old' same.symm).symm
    · rw [List.mem_singleton] at new new'
      rw [new, new']

theorem RevokedFamily.persist {ended : Nat} (revoked : RevokedFamily tokens ended)
    (persisted : tokens.persist userId familyId tokenHash now = some next)
    (other : familyId ≠ ended) : RevokedFamily next ended := by
  obtain ⟨-, rfl⟩ := persist_some persisted
  obtain ⟨t, inside, family⟩ := revoked.known
  refine ⟨⟨t, List.mem_append_left _ inside, family⟩, ?_⟩
  intro u member same
  rcases List.mem_append.mp member with old | new
  · exact revoked.revoked u old same
  · rw [List.mem_singleton] at new
    subst new
    exact absurd same other

theorem Spent.persist {spentHash : String} (spent : Spent tokens spentHash)
    (persisted : tokens.persist userId familyId tokenHash now = some next) :
    Spent next spentHash := by
  obtain ⟨-, rfl⟩ := persist_some persisted
  obtain ⟨t, inside, rest⟩ := spent
  exact ⟨t, List.mem_append_left _ inside, rest⟩

end Insertion

section Rotation

variable {sha256 : String → String} {tokens next : TokenTable} {rawToken newToken : String}
  {now : Int} {outcome : RotationOutcome}

/-- What `rotate` can do: nothing, revoke the family of a token that is used or revoked, or use
the token and issue its successor. -/
theorem rotate_cases (unique : Table.Unique RefreshToken.tokenHash tokens)
    (rotated : tokens.rotate sha256 rawToken newToken now = some (outcome, next)) :
    ((outcome = .invalid ∨ outcome = .expired) ∧ next = tokens) ∨
    (∃ stored, tokens.findToken (sha256 rawToken) = some stored ∧
      (stored.usedAt ≠ none ∨ stored.revokedAt ≠ none) ∧
      outcome = .reuse stored.userId stored.familyId ∧
      next = tokens.revokeFamily stored.familyId now) ∨
    ∃ stored, tokens.findToken (sha256 rawToken) = some stored ∧ stored.usedAt = none ∧
      stored.revokedAt = none ∧ ¬ stored.expiresAt < now ∧
      outcome = .rotated stored.userId stored.familyId ∧
      TokenTable.persist
        (Table.updateWhere (TokenTable.claims stored) (RefreshToken.use now) tokens)
        stored.userId stored.familyId (sha256 newToken) now = some next := by
  unfold TokenTable.rotate at rotated
  cases found : tokens.findToken (sha256 rawToken) with
  | none =>
      simp only [found] at rotated
      cases rotated
      exact .inl ⟨.inl rfl, rfl⟩
  | some stored =>
      simp only [found] at rotated
      by_cases dead : stored.usedAt ≠ none ∨ stored.revokedAt ≠ none
      · rw [if_pos dead] at rotated
        cases rotated
        exact .inr (.inl ⟨stored, rfl, dead, rfl, rfl⟩)
      · rw [if_neg dead] at rotated
        obtain ⟨unused, unrevoked⟩ := not_or.mp dead
        rw [not_not] at unused unrevoked
        by_cases expired : stored.expiresAt < now
        · rw [if_pos expired] at rotated
          cases rotated
          exact .inl ⟨.inr rfl, rfl⟩
        · rw [if_neg expired] at rotated
          -- in a serial run the compare-and-set counts the row that was read
          have one : tokens.countP (TokenTable.claims stored) = 1 := by
            have member := Table.findUnique_mem found
            have count := unique.countP_update member (fun t => t.tokenHash = stored.tokenHash)
              (RefreshToken.use now) (TokenTable.claims stored) (by simp)
            have none_left : (Table.updateWhere (fun t => t.tokenHash = stored.tokenHash)
                (RefreshToken.use now) tokens).countP (TokenTable.claims stored) = 0 := by
              rw [List.countP_eq_zero]
              intro t inside
              obtain ⟨before, -, rfl⟩ := Table.mem_updateWhere.mp inside
              by_cases same : before.tokenHash = stored.tokenHash
              · simp [same, TokenTable.claims, RefreshToken.use]
              · simp [same, TokenTable.claims]
            have before : TokenTable.claims stored stored = true := by
              simp [TokenTable.claims, unused]
            have after : TokenTable.claims stored (RefreshToken.use now stored) = false := by
              simp [TokenTable.claims, RefreshToken.use]
            rw [none_left, before, after] at count
            simpa using count.symm
          rw [if_neg (not_not.mpr one)] at rotated
          cases issued : TokenTable.persist
              (Table.updateWhere (TokenTable.claims stored) (RefreshToken.use now) tokens)
              stored.userId stored.familyId (sha256 newToken) now with
          | none =>
              simp only [issued] at rotated
              cases rotated
          | some after =>
              simp only [issued] at rotated
              cases rotated
              exact .inr (.inr ⟨stored, rfl, unused, unrevoked, expired, rfl, issued⟩)

/-- Right after a token has been used its family has no other. -/
theorem use_revokes (families : Families tokens) {stored : RefreshToken} (member : stored ∈ tokens)
    (unused : stored.usedAt = none) (unrevoked : stored.revokedAt = none) :
    RevokedFamily (Table.updateWhere (TokenTable.claims stored) (RefreshToken.use now) tokens)
      stored.familyId := by
  apply update_revokes (use_revoking now) ⟨stored, member, rfl⟩
  intro t inside same live
  have here := families.single t inside stored member same live unrevoked
  subst here
  simp [TokenTable.claims, unused]

end Rotation

section Steps

variable {sha256 : String → String} {tokens next : TokenTable}

/-- A new family has no token yet. -/
theorem issue_fresh {now : Int} {userId familyId : Nat} {token : String}
    (taken : tokens.run sha256 now (.issueNewFamily userId familyId token) = some next) :
    (∀ t ∈ tokens, t.familyId ≠ familyId) ∧
      tokens.persist userId familyId (sha256 token) now = some next := by
  simp only [TokenTable.run] at taken
  split at taken
  · cases taken
  · rename_i unknown
    exact ⟨by simpa using unknown, taken⟩

/-- Every call keeps the families in order. -/
theorem run_families (families : Families tokens) {now : Int} {call : TokenCall}
    (taken : tokens.run sha256 now call = some next) : Families next := by
  cases call with
  | issueNewFamily userId familyId token =>
      obtain ⟨fresh, persisted⟩ := issue_fresh taken
      exact families.persist persisted (fun t inside same => absurd same (fresh t inside))
        (fun t inside same => absurd same (fresh t inside))
  | rotate rawToken newToken =>
      simp only [TokenTable.run, Option.map_eq_some_iff] at taken
      obtain ⟨⟨outcome, after⟩, rotated, rfl⟩ := taken
      rcases rotate_cases families.unique rotated with
        ⟨-, rfl⟩ | ⟨stored, -, -, -, rfl⟩ | ⟨stored, found, unused, unrevoked, -, -, issued⟩
      · exact families
      · exact families.revoke now
      · have member := Table.findUnique_mem found
        have used : Families
            (Table.updateWhere (TokenTable.claims stored) (RefreshToken.use now) tokens) :=
          families.update (use_revoking now) fun _ _ => Option.some_ne_none now
        refine used.persist issued (use_revokes families member unused unrevoked).revoked ?_
        intro t inside same
        obtain ⟨before, there, -, family, user, -⟩ := mem_update_source (use_revoking now) inside
        rw [user]
        exact families.owner before there stored member (family.symm.trans same)
  | revokeByToken rawToken =>
      cases taken
      unfold TokenTable.revokeByToken
      split
      · exact families
      · exact families.revoke now
  | revokeFamily familyId =>
      cases taken
      exact families.revoke now
  | revokeAllForUser userId =>
      cases taken
      exact families.revoke now

/-- A step that revokes, or one that adds a token to a family that is new or still had an
unrevoked token. -/
theorem run_changes (families : Families tokens) {now : Int} {call : TokenCall}
    (taken : tokens.run sha256 now call = some next) :
    (∀ familyId, RevokedFamily tokens familyId → RevokedFamily next familyId) ∧
      ∀ tokenHash, Spent tokens tokenHash → Spent next tokenHash := by
  cases call with
  | issueNewFamily userId familyId token =>
      obtain ⟨fresh, persisted⟩ := issue_fresh taken
      refine ⟨fun ended revoked => ?_, fun tokenHash spent => spent.persist persisted⟩
      apply revoked.persist persisted
      rintro rfl
      obtain ⟨t, inside, same⟩ := revoked.known
      exact fresh t inside same
  | rotate rawToken newToken =>
      simp only [TokenTable.run, Option.map_eq_some_iff] at taken
      obtain ⟨⟨outcome, after⟩, rotated, rfl⟩ := taken
      rcases rotate_cases families.unique rotated with
        ⟨-, rfl⟩ | ⟨stored, -, -, -, rfl⟩ | ⟨stored, found, -, unrevoked, -, -, issued⟩
      · exact ⟨fun _ revoked => revoked, fun _ spent => spent⟩
      · exact ⟨fun _ revoked => revoked.update (revoke_revoking now),
          fun _ spent => spent.update (revoke_revoking now)⟩
      · refine ⟨fun ended revoked => ?_, fun _ spent => ?_⟩
        · apply (revoked.update (use_revoking now)).persist issued
          rintro rfl
          exact revoked.revoked stored (Table.findUnique_mem found) rfl unrevoked
        · exact (spent.update (use_revoking now)).persist issued
  | revokeByToken rawToken =>
      cases taken
      unfold TokenTable.revokeByToken
      split
      · exact ⟨fun _ revoked => revoked, fun _ spent => spent⟩
      · exact ⟨fun _ revoked => revoked.update (revoke_revoking now),
          fun _ spent => spent.update (revoke_revoking now)⟩
  | revokeFamily | revokeAllForUser =>
      cases taken
      exact ⟨fun _ revoked => revoked.update (revoke_revoking now),
        fun _ spent => spent.update (revoke_revoking now)⟩

/-- A spent token is not exchanged. -/
theorem Spent.not_rotated (families : Families tokens) {rawToken newToken : String} {now : Int}
    {outcome : RotationOutcome} (spent : Spent tokens (sha256 rawToken))
    (rotated : tokens.rotate sha256 rawToken newToken now = some (outcome, next)) :
    outcome.isRotated = false := by
  obtain ⟨t, inside, hash, revoked⟩ := spent
  rcases rotate_cases families.unique rotated with
    ⟨rfl | rfl, -⟩ | ⟨stored, -, -, rfl, -⟩ | ⟨stored, found, -, unrevoked, -, -, -⟩
  · rfl
  · rfl
  · rfl
  · have same := families.unique.find inside
    rw [hash] at same
    change tokens.findToken (sha256 rawToken) = some t at same
    rw [found] at same
    cases same
    exact absurd unrevoked revoked

/-- An exchanged token is spent. -/
theorem rotated_spent (families : Families tokens) {rawToken newToken : String} {now : Int}
    {outcome : RotationOutcome} (done : outcome.isRotated = true)
    (rotated : tokens.rotate sha256 rawToken newToken now = some (outcome, next)) :
    Spent next (sha256 rawToken) := by
  rcases rotate_cases families.unique rotated with
    ⟨rfl | rfl, -⟩ | ⟨stored, -, -, rfl, -⟩ | ⟨stored, found, unused, -, -, -, issued⟩
  · cases done
  · cases done
  · cases done
  · apply Spent.persist ?_ issued
    have hash : stored.tokenHash = sha256 rawToken := Table.findUnique_key found
    refine ⟨RefreshToken.use now stored, ?_, hash, Option.some_ne_none now⟩
    apply Table.mem_updateWhere.mpr
    refine ⟨stored, Table.findUnique_mem found, ?_⟩
    simp [TokenTable.claims, unused]

end Steps

section Runs

variable (sha256 : String → String)

/-- A step that exchanges a raw token for its successor. -/
def exchanges (rawToken : String) (tokens : TokenTable) (label : TokenLabel) : Bool :=
  match label.call with
  | .rotate presented newToken =>
      decide (presented = rawToken) &&
        ((tokens.rotate sha256 presented newToken label.now).map fun r => r.1.isRotated).getD false
  | _ => false

/-- A call that ends a family: a reuse, a logout, or a logout from all devices of its owner. -/
def Ends (tokens : TokenTable) (familyId : Nat) (now : Int) : TokenCall → Prop
  | .issueNewFamily _ _ _ => False
  | .rotate rawToken newToken =>
      ∃ userId next, tokens.rotate sha256 rawToken newToken now =
        some (.reuse userId familyId, next)
  | .revokeByToken rawToken =>
      ∃ stored, tokens.findToken (sha256 rawToken) = some stored ∧ stored.familyId = familyId
  | .revokeFamily ended => ended = familyId ∧ ∃ t ∈ tokens, t.familyId = familyId
  | .revokeAllForUser userId => ∃ t ∈ tokens, t.familyId = familyId ∧ t.userId = userId

variable {sha256}

theorem run_ends {tokens next : TokenTable} (families : Families tokens) {now : Int}
    {call : TokenCall} {familyId : Nat} (ends : Ends sha256 tokens familyId now call)
    (taken : tokens.run sha256 now call = some next) : RevokedFamily next familyId := by
  cases call with
  | issueNewFamily => cases ends
  | rotate rawToken newToken =>
      obtain ⟨userId, after, rotated⟩ := ends
      simp only [TokenTable.run, rotated, Option.map_some, Option.some.injEq] at taken
      subst taken
      rcases rotate_cases families.unique rotated with
        ⟨same | same, -⟩ | ⟨stored, found, -, same, rfl⟩ | ⟨stored, -, -, -, -, same, -⟩
      · cases same
      · cases same
      · cases same
        exact revokeFamily_revokes now ⟨stored, Table.findUnique_mem found, rfl⟩
      · cases same
  | revokeByToken rawToken =>
      obtain ⟨stored, found, rfl⟩ := ends
      cases taken
      unfold TokenTable.revokeByToken
      rw [found]
      exact revokeFamily_revokes now ⟨stored, Table.findUnique_mem found, rfl⟩
  | revokeFamily ended =>
      obtain ⟨rfl, known⟩ := ends
      cases taken
      exact revokeFamily_revokes now known
  | revokeAllForUser userId =>
      cases taken
      exact revokeAllForUser_revokes families now ends

theorem tokens_families {tokens : TokenTable} (reached : (tokenTables sha256).Reachable tokens) :
    Families tokens := by
  apply reached.invariant Families
  · intro tokens initial
    change tokens = [] at initial
    subst initial
    exact ⟨List.nodup_nil, by simp, by simp, by simp⟩
  · intro s label t families _ taken
    exact run_families families taken

theorem exchanges_le_one {tokens : TokenTable} (families : Families tokens) (rawToken : String)
    (labels : List TokenLabel) :
    (tokenTables sha256).tally (fun s label _ => exchanges sha256 rawToken s label) tokens labels ≤
      1 := by
  apply System.tally_le_one Families (fun t => Spent t (sha256 rawToken))
  · intro s label t families taken
    exact run_families families taken
  · intro s label t families spent taken
    refine ⟨(run_changes families taken).2 _ spent, ?_⟩
    obtain ⟨call, now⟩ := label
    cases call with
    | rotate presented newToken =>
        simp only [exchanges, Bool.and_eq_false_iff, decide_eq_false_iff_not]
        by_cases same : presented = rawToken
        · subst same
          right
          cases rotated : s.rotate sha256 presented newToken now with
          | none => rfl
          | some result => exact spent.not_rotated families rotated
        · exact .inl same
    | _ => rfl
  · intro s label t families taken exchanged
    obtain ⟨call, now⟩ := label
    cases call with
    | rotate presented newToken =>
        simp only [exchanges, Bool.and_eq_true, decide_eq_true_eq] at exchanged
        obtain ⟨rfl, done⟩ := exchanged
        change (s.rotate sha256 presented newToken now).map Prod.snd = some t at taken
        cases rotated : s.rotate sha256 presented newToken now with
        | none =>
            rw [rotated] at taken
            cases taken
        | some result =>
            rw [rotated] at taken done
            cases taken
            exact rotated_spent families done rotated
    | _ => cases exchanged
  · exact families

/-- A revoked family has no live token. -/
theorem RevokedFamily.no_live {tokens : TokenTable} {familyId : Nat}
    (revoked : RevokedFamily tokens familyId) (now : Int) :
    tokens.countP (fun t => t.familyId = familyId ∧ t.live now) = 0 := by
  rw [List.countP_eq_zero]
  intro t inside counted
  simp only [RefreshToken.live, decide_eq_true_eq] at counted
  exact revoked.revoked t inside counted.1 counted.2.2.1

theorem Families.live_le_one {tokens : TokenTable} (families : Families tokens) (familyId : Nat)
    (now : Int) : tokens.countP (fun t => t.familyId = familyId ∧ t.live now) ≤ 1 := by
  apply families.unique.countP_le_one
  intro t inside u inside' counted counted'
  simp only [RefreshToken.live, decide_eq_true_eq] at counted counted'
  rw [families.single t inside u inside' (counted.1.trans counted'.1.symm) counted.2.2.1
    counted'.2.2.1]

end Runs

/-- In every state that the calls of the repository reach: a raw token is exchanged at most once
from there on, a family has at most one live token, presenting a used token revokes its family,
so does every other end of a session, and a revoked family never has a live token again. -/
theorem refresh_families (sha256 : String → String) (tokens : TokenTable)
    (reached : (tokenTables sha256).Reachable tokens) :
    (∀ rawToken labels, (tokenTables sha256).tally
      (fun s label _ => exchanges sha256 rawToken s label) tokens labels ≤ 1) ∧
    (∀ familyId now, tokens.countP (fun t => t.familyId = familyId ∧ t.live now) ≤ 1) ∧
    (∀ rawToken newToken now stored, tokens.findToken (sha256 rawToken) = some stored →
      stored.usedAt ≠ none → ∃ next,
        tokens.rotate sha256 rawToken newToken now =
          some (.reuse stored.userId stored.familyId, next) ∧
        RevokedFamily next stored.familyId) ∧
    (∀ call now next familyId, tokens.run sha256 now call = some next →
      Ends sha256 tokens familyId now call → RevokedFamily next familyId) ∧
    ∀ familyId later, RevokedFamily tokens familyId →
      (tokenTables sha256).Steps (fun _ _ => True) tokens later →
      ∀ now, later.countP (fun t => t.familyId = familyId ∧ t.live now) = 0 := by
  have families := tokens_families reached
  refine ⟨exchanges_le_one families, families.live_le_one, ?_, ?_, ?_⟩
  · intro rawToken newToken now stored found used
    refine ⟨tokens.revokeFamily stored.familyId now, ?_, ?_⟩
    · simp [TokenTable.rotate, found, used]
    · exact revokeFamily_revokes now ⟨stored, Table.findUnique_mem found, rfl⟩
  · intro call now next familyId taken ends
    exact run_ends families ends taken
  · intro familyId later revoked steps now
    have still : Families later ∧ RevokedFamily later familyId := by
      apply steps.preserve (fun t => Families t ∧ RevokedFamily t familyId) ?_ ⟨families, revoked⟩
      intro s label t ⟨before, ended⟩ _ taken
      exact ⟨run_families before taken, (run_changes before taken).1 familyId ended⟩
    exact still.2.no_live now

/-- A session that is refreshed twice, and then the first token comes back. -/
def stolenToken : List TokenLabel :=
  [⟨.issueNewFamily 7 1 "first", 0⟩, ⟨.rotate "first" "second", 10⟩,
    ⟨.rotate "second" "third", 20⟩, ⟨.rotate "first" "fourth", 30⟩]

theorem stolenToken_revoked :
    ∃ tokens, (tokenTables digests).run [] stolenToken = some tokens ∧ tokens.length = 3 ∧
      tokens.countP (fun t => t.familyId = 1 ∧ t.live 30) ≤ 1 := by
  refine ⟨_, rfl, rfl, ?_⟩
  have reached : (tokenTables digests).Reachable _ :=
    System.run_reachable [] _ stolenToken rfl rfl
  exact (refresh_families digests _ reached).2.1 1 30

end Farzin.Identity
