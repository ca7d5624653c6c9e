import Farzin.Interleaving
import Farzin.Table

set_option autoImplicit false

/- Friendships between players: the rules of `friend/friendship.rules.ts`, the table with the
constraints of its migration, and the requests of `friend/friend.service.ts`, cut at their
awaits. The audit records of the transactions are left out: nothing reads them here. -/
namespace Farzin.Friend

open Interleaving

inductive FriendshipStatus where
  | pending
  | accepted
  | blocked
  deriving DecidableEq, Repr

structure FriendshipRow where
  id : Nat
  requesterId : Nat
  addresseeId : Nat
  status : FriendshipStatus
  blockedById : Option Nat
  acceptedAt : Option Int
  deriving DecidableEq, Repr

inductive Denial where
  | selfFriendship
  | alreadyFriends
  | requestPending
  | incomingRequestPending
  | blocked
  | notAddressee
  | notPending
  | notMember
  | notBlocked
  | notBlocker
  deriving DecidableEq, Repr

def Denial.code : Denial → String
  | .selfFriendship => "SELF_FRIENDSHIP"
  | .alreadyFriends => "ALREADY_FRIENDS"
  | .requestPending => "REQUEST_PENDING"
  | .incomingRequestPending => "INCOMING_REQUEST_PENDING"
  | .blocked => "BLOCKED"
  | .notAddressee => "NOT_ADDRESSEE"
  | .notPending => "NOT_PENDING"
  | .notMember => "NOT_MEMBER"
  | .notBlocked => "NOT_BLOCKED"
  | .notBlocker => "NOT_BLOCKER"

/-- `MESSAGES`. -/
def Denial.message : Denial → String
  | .selfFriendship => "O'zingizni do'st qilib qo'sha olmaysiz"
  | .alreadyFriends => "Siz allaqachon do'stsiz"
  | .requestPending => "So'rov allaqachon yuborilgan — javob kutilmoqda"
  | .incomingRequestPending => "Bu o'yinchidan sizga so'rov kelgan — uni qabul qiling"
  | .blocked => "So'rov yuborib bo'lmadi"
  | .notAddressee => "Bu so'rovni faqat u yuborilgan o'yinchi qabul qila oladi"
  | .notPending => "So'rov holati o'zgargan — sahifani yangilang"
  | .notMember => "Bu amal sizga tegishli emas"
  | .notBlocked => "Bu juftlik bloklanmagan"
  | .notBlocker => "Blokni faqat uni qo`ygan o`yinchi ochadi"

abbrev Decision := Except Denial Unit

section Rules

def canRequest (actorPlayerId targetPlayerId : Nat) (existing : Option FriendshipRow) : Decision :=
  if actorPlayerId = targetPlayerId then .error .selfFriendship
  else match existing with
    | none => .ok ()
    | some row =>
        match row.status with
        | .blocked => .error .blocked
        | .accepted => .error .alreadyFriends
        | .pending =>
            if row.requesterId = actorPlayerId then .error .requestPending
            else .error .incomingRequestPending

def isMember (playerId : Nat) (row : FriendshipRow) : Bool :=
  row.requesterId = playerId || row.addresseeId = playerId

def canAccept (actorPlayerId : Nat) (row : FriendshipRow) : Decision :=
  if row.status ≠ .pending then .error .notPending
  else if row.addresseeId ≠ actorPlayerId then .error .notAddressee
  else .ok ()

def canDecline (actorPlayerId : Nat) (row : FriendshipRow) : Decision :=
  if row.status ≠ .pending then .error .notPending
  else if isMember actorPlayerId row then .ok () else .error .notMember

def canRemove (actorPlayerId : Nat) (row : FriendshipRow) : Decision :=
  if ¬isMember actorPlayerId row then .error .notMember
  else if row.status = .blocked then .error .blocked
  else .ok ()

def canBlock (actorPlayerId targetPlayerId : Nat) : Decision :=
  if actorPlayerId = targetPlayerId then .error .selfFriendship else .ok ()

def canUnblock (actorPlayerId : Nat) (row : FriendshipRow) : Decision :=
  if row.status ≠ .blocked then .error .notBlocked
  else if row.blockedById = some actorPlayerId then .ok () else .error .notBlocker

def otherSide (actorPlayerId : Nat) (row : FriendshipRow) : Nat :=
  if row.requesterId = actorPlayerId then row.addresseeId else row.requesterId

end Rules

/-- What a request is refused with; the last three are errors of the database. -/
inductive FriendError where
  | businessRule (code message : String)
  | notFound (entity : String) (id : Nat)
  | uniqueViolation
  | checkViolation
  | recordNotFound
  deriving DecidableEq, Repr

def assertAllowed : Decision → Except FriendError Unit
  | .ok () => .ok ()
  | .error reason => .error (.businessRule reason.code reason.message)

section Table

/-- The row of a pair, whichever of the two has asked. -/
def FriendshipRow.Between (row : FriendshipRow) (a b : Nat) : Prop :=
  (row.requesterId = a ∧ row.addresseeId = b) ∨ (row.requesterId = b ∧ row.addresseeId = a)

instance decidableBetween (row : FriendshipRow) (a b : Nat) : Decidable (row.Between a b) :=
  inferInstanceAs (Decidable (_ ∨ _))

/-- The CHECK constraints of the migration. -/
structure FriendshipRow.Checked (row : FriendshipRow) : Prop where
  friendships_not_self : row.requesterId ≠ row.addresseeId
  friendships_blocked_by_consistent : row.status = .blocked ↔ row.blockedById ≠ none
  friendships_blocked_by_member :
    ∀ blocker ∈ row.blockedById, blocker = row.requesterId ∨ blocker = row.addresseeId
  friendships_accepted_at_consistent : row.status = .accepted ↔ row.acceptedAt ≠ none

instance decidableChecked (row : FriendshipRow) : Decidable row.Checked :=
  decidable_of_iff
    (row.requesterId ≠ row.addresseeId ∧ (row.status = .blocked ↔ row.blockedById ≠ none) ∧
      (∀ blocker ∈ row.blockedById, blocker = row.requesterId ∨ blocker = row.addresseeId) ∧
      (row.status = .accepted ↔ row.acceptedAt ≠ none))
    ⟨fun holds => ⟨holds.1, holds.2.1, holds.2.2.1, holds.2.2.2⟩,
      fun checked => ⟨checked.1, checked.2, checked.3, checked.4⟩⟩

/-- LEAST and GREATEST of the two players. -/
def FriendshipRow.pair (row : FriendshipRow) : Nat × Nat :=
  (min row.requesterId row.addresseeId, max row.requesterId row.addresseeId)

/-- The table, with the constraints of its migration. -/
structure Friendships where
  rows : List FriendshipRow
  nextId : Nat
  fresh : ∀ row ∈ rows, row.id < nextId
  friendships_pkey : Table.Unique FriendshipRow.id rows
  friendships_pair_unique : Table.Unique FriendshipRow.pair rows
  checked : ∀ row ∈ rows, row.Checked

/-- The columns that an UPDATE sets; one that is `none` is left alone. -/
structure FriendshipUpdate where
  status : FriendshipStatus
  blockedById : Option (Option Nat)
  acceptedAt : Option (Option Int)
  deriving DecidableEq, Repr

def FriendshipRow.set (row : FriendshipRow) (data : FriendshipUpdate) : FriendshipRow :=
  { row with
    status := data.status
    blockedById := data.blockedById.getD row.blockedById
    acceptedAt := data.acceptedAt.getD row.acceptedAt }

theorem FriendshipRow.Between.symm {row : FriendshipRow} {a b : Nat} (between : row.Between a b) :
    row.Between b a := Or.symm between

/-- A member and the other side are the pair. -/
theorem FriendshipRow.between_otherSide {row : FriendshipRow} {a : Nat}
    (member : isMember a row = true) : row.Between a (otherSide a row) := by
  unfold otherSide
  by_cases asked : row.requesterId = a
  · rw [if_pos asked]
    exact .inl ⟨asked, rfl⟩
  · rw [if_neg asked]
    simp only [isMember, Bool.or_eq_true, decide_eq_true_eq] at member
    exact .inr ⟨rfl, member.resolve_left asked⟩

theorem FriendshipRow.Between.other {row : FriendshipRow} {a b : Nat} (between : row.Between a b) :
    otherSide a row = b := by
  unfold otherSide
  rcases between with ⟨rfl, rfl⟩ | ⟨rfl, rfl⟩
  · rw [if_pos rfl]
  · split
    case isTrue same => exact same.symm
    case isFalse => rfl

theorem FriendshipRow.between_iff {row : FriendshipRow} {a b : Nat} :
    row.Between a b ↔ row.pair = (min a b, max a b) := by
  unfold Between pair
  rw [Prod.mk.injEq]
  omega

namespace Friendships

variable (t : Friendships)

def findPair (a b : Nat) : Option FriendshipRow := t.rows.find? fun row => row.Between a b

def findById (id : Nat) : Option FriendshipRow := Table.findUnique FriendshipRow.id t.rows id

/-- An INSERT: the checks come before the indexes. -/
def create (requesterId addresseeId : Nat) (status : FriendshipStatus) (blockedById : Option Nat) :
    Except FriendError (Friendships × FriendshipRow) :=
  let row : FriendshipRow := ⟨t.nextId, requesterId, addresseeId, status, blockedById, none⟩
  if checks : row.Checked then
    if unique : Table.findUnique FriendshipRow.pair t.rows row.pair = none then
      .ok
        ({ rows := t.rows ++ [row]
           nextId := t.nextId + 1
           fresh := by
             intro other inside
             rcases List.mem_append.mp inside with old | new
             · exact Nat.lt_succ_of_lt (t.fresh other old)
             · rw [List.mem_singleton.mp new]
               exact Nat.lt_succ_self _
           friendships_pkey := t.friendships_pkey.insert row
             (Table.findUnique_eq_none.mpr fun other inside =>
               Nat.ne_of_lt (t.fresh other inside))
           friendships_pair_unique := t.friendships_pair_unique.insert row unique
           checked := by
             intro other inside
             rcases List.mem_append.mp inside with old | new
             · exact t.checked other old
             · rw [List.mem_singleton.mp new]
               exact checks }, row)
    else .error .uniqueViolation
  else .error .checkViolation

/-- An UPDATE of one row. -/
def update (id : Nat) (data : FriendshipUpdate) : Except FriendError (Friendships × FriendshipRow) :=
  match found : t.findById id with
  | none => .error .recordNotFound
  | some row =>
      if checks : (row.set data).Checked then
        .ok
          ({ t with
             rows := Table.updateWhere (fun other => other.id = id) (·.set data) t.rows
             fresh := by
               intro other inside
               obtain ⟨before, old, rfl⟩ := Table.mem_updateWhere.mp inside
               split <;> exact t.fresh before old
             friendships_pkey := t.friendships_pkey.update _ _ fun _ => rfl
             friendships_pair_unique := t.friendships_pair_unique.update _ _ fun _ => rfl
             checked := by
               intro other inside
               obtain ⟨before, old, rfl⟩ := Table.mem_updateWhere.mp inside
               split
               · rename_i same
                 have found' := t.friendships_pkey.find old
                 rw [of_decide_eq_true same] at found'
                 cases found.symm.trans found'
                 exact checks
               · exact t.checked before old }, row.set data)
      else .error .checkViolation

/-- A DELETE of one row. -/
def delete (id : Nat) : Except FriendError Friendships :=
  match t.findById id with
  | none => .error .recordNotFound
  | some _ =>
      .ok
        { t with
          rows := t.rows.filter fun other => other.id ≠ id
          fresh := fun row inside => t.fresh row (List.mem_filter.mp inside).1
          friendships_pkey := (List.filter_sublist.map FriendshipRow.id).nodup t.friendships_pkey
          friendships_pair_unique :=
            (List.filter_sublist.map FriendshipRow.pair).nodup t.friendships_pair_unique
          checked := fun row inside => t.checked row (List.mem_filter.mp inside).1 }

variable {t}

theorem findById_some {id : Nat} {row : FriendshipRow} :
    t.findById id = some row ↔ row ∈ t.rows ∧ row.id = id := by
  constructor
  · intro found
    exact ⟨Table.findUnique_mem found, Table.findUnique_key found⟩
  · rintro ⟨inside, rfl⟩
    exact t.friendships_pkey.find inside

theorem findPair_some {a b : Nat} {row : FriendshipRow} (found : t.findPair a b = some row) :
    row ∈ t.rows ∧ row.Between a b := by
  refine ⟨List.mem_of_find?_eq_some found, ?_⟩
  simpa using List.find?_some found

theorem same_pair {row other : FriendshipRow} {a b : Nat} (here : row ∈ t.rows)
    (there : other ∈ t.rows) (first : row.Between a b) (second : other.Between a b) :
    row = other := by
  rw [FriendshipRow.between_iff] at first second
  exact List.inj_on_of_nodup_map t.friendships_pair_unique here there (first.trans second.symm)

theorem create_ok {t' : Friendships} {a b : Nat} {status : FriendshipStatus}
    {blockedById : Option Nat} {row : FriendshipRow}
    (created : t.create a b status blockedById = .ok (t', row)) :
    row = ⟨t.nextId, a, b, status, blockedById, none⟩ ∧ t'.rows = t.rows ++ [row] ∧
      t'.nextId = t.nextId + 1 ∧ ∀ other ∈ t.rows, ¬ other.Between a b := by
  unfold create at created
  dsimp only at created
  split at created
  · split at created
    · rename_i unique
      cases created
      refine ⟨rfl, rfl, rfl, fun other inside between => ?_⟩
      apply Table.findUnique_eq_none.mp unique other inside
      exact FriendshipRow.between_iff.mp between
    · cases created
  · cases created

theorem update_ok {t' : Friendships} {id : Nat} {data : FriendshipUpdate} {row : FriendshipRow}
    (updated : t.update id data = .ok (t', row)) :
    ∃ before, t.findById id = some before ∧ row = before.set data ∧ row.Checked ∧
      t'.nextId = t.nextId ∧
      t'.rows = Table.updateWhere (fun other => other.id = id) (·.set data) t.rows := by
  unfold update at updated
  split at updated
  · cases updated
  · rename_i before found
    split at updated
    · rename_i checks
      cases updated
      exact ⟨before, found, rfl, checks, rfl, rfl⟩
    · cases updated

theorem delete_none {id : Nat} (missing : t.findById id = none) :
    t.delete id = .error .recordNotFound := by
  unfold delete
  rw [missing]

theorem delete_some {id : Nat} {row : FriendshipRow} (found : t.findById id = some row) :
    ∃ t', t.delete id = .ok t' := by
  unfold delete
  rw [found]
  exact ⟨_, rfl⟩

theorem delete_ok {t' : Friendships} {id : Nat} (deleted : t.delete id = .ok t') :
    (∃ before, t.findById id = some before) ∧ t'.nextId = t.nextId ∧
      t'.rows = t.rows.filter fun other => other.id ≠ id := by
  unfold delete at deleted
  split at deleted
  · cases deleted
  · rename_i before found
    cases deleted
    exact ⟨⟨before, found⟩, rfl, rfl⟩

end Friendships

end Table

/-- `PLAYER_PORT`: the player of a user, and whether a player exists. -/
structure Players where
  findSummaryByUserId : Nat → Option Nat
  findById : Nat → Bool

inductive FriendRequest where
  | request (actorUserId targetPlayerId : Nat)
  | accept (actorUserId friendshipId : Nat)
  | endFriendship (actorUserId friendshipId : Nat)
  | block (actorUserId targetPlayerId : Nat)
  | unblock (actorUserId friendshipId : Nat)
  deriving DecidableEq, Repr

/-- The requests that begin with `load`. -/
inductive Loaded where
  | accept
  | endFriendship
  | unblock
  deriving DecidableEq, Repr

/-- Where a request stands before its next await. -/
inductive FriendCall where
  | begun (request : FriendRequest)
  | lookingUp (meId targetPlayerId : Nat)
  | finding (meId targetPlayerId : Nat)
  | creating (meId targetPlayerId : Nat)
  | loading (operation : Loaded) (meId friendshipId : Nat)
  | accepting (friendshipId : Nat)
  | removing (friendshipId : Nat)
  | unblocking (meId friendshipId : Nat)
  | lookingUpBlock (meId targetPlayerId : Nat)
  | findingBlock (meId targetPlayerId : Nat)
  | blocking (meId targetPlayerId : Nat) (existing : Option Nat)
  deriving DecidableEq, Repr

/-- A request goes on, or is answered: with the id of a friendship, or without content. -/
inductive Outcome where
  | next (call : FriendCall)
  | answer (result : Except FriendError (Option Nat))

def Outcome.call : Outcome → Option FriendCall
  | .next call => some call
  | .answer _ => none

def Outcome.succeeded : Outcome → Bool
  | .answer (.ok _) => true
  | _ => false

def goOn : Except FriendError FriendCall → Outcome
  | .ok call => .next call
  | .error reason => .answer (.error reason)

section Service

variable (players : Players)

/-- `me`. -/
def me (actorUserId : Nat) : Except FriendError Nat :=
  match players.findSummaryByUserId actorUserId with
  | none => .error (.businessRule "PLAYER_PROFILE_REQUIRED"
      "Do'stlik uchun o'yinchi profili kerak")
  | some meId => .ok meId

def startRequest : FriendRequest → Except FriendError FriendCall
  | .request actorUserId targetPlayerId => do
      let meId ← me players actorUserId
      return .lookingUp meId targetPlayerId
  | .accept actorUserId friendshipId => do
      let meId ← me players actorUserId
      return .loading .accept meId friendshipId
  | .endFriendship actorUserId friendshipId => do
      let meId ← me players actorUserId
      return .loading .endFriendship meId friendshipId
  | .block actorUserId targetPlayerId => do
      let meId ← me players actorUserId
      assertAllowed (canBlock meId targetPlayerId)
      return .lookingUpBlock meId targetPlayerId
  | .unblock actorUserId friendshipId => do
      let meId ← me players actorUserId
      return .loading .unblock meId friendshipId

/-- The target of a request or of a block exists. -/
def assertPlayer (targetPlayerId : Nat) : Except FriendError Unit :=
  if players.findById targetPlayerId then .ok () else .error (.notFound "Player" targetPlayerId)

/-- The end of `load`: a row is shown to the pair alone. -/
def load (t : Friendships) (meId friendshipId : Nat) : Except FriendError FriendshipRow :=
  match t.findById friendshipId with
  | none => .error (.notFound "Friendship" friendshipId)
  | some row =>
      if row.requesterId ≠ meId ∧ row.addresseeId ≠ meId then
        .error (.notFound "Friendship" friendshipId)
      else .ok row

/-- The checks of `accept`, `end` and `unblock` on the row that was loaded. -/
def checkLoaded (operation : Loaded) (meId : Nat) (row : FriendshipRow) :
    Except FriendError FriendCall :=
  match operation with
  | .accept => do
      assertAllowed (canAccept meId row)
      return .accepting row.id
  | .endFriendship =>
      if row.status = .pending then do
        assertAllowed (canDecline meId row)
        return .removing row.id
      else do
        assertAllowed (canRemove meId row)
        return .removing row.id
  | .unblock => do
      assertAllowed (canUnblock meId row)
      return .unblocking meId row.id

/-- `request` turns the error of the pair index into the refusal of a second request. -/
def createRequestError : FriendError → FriendError
  | .uniqueViolation => .businessRule "INCOMING_REQUEST_PENDING"
      "Bu o'yinchidan sizga so'rov kelgan — uni qabul qiling"
  | reason => reason

/-- The transaction of `block`, once it has looked for a row. -/
def writeBlock (t : Friendships) (actorPlayerId targetPlayerId : Nat) :
    Option Nat → Except FriendError (Friendships × FriendshipRow)
  | none => t.create actorPlayerId targetPlayerId .blocked (some actorPlayerId)
  | some existing => t.update existing ⟨.blocked, some (some actorPlayerId), some none⟩

/-- What a request does at one await. -/
def act (t : Friendships) (now : Int) : FriendCall → Friendships × Outcome
  | .begun request => (t, goOn (startRequest players request))
  | .lookingUp meId target => (t, goOn do
      assertPlayer players target
      return .finding meId target)
  | .finding meId target => (t, goOn do
      assertAllowed (canRequest meId target (t.findPair meId target))
      return .creating meId target)
  | .creating meId target =>
      match t.create meId target .pending none with
      | .ok (created, row) => (created, .answer (.ok (some row.id)))
      | .error reason => (t, .answer (.error (createRequestError reason)))
  | .loading operation meId friendshipId => (t, goOn do
      let row ← load t meId friendshipId
      checkLoaded operation meId row)
  | .accepting friendshipId =>
      match t.update friendshipId ⟨.accepted, none, some (some now)⟩ with
      | .ok (updated, _) => (updated, .answer (.ok none))
      | .error reason => (t, .answer (.error reason))
  | .removing friendshipId =>
      match t.delete friendshipId with
      | .ok deleted => (deleted, .answer (.ok none))
      | .error reason => (t, .answer (.error reason))
  | .unblocking _ friendshipId =>
      match t.delete friendshipId with
      | .ok deleted => (deleted, .answer (.ok none))
      | .error reason => (t, .answer (.error reason))
  | .lookingUpBlock meId target => (t, goOn do
      assertPlayer players target
      return .findingBlock meId target)
  | .findingBlock meId target =>
      (t, .next (.blocking meId target ((t.findPair meId target).map FriendshipRow.id)))
  | .blocking meId target existing =>
      match writeBlock t meId target existing with
      | .ok (written, row) => (written, .answer (.ok (some row.id)))
      | .error reason => (t, .answer (.error reason))

end Service

end Farzin.Friend
