import Farzin.Checked
import Farzin.Friendships

set_option autoImplicit false

/- How long a block lasts. The pair shares one row, so beside the table stand, as bookkeeping,
the blocks in force: each who has blocked whom and not lifted it since. -/
namespace Farzin.Friend

open Checked (bind_ok)
open Interleaving Transition

structure Friends where
  table : Friendships
  now : Int
  blocks : List (Nat × Nat)

/-- Who blocks whom by the rows of the table. -/
def Friendships.blocked (t : Friendships) : List (Nat × Nat) :=
  t.rows.filterMap fun row => row.blockedById.map fun blocker => (blocker, otherSide blocker row)

/-- A block is set by a transaction of `block` and lifted by the `unblock` of who has set it. -/
def Friends.blocksAfter (s : Friends) (outcome : Outcome) : FriendCall → List (Nat × Nat)
  | .blocking meId target _ =>
      if outcome.succeeded then (meId, target) :: s.blocks else s.blocks
  | .unblocking meId friendshipId =>
      match s.table.findById friendshipId with
      | none => s.blocks
      | some row => s.blocks.filter fun block => block ≠ (meId, otherSide meId row)
  | _ => s.blocks

section Program

variable (players : Players)

/-- Any stored table may be the first, with the blocks that it shows; the time is anything. -/
def friends : Program Friends FriendCall Int where
  initial s := s.blocks = s.table.blocked
  arrives _ call :=
    match call with
    | .begun _ => true
    | _ => false
  advance s call :=
    let (table, outcome) := act players s.table s.now call
    (⟨table, s.now, s.blocksAfter outcome call⟩, outcome.call)
  event s now := some { s with now }

/-- The request or the acceptance that succeeds is not between a player and one who blocks
him. -/
def Refuses (s : Friends) (call : FriendCall) : Prop :=
  (act players s.table s.now call).2.succeeded = true →
    match call with
    | .creating meId target => (meId, target) ∉ s.blocks ∧ (target, meId) ∉ s.blocks
    | .accepting friendshipId =>
        ∀ row ∈ s.table.findById friendshipId, (row.requesterId, row.addresseeId) ∉ s.blocks ∧
          (row.addresseeId, row.requesterId) ∉ s.blocks
    | _ => True

end Program

/-- Every block in force shows in the table. -/
def Kept (s : Friends) : Prop :=
  ∀ block ∈ s.blocks, ∃ row ∈ s.table.rows, row.Between block.1 block.2 ∧ row.status = .blocked

/-- What deletes a row takes no block along but its own: a friendship that is ended is not
blocked by now, and who lifts his block is not blocked by the other. -/
def Lifts (s : Friends) : FriendCall → Prop
  | .removing friendshipId =>
      ∀ row ∈ s.table.findById friendshipId, row.status ≠ .blocked
  | .unblocking meId friendshipId =>
      ∀ row ∈ s.table.findById friendshipId, (otherSide meId row, meId) ∉ s.blocks
  | _ => True

instance decidableLifts (s : Friends) : (call : FriendCall) → Decidable (Lifts s call)
  | .removing friendshipId => inferInstanceAs
      (Decidable (∀ row ∈ s.table.findById friendshipId, row.status ≠ .blocked))
  | .unblocking meId friendshipId => inferInstanceAs
      (Decidable (∀ row ∈ s.table.findById friendshipId, (otherSide meId row, meId) ∉ s.blocks))
  | .begun _ => .isTrue trivial
  | .lookingUp _ _ => .isTrue trivial
  | .finding _ _ => .isTrue trivial
  | .creating _ _ => .isTrue trivial
  | .loading _ _ _ => .isTrue trivial
  | .accepting _ => .isTrue trivial
  | .lookingUpBlock _ _ => .isTrue trivial
  | .findingBlock _ _ => .isTrue trivial
  | .blocking _ _ _ => .isTrue trivial

/-- The row that an await deletes. -/
def FriendCall.deletes : FriendCall → Option Nat
  | .removing friendshipId => some friendshipId
  | .unblocking _ friendshipId => some friendshipId
  | _ => none

/-- What an await does to the table and to the blocks in force. -/
inductive Effect (s : Friends) : FriendCall → Friends → Prop where
  | nothing (call : FriendCall) (missing : ∀ id ∈ call.deletes, s.table.findById id = none) :
      Effect s call s
  | requested (meId target : Nat) (t : Friendships) (row : FriendshipRow)
      (created : s.table.create meId target .pending none = .ok (t, row)) :
      Effect s (.creating meId target) ⟨t, s.now, s.blocks⟩
  | accepted (friendshipId : Nat) (t : Friendships) (row : FriendshipRow)
      (updated : s.table.update friendshipId ⟨.accepted, none, some (some s.now)⟩ = .ok (t, row)) :
      Effect s (.accepting friendshipId) ⟨t, s.now, s.blocks⟩
  | removed (friendshipId : Nat) (t : Friendships) (row : FriendshipRow)
      (found : s.table.findById friendshipId = some row)
      (deleted : s.table.delete friendshipId = .ok t) :
      Effect s (.removing friendshipId) ⟨t, s.now, s.blocks⟩
  | unblocked (meId friendshipId : Nat) (t : Friendships) (row : FriendshipRow)
      (found : s.table.findById friendshipId = some row)
      (deleted : s.table.delete friendshipId = .ok t) :
      Effect s (.unblocking meId friendshipId)
        ⟨t, s.now, s.blocks.filter fun block => block ≠ (meId, otherSide meId row)⟩
  | blocked (meId target : Nat) (existing : Option Nat) (t : Friendships) (row : FriendshipRow)
      (written : writeBlock s.table meId target existing = .ok (t, row)) :
      Effect s (.blocking meId target existing) ⟨t, s.now, (meId, target) :: s.blocks⟩

section Effects

variable {players : Players} {s : Friends}

theorem advance_effect (call : FriendCall) :
    Effect s call ((friends players).advance s call).1 := by
  cases call with
  | begun | lookingUp | finding | loading | lookingUpBlock | findingBlock =>
      exact .nothing _ fun id none => by cases none
  | creating meId target =>
      simp only [friends, act, Friends.blocksAfter]
      cases created : s.table.create meId target .pending none with
      | error reason => exact .nothing _ fun id none => by cases none
      | ok both => exact .requested meId target both.1 both.2 created
  | accepting friendshipId =>
      simp only [friends, act, Friends.blocksAfter]
      cases updated : s.table.update friendshipId ⟨.accepted, none, some (some s.now)⟩ with
      | error reason => exact .nothing _ fun id none => by cases none
      | ok both => exact .accepted friendshipId both.1 both.2 updated
  | removing friendshipId =>
      simp only [friends, act, Friends.blocksAfter]
      cases found : s.table.findById friendshipId with
      | none =>
          simp only [Friendships.delete_none found]
          exact .nothing _ fun id same => by cases same; exact found
      | some row =>
          obtain ⟨t, deleted⟩ := Friendships.delete_some found
          simp only [deleted]
          exact .removed friendshipId t row found deleted
  | unblocking meId friendshipId =>
      simp only [friends, act, Friends.blocksAfter]
      cases found : s.table.findById friendshipId with
      | none =>
          simp only [Friendships.delete_none found]
          exact .nothing _ fun id same => by cases same; exact found
      | some row =>
          obtain ⟨t, deleted⟩ := Friendships.delete_some found
          simp only [deleted]
          exact .unblocked meId friendshipId t row found deleted
  | blocking meId target existing =>
      cases written : writeBlock s.table meId target existing with
      | error reason =>
          simp only [friends, act, Friends.blocksAfter, written]
          exact .nothing _ fun id none => by cases none
      | ok both =>
          simp only [friends, act, Friends.blocksAfter, written]
          exact .blocked meId target existing both.1 both.2 written

/-- Rows keep their players as long as they are there, and ids are not used again. -/
structure Persists (t t' : Friendships) : Prop where
  later : t.nextId ≤ t'.nextId
  players : ∀ id < t.nextId, ∀ row' ∈ t'.findById id, ∃ row ∈ t.findById id,
    row.requesterId = row'.requesterId ∧ row.addresseeId = row'.addresseeId

theorem Persists.refl (t : Friendships) : Persists t t :=
  ⟨Nat.le_refl _, fun _ _ row found => ⟨row, found, rfl, rfl⟩⟩

theorem create_persists {t t' : Friendships} {a b : Nat} {status : FriendshipStatus}
    {blockedById : Option Nat} {row : FriendshipRow}
    (created : t.create a b status blockedById = .ok (t', row)) : Persists t t' := by
  obtain ⟨new, rows, next, -⟩ := Friendships.create_ok created
  refine ⟨by omega, fun id old row' found => ?_⟩
  obtain ⟨inside, same⟩ := Friendships.findById_some.mp found
  rw [rows] at inside
  rcases List.mem_append.mp inside with before | added
  · exact ⟨row', Friendships.findById_some.mpr ⟨before, same⟩, rfl, rfl⟩
  · rw [List.mem_singleton.mp added, new] at same
    exact absurd same (Nat.ne_of_gt old)

theorem update_persists {t t' : Friendships} {id : Nat} {data : FriendshipUpdate}
    {row : FriendshipRow} (updated : t.update id data = .ok (t', row)) : Persists t t' := by
  obtain ⟨_, -, -, -, next, rows⟩ := Friendships.update_ok updated
  refine ⟨Nat.le_of_eq next.symm, fun other old row' found => ?_⟩
  obtain ⟨inside, same⟩ := Friendships.findById_some.mp found
  rw [rows] at inside
  obtain ⟨before, here, rfl⟩ := Table.mem_updateWhere.mp inside
  refine ⟨before, Friendships.findById_some.mpr ⟨here, ?_⟩, ?_, ?_⟩
  · split at same <;> exact same
  · split <;> rfl
  · split <;> rfl

theorem delete_persists {t t' : Friendships} {id : Nat} (deleted : t.delete id = .ok t') :
    Persists t t' := by
  obtain ⟨-, next, rows⟩ := Friendships.delete_ok deleted
  refine ⟨Nat.le_of_eq next.symm, fun other old row' found => ?_⟩
  obtain ⟨inside, same⟩ := Friendships.findById_some.mp found
  rw [rows] at inside
  exact ⟨row', Friendships.findById_some.mpr ⟨(List.mem_filter.mp inside).1, same⟩, rfl, rfl⟩

theorem Effect.persists {call : FriendCall} {s' : Friends} (effect : Effect s call s') :
    Persists s.table s'.table := by
  cases effect with
  | nothing => exact .refl _
  | requested _ _ _ _ created => exact create_persists created
  | accepted _ _ _ updated => exact update_persists updated
  | removed _ _ _ _ deleted => exact delete_persists deleted
  | unblocked _ _ _ _ _ deleted => exact delete_persists deleted
  | blocked meId target existing t row written =>
      cases existing with
      | none => exact create_persists written
      | some id => exact update_persists written

/-- A request in flight works on a row of its own pair. -/
def OwnRow (s : Friends) : FriendCall → Prop
  | .unblocking meId friendshipId => friendshipId < s.table.nextId ∧
      ∀ row ∈ s.table.findById friendshipId, isMember meId row = true
  | .blocking meId target (some existing) => existing < s.table.nextId ∧
      ∀ row ∈ s.table.findById existing, row.Between meId target
  | _ => True

theorem OwnRow.persists {s s' : Friends} {call : FriendCall} (own : OwnRow s call)
    (persists : Persists s.table s'.table) : OwnRow s' call := by
  cases call with
  | unblocking meId friendshipId =>
      obtain ⟨old, member⟩ := own
      refine ⟨Nat.lt_of_lt_of_le old persists.later, fun row' found => ?_⟩
      obtain ⟨row, before, asked, addressed⟩ := persists.players _ old row' found
      have was := member row before
      unfold isMember at was ⊢
      rwa [← asked, ← addressed]
  | blocking meId target existing =>
      cases existing with
      | none => trivial
      | some existing =>
          obtain ⟨old, between⟩ := own
          refine ⟨Nat.lt_of_lt_of_le old persists.later, fun row' found => ?_⟩
          obtain ⟨row, before, asked, addressed⟩ := persists.players _ old row' found
          have was := between row before
          unfold FriendshipRow.Between at was ⊢
          rwa [← asked, ← addressed]
  | _ => trivial

theorem goOn_next {result : Except FriendError FriendCall} {rest : FriendCall}
    (next : (goOn result).call = some rest) : result = .ok rest := by
  cases result with
  | error reason => cases next
  | ok call =>
      cases next
      rfl

theorem start_ownRow {request : FriendRequest} {rest : FriendCall}
    (begun : startRequest players request = .ok rest) : OwnRow s rest := by
  cases request with
  | block actorUserId target =>
      obtain ⟨meId, -, begun⟩ := bind_ok begun
      obtain ⟨_, -, begun⟩ := bind_ok begun
      cases begun
      trivial
  | request | accept | endFriendship | unblock =>
      obtain ⟨meId, -, begun⟩ := bind_ok begun
      cases begun
      trivial

theorem load_ok {t : Friendships} {meId id : Nat} {row : FriendshipRow}
    (loaded : load t meId id = .ok row) : t.findById id = some row ∧ isMember meId row = true := by
  unfold load at loaded
  split at loaded
  · cases loaded
  · rename_i found
    split at loaded
    · cases loaded
    · rename_i member
      cases loaded
      refine ⟨found, ?_⟩
      simp only [isMember, Bool.or_eq_true, decide_eq_true_eq]
      by_contra neither
      rw [not_or] at neither
      exact member neither

theorem loaded_ownRow {operation : Loaded} {meId id : Nat} {row : FriendshipRow}
    {rest : FriendCall} (loaded : load s.table meId id = .ok row)
    (checked : checkLoaded operation meId row = .ok rest) : OwnRow s rest := by
  obtain ⟨found, member⟩ := load_ok loaded
  obtain ⟨inside, same⟩ := Friendships.findById_some.mp found
  cases operation with
  | accept =>
      obtain ⟨_, -, checked⟩ := bind_ok checked
      cases checked
      trivial
  | endFriendship =>
      unfold checkLoaded at checked
      dsimp only at checked
      split at checked
      all_goals
        obtain ⟨_, -, checked⟩ := bind_ok checked
        cases checked
        trivial
  | unblock =>
      obtain ⟨_, -, checked⟩ := bind_ok checked
      cases checked
      refine ⟨s.table.fresh row inside, fun other again => ?_⟩
      rw [same, found] at again
      cases again
      exact member

theorem ownRow_next {call rest : FriendCall}
    (next : ((friends players).advance s call).2 = some rest) : OwnRow s rest := by
  cases call with
  | begun request => exact start_ownRow (goOn_next next)
  | lookingUp meId target | lookingUpBlock meId target =>
      obtain ⟨_, -, looked⟩ := bind_ok (goOn_next next)
      cases looked
      trivial
  | finding meId target =>
      obtain ⟨_, -, checked⟩ := bind_ok (goOn_next next)
      cases checked
      trivial
  | loading operation meId id =>
      obtain ⟨row, loaded, checked⟩ := bind_ok (goOn_next next)
      exact loaded_ownRow loaded checked
  | findingBlock meId target =>
      cases next
      cases found : s.table.findPair meId target with
      | none => trivial
      | some row =>
          obtain ⟨inside, between⟩ := Friendships.findPair_some found
          refine ⟨s.table.fresh row inside, fun other again => ?_⟩
          rw [Friendships.findById_some.mpr ⟨inside, rfl⟩] at again
          cases again
          exact between
  | creating meId target =>
      simp only [friends, act] at next
      split at next <;> cases next
  | accepting id =>
      simp only [friends, act] at next
      split at next <;> cases next
  | removing id | unblocking meId id =>
      simp only [friends, act] at next
      split at next <;> cases next
  | blocking meId target existing =>
      simp only [friends, act] at next
      split at next <;> cases next

end Effects

section Blocks

variable {players : Players} {s s' : Friends}

/-- Whoever blocks by the table has set that block and not lifted it. -/
def Recorded (s : Friends) : Prop := ∀ block ∈ s.table.blocked, block ∈ s.blocks

theorem mem_blocked {t : Friendships} {a b : Nat} :
    (a, b) ∈ t.blocked ↔ ∃ row ∈ t.rows, row.blockedById = some a ∧ otherSide a row = b := by
  simp only [Friendships.blocked, List.mem_filterMap, Option.map_eq_some_iff, Prod.mk.injEq]
  constructor
  · rintro ⟨row, inside, blocker, setBy, rfl, other⟩
    exact ⟨row, inside, setBy, other⟩
  · rintro ⟨row, inside, setBy, other⟩
    exact ⟨row, inside, a, setBy, rfl, other⟩

theorem blocker_member {row : FriendshipRow} (checked : row.Checked) {a : Nat}
    (setBy : row.blockedById = some a) : isMember a row = true := by
  simp only [isMember, Bool.or_eq_true, decide_eq_true_eq]
  rcases checked.friendships_blocked_by_member a setBy with same | same
  · exact .inl same.symm
  · exact .inr same.symm

/-- A blocked row shows the block of one of its players. -/
theorem blocked_row {t : Friendships} {row : FriendshipRow} (inside : row ∈ t.rows)
    (status : row.status = .blocked) :
    ∃ a b, row.blockedById = some a ∧ row.Between a b ∧ (a, b) ∈ t.blocked := by
  have checked := t.checked row inside
  obtain ⟨a, setBy⟩ := Option.ne_none_iff_exists'.mp
    (checked.friendships_blocked_by_consistent.mp status)
  exact ⟨a, otherSide a row, setBy, FriendshipRow.between_otherSide (blocker_member checked setBy),
    mem_blocked.mpr ⟨row, inside, setBy, rfl⟩⟩

theorem kept_of_blocked (initial : s.blocks = s.table.blocked) : Kept s := by
  rintro ⟨a, b⟩ shown
  rw [initial] at shown
  obtain ⟨row, inside, setBy, rfl⟩ := mem_blocked.mp shown
  have checked := s.table.checked row inside
  have status : row.status = .blocked := by
    rw [checked.friendships_blocked_by_consistent, setBy]
    exact Option.some_ne_none _
  exact ⟨row, inside, FriendshipRow.between_otherSide (blocker_member checked setBy), status⟩

/-- The rows that an UPDATE leaves alone, and the one that it writes. -/
theorem mem_update {t t' : Friendships} {id : Nat} {data : FriendshipUpdate}
    {row : FriendshipRow} (updated : t.update id data = .ok (t', row)) {other : FriendshipRow} :
    other ∈ t'.rows ↔ other = row ∨ (other ∈ t.rows ∧ other.id ≠ id) := by
  obtain ⟨before, found, rfl, -, -, rows⟩ := Friendships.update_ok updated
  obtain ⟨inside, same⟩ := Friendships.findById_some.mp found
  rw [rows, Table.mem_updateWhere]
  constructor
  · rintro ⟨old, here, rfl⟩
    by_cases own : old.id = id
    · rw [Friendships.findById_some.mpr ⟨here, own⟩] at found
      cases found
      simp [own]
    · simp [own, here]
  · rintro (rfl | ⟨here, apart⟩)
    · exact ⟨before, inside, by simp [same]⟩
    · exact ⟨other, here, by simp [apart]⟩

theorem mem_delete {t t' : Friendships} {id : Nat} (deleted : t.delete id = .ok t')
    {other : FriendshipRow} : other ∈ t'.rows ↔ other ∈ t.rows ∧ other.id ≠ id := by
  rw [(Friendships.delete_ok deleted).2.2, List.mem_filter, decide_eq_true_eq]

theorem mem_create {t t' : Friendships} {a b : Nat} {status : FriendshipStatus}
    {blockedById : Option Nat} {row : FriendshipRow}
    (created : t.create a b status blockedById = .ok (t', row)) {other : FriendshipRow} :
    other ∈ t'.rows ↔ other ∈ t.rows ∨ other = row := by
  rw [(Friendships.create_ok created).2.1, List.mem_append, List.mem_singleton]

/-- What `block` writes: a row of the pair, blocked by who asks, in place of the one found. -/
theorem writeBlock_ok {t t' : Friendships} {meId target : Nat} {existing : Option Nat}
    {row : FriendshipRow} (written : writeBlock t meId target existing = .ok (t', row))
    (own : ∀ id ∈ existing, ∀ old ∈ t.findById id, old.Between meId target) :
    row.Between meId target ∧ row.status = .blocked ∧ row.blockedById = some meId ∧
      ∀ other, other ∈ t'.rows ↔ other = row ∨ (other ∈ t.rows ∧ ∀ id ∈ existing, other.id ≠ id) := by
  cases existing with
  | none =>
      obtain ⟨shape, -⟩ := Friendships.create_ok written
      refine ⟨?_, ?_, ?_, fun other => ?_⟩
      · rw [shape]
        exact .inl ⟨rfl, rfl⟩
      · rw [shape]
      · rw [shape]
      · rw [mem_create written, or_comm]
        simp
  | some id =>
      obtain ⟨before, found, shape, -⟩ := Friendships.update_ok written
      refine ⟨?_, ?_, ?_, fun other => ?_⟩
      · rw [shape]
        exact own id rfl before found
      · rw [shape]
        rfl
      · rw [shape]
        rfl
      · rw [mem_update written]
        simp

theorem OwnRow.between {meId target : Nat} {existing : Option Nat}
    (own : OwnRow s (.blocking meId target existing)) :
    ∀ id ∈ existing, ∀ old ∈ s.table.findById id, old.Between meId target := by
  intro id here old found
  cases here
  exact own.2 old found

theorem recorded_step {call : FriendCall} (effect : Effect s call s') (recorded : Recorded s)
    (own : OwnRow s call) : Recorded s' := by
  rintro ⟨a, b⟩ shown
  obtain ⟨row, inside, setBy, other⟩ := mem_blocked.mp shown
  have before (here : row ∈ s.table.rows) : (a, b) ∈ s.blocks :=
    recorded _ (mem_blocked.mpr ⟨row, here, setBy, other⟩)
  cases effect with
  | nothing => exact before inside
  | requested meId target t new created =>
      rcases (mem_create created).mp inside with old | rfl
      · exact before old
      · rw [(Friendships.create_ok created).1] at setBy
        cases setBy
  | accepted id t new updated =>
      rcases (mem_update updated).mp inside with rfl | ⟨old, -⟩
      · obtain ⟨was, -, rfl, checked, -⟩ := Friendships.update_ok updated
        have blocked := checked.friendships_blocked_by_consistent.mpr
          (by rw [setBy]; exact Option.some_ne_none _)
        cases blocked
      · exact before old
  | removed id t gone found deleted => exact before ((mem_delete deleted).mp inside).1
  | unblocked meId id t gone found deleted =>
      obtain ⟨here, apart⟩ := (mem_delete deleted).mp inside
      refine List.mem_filter.mpr ⟨before here, ?_⟩
      rw [decide_eq_true_eq]
      intro same
      obtain ⟨rfl, rfl⟩ := Prod.mk.inj same
      obtain ⟨there, rfl⟩ := Friendships.findById_some.mp found
      have checked := s.table.checked row here
      have between := FriendshipRow.between_otherSide (blocker_member checked setBy)
      rw [other] at between
      have same := Friendships.same_pair here there between
        (FriendshipRow.between_otherSide (own.2 gone found))
      exact apart (by rw [same])
  | blocked meId target existing t new written =>
      obtain ⟨between, -, blockedBy, rows⟩ := writeBlock_ok written own.between
      rcases (rows row).mp inside with rfl | ⟨old, -⟩
      · rw [blockedBy] at setBy
        cases setBy
        rw [between.other] at other
        rw [other]
        exact List.mem_cons_self
      · exact List.mem_cons_of_mem _ (before old)

/-- A row that a deletion leaves is not the row of the pair that it has deleted. -/
theorem not_between_deleted {t t' : Friendships} {id : Nat} {gone other : FriendshipRow} {a b : Nat}
    (found : t.findById id = some gone) (deleted : t.delete id = .ok t')
    (between : gone.Between a b) (left : other ∈ t'.rows) : ¬ other.Between a b := by
  intro again
  obtain ⟨here, apart⟩ := (mem_delete deleted).mp left
  obtain ⟨inside, same⟩ := Friendships.findById_some.mp found
  rw [Friendships.same_pair here inside again between] at apart
  exact apart same

theorem kept_removed {id : Nat} {t : Friendships} {row : FriendshipRow} (recorded : Recorded s)
    (kept : Kept s) (found : s.table.findById id = some row)
    (deleted : s.table.delete id = .ok t) :
    Kept ⟨t, s.now, s.blocks⟩ ↔ row.status ≠ .blocked := by
  obtain ⟨inside, own⟩ := Friendships.findById_some.mp found
  constructor
  · intro still status
    obtain ⟨a, b, -, between, shown⟩ := blocked_row inside status
    obtain ⟨other, left, again, -⟩ := still (a, b) (recorded _ shown)
    exact not_between_deleted found deleted between left again
  · intro status block inForce
    obtain ⟨other, here, between, blocked⟩ := kept block inForce
    refine ⟨other, (mem_delete deleted).mpr ⟨here, fun same => ?_⟩, between, blocked⟩
    rw [Friendships.findById_some.mpr ⟨here, same⟩] at found
    cases found
    exact status blocked

theorem kept_unblocked {meId id : Nat} {t : Friendships} {row : FriendshipRow} (kept : Kept s)
    (found : s.table.findById id = some row) (deleted : s.table.delete id = .ok t)
    (member : isMember meId row = true) :
    Kept ⟨t, s.now, s.blocks.filter fun block => block ≠ (meId, otherSide meId row)⟩ ↔
      (otherSide meId row, meId) ∉ s.blocks := by
  have between := FriendshipRow.between_otherSide member
  have distinct : meId ≠ otherSide meId row := by
    have apart := (s.table.checked row (Friendships.findById_some.mp found).1).friendships_not_self
    rcases between with ⟨asked, addressed⟩ | ⟨asked, addressed⟩
    · rwa [asked, addressed] at apart
    · rw [asked, addressed] at apart
      exact apart.symm
  constructor
  · intro still inForce
    have other : (otherSide meId row, meId) ∈
        s.blocks.filter fun block => block ≠ (meId, otherSide meId row) := by
      refine List.mem_filter.mpr ⟨inForce, ?_⟩
      simp [distinct.symm]
    obtain ⟨left, here, again, -⟩ := still _ other
    exact not_between_deleted found deleted between.symm here again
  · intro alone block inForce
    obtain ⟨before, lifted⟩ := List.mem_filter.mp inForce
    rw [decide_eq_true_eq] at lifted
    obtain ⟨other, here, again, blocked⟩ := kept block before
    refine ⟨other, (mem_delete deleted).mpr ⟨here, fun same => ?_⟩, again, blocked⟩
    rw [Friendships.findById_some.mpr ⟨here, same⟩] at found
    cases found
    have pair : block = (meId, otherSide meId row) ∨ block = (otherSide meId row, meId) := by
      rcases again with ⟨asked, addressed⟩ | ⟨asked, addressed⟩
      all_goals
        rcases between with ⟨asked', addressed'⟩ | ⟨asked', addressed'⟩
        all_goals
          simp only [Prod.ext_iff]
          omega
    rcases pair with own | other
    · exact lifted own
    · rw [other] at before
      exact alone before

theorem kept_blocked {meId target : Nat} {existing : Option Nat} {t : Friendships}
    {row : FriendshipRow} (kept : Kept s) (own : OwnRow s (.blocking meId target existing))
    (written : writeBlock s.table meId target existing = .ok (t, row)) :
    Kept ⟨t, s.now, (meId, target) :: s.blocks⟩ := by
  obtain ⟨between, status, -, rows⟩ := writeBlock_ok written own.between
  intro block inForce
  have new : row ∈ t.rows := (rows row).mpr (.inl rfl)
  rcases List.mem_cons.mp inForce with rfl | before
  · exact ⟨row, new, between, status⟩
  · obtain ⟨other, here, again, blocked⟩ := kept block before
    by_cases replaced : ∀ id ∈ existing, other.id ≠ id
    · exact ⟨other, (rows other).mpr (.inr ⟨here, replaced⟩), again, blocked⟩
    · -- the row of this block is the one that is written again, for the same two players
      push Not at replaced
      obtain ⟨id, found, same⟩ := replaced
      have targeted := own.between id found other (Friendships.findById_some.mpr ⟨here, same⟩)
      refine ⟨row, new, ?_, status⟩
      rw [FriendshipRow.between_iff] at targeted again between ⊢
      rw [between, ← targeted, again]

theorem kept_accepted {id : Nat} {now : Int} {t : Friendships} {row : FriendshipRow}
    (kept : Kept s)
    (updated : s.table.update id ⟨.accepted, none, some (some now)⟩ = .ok (t, row)) :
    Kept ⟨t, s.now, s.blocks⟩ := by
  obtain ⟨before, found, rfl, checked, -⟩ := Friendships.update_ok updated
  obtain ⟨inside, own⟩ := Friendships.findById_some.mp found
  intro block inForce
  obtain ⟨other, here, between, blocked⟩ := kept block inForce
  refine ⟨other, (mem_update updated).mpr (.inr ⟨here, fun same => ?_⟩), between, blocked⟩
  rw [Friendships.findById_some.mpr ⟨here, same⟩] at found
  cases found
  -- the check constraint refuses an acceptance that would leave a blocker
  have blocker := (s.table.checked before here).friendships_blocked_by_consistent.mp blocked
  cases checked.friendships_blocked_by_consistent.mpr blocker

theorem kept_iff {call : FriendCall} (effect : Effect s call s') (recorded : Recorded s)
    (own : OwnRow s call) (kept : Kept s) : Kept s' ↔ Lifts s call := by
  cases effect with
  | nothing call missing =>
      refine iff_of_true kept ?_
      cases call with
      | removing id | unblocking meId id =>
          intro row found
          rw [missing id rfl] at found
          cases found
      | _ => trivial
  | requested meId target t row created =>
      refine iff_of_true (fun block inForce => ?_) trivial
      obtain ⟨other, here, between, blocked⟩ := kept block inForce
      exact ⟨other, (mem_create created).mpr (.inl here), between, blocked⟩
  | accepted id t row updated => exact iff_of_true (kept_accepted kept updated) trivial
  | removed id t row found deleted =>
      rw [kept_removed recorded kept found deleted]
      simp only [Lifts, found, Option.mem_def, Option.some.injEq, forall_eq']
  | unblocked meId id t row found deleted =>
      rw [kept_unblocked kept found deleted (own.2 row found)]
      simp only [Lifts, found, Option.mem_def, Option.some.injEq, forall_eq']
  | blocked meId target existing t row written =>
      exact iff_of_true (kept_blocked kept own written) trivial

/-- A request creates the row of its pair, so there is none; an acceptance leaves no blocker. -/
theorem refuses_of_kept {call : FriendCall} (kept : Kept s) : Refuses players s call := by
  intro succeeded
  cases call with
  | creating meId target =>
      simp only [act] at succeeded
      split at succeeded
      · rename_i t row created
        obtain ⟨-, -, -, none⟩ := Friendships.create_ok created
        refine ⟨fun inForce => ?_, fun inForce => ?_⟩
        · obtain ⟨other, here, between, -⟩ := kept _ inForce
          exact none other here between
        · obtain ⟨other, here, between, -⟩ := kept _ inForce
          exact none other here between.symm
      · cases succeeded
  | accepting id =>
      simp only [act] at succeeded
      split at succeeded
      · rename_i t new updated
        obtain ⟨before, found, rfl, checked, -⟩ := Friendships.update_ok updated
        intro row same
        rw [Option.mem_def, found] at same
        cases same
        obtain ⟨inside, -⟩ := Friendships.findById_some.mp found
        have unblocked (other : FriendshipRow) (here : other ∈ s.table.rows)
            (between : other.Between before.requesterId before.addresseeId)
            (blocked : other.status = .blocked) : False := by
          cases Friendships.same_pair here inside between (.inl ⟨rfl, rfl⟩)
          have blocker :=
            (s.table.checked before here).friendships_blocked_by_consistent.mp blocked
          cases checked.friendships_blocked_by_consistent.mpr blocker
        refine ⟨fun inForce => ?_, fun inForce => ?_⟩
        · obtain ⟨other, here, between, blocked⟩ := kept _ inForce
          exact unblocked other here between blocked
        · obtain ⟨other, here, between, blocked⟩ := kept _ inForce
          exact unblocked other here between.symm blocked
      · cases succeeded
  | _ => trivial

theorem friends_outline : Outline (friends players) (fun _ _ => True) Recorded OwnRow where
  starts s initial block shown := by
    change s.blocks = s.table.blocked at initial
    rw [initial]
    exact shown
  enters s call _ arrives := by
    cases call with
    | begun request => trivial
    | _ => cases arrives
  acts s call recorded own _ := recorded_step (advance_effect call) recorded own
  continues s call rest _ _ _ next := by
    exact (ownRow_next next).persists (advance_effect call).persists
  stable s call other _ _ _ own := own.persists (advance_effect call).persists
  events s now t recorded happened := by
    cases happened
    exact ⟨recorded, fun other own => own.persists (.refl s.table)⟩

/-- As long as no block is taken along, the blocks in force show in the table. -/
theorem lifts_outline :
    Outline (friends players) Lifts (fun s => Recorded s ∧ Kept s) OwnRow where
  starts s initial := ⟨friends_outline.starts s initial, kept_of_blocked initial⟩
  enters s call both arrives := friends_outline.enters s call both.1 arrives
  acts s call both own lifts :=
    ⟨friends_outline.acts s call both.1 own trivial,
      (kept_iff (advance_effect call) both.1 own both.2).mpr lifts⟩
  continues s call rest both own _ next :=
    friends_outline.continues s call rest both.1 own trivial next
  stable s call other both own _ others :=
    friends_outline.stable s call other both.1 own trivial others
  events s now t both happened := by
    obtain ⟨recorded, others⟩ := friends_outline.events s now t both.1 happened
    cases happened
    exact ⟨⟨recorded, both.2⟩, others⟩

end Blocks

/-- In every run of the requests, every block stays in the table and neither a request nor an
acceptance between the two succeeds until who has set it lifts it, exactly when no deletion of a
row takes a block along that it does not lift. -/
theorem block_lasts (players : Players) (start after : Pool Friends FriendCall)
    (labels : List (Label FriendCall Int)) (initial : (friends players).system.initial start)
    (ran : (friends players).system.run start labels = some after) :
    ((friends players).system.Always (fun pool => Kept pool.shared) start labels ∧
        System.Guarded (Advancing (Refuses players)) (friends players).system start labels) ↔
      System.Guarded (Advancing Lifts) (friends players).system start labels := by
  have exactly := friends_outline.always_iff Kept
    (fun s initial => kept_of_blocked initial)
    (fun s call recorded own kept => kept_iff (advance_effect call) recorded own kept)
    (fun s now t _ kept happened => by
      cases happened
      exact kept)
    initial ran
  constructor
  · exact fun both => exactly.mp both.1
  · intro lifts
    refine ⟨exactly.mpr lifts, ?_⟩
    apply lifts.under (Holds (fun s => Recorded s ∧ Kept s) OwnRow)
    · intro s label t holds lifts taken
      exact lifts_outline.kept holds lifts taken
    · intro s label holds _
      cases label with
      | advance index => exact fun call _ => refuses_of_kept holds.1.2
      | _ => trivial
    · exact lifts_outline.start initial

/-- Users are their own players here, and nobody has met yet. -/
def everyone : Players where
  findSummaryByUserId := some
  findById _ := true

def strangers : Pool Friends FriendCall where
  shared := ⟨⟨[], 1, by simp, by decide, by decide, by simp⟩, 0, []⟩
  inFlight := []

/-- Player 1 blocks player 2, who blocks him too and lifts that; then player 2 asks him. -/
def blockInReturn : List (Label FriendCall Int) :=
  [.arrive (.begun (.block 1 2)), .advance 0, .advance 0, .advance 0, .advance 0,
    .arrive (.begun (.block 2 1)), .advance 0, .advance 0, .advance 0, .advance 0,
    .arrive (.begun (.unblock 2 1)), .advance 0, .advance 0, .advance 0,
    .arrive (.begun (.request 2 1)), .advance 0, .advance 0, .advance 0, .advance 0]

theorem blockInReturn_end :
    ((friends everyone).system.run strangers blockInReturn).map
      (fun pool => (pool.inFlight, pool.shared.blocks, pool.shared.table.rows)) =
      some ([], [(1, 2)], [⟨2, 2, 1, .pending, none, none⟩]) := by
  decide +kernel

theorem block_lifted_by_blocked :
    (friends everyone).system.initial strangers ∧
      ∃ pool, (friends everyone).system.run strangers blockInReturn = some pool ∧
        pool.inFlight = [] ∧ (1, 2) ∈ pool.shared.blocks ∧ ¬ Kept pool.shared := by
  obtain ⟨pool, ran, seen⟩ := Option.map_eq_some_iff.mp blockInReturn_end
  simp only [Prod.mk.injEq] at seen
  obtain ⟨rest, blocks, rows⟩ := seen
  have inForce : (1, 2) ∈ pool.shared.blocks := by
    rw [blocks]
    exact List.mem_singleton_self _
  refine ⟨⟨rfl, rfl⟩, pool, ran, rest, inForce, fun kept => ?_⟩
  obtain ⟨row, here, -, blocked⟩ := kept _ inForce
  rw [rows] at here
  rw [List.mem_singleton.mp here] at blocked
  cases blocked

/-- Here player 2 cannot lift the block; player 1 does. -/
def blockLifted : List (Label FriendCall Int) :=
  [.arrive (.begun (.block 1 2)), .advance 0, .advance 0, .advance 0, .advance 0,
    .arrive (.begun (.unblock 2 1)), .advance 0, .advance 0,
    .arrive (.begun (.request 2 1)), .advance 0, .advance 0, .advance 0,
    .arrive (.begun (.unblock 1 1)), .advance 0, .advance 0, .advance 0,
    .arrive (.begun (.request 2 1)), .advance 0, .advance 0, .advance 0, .advance 0]

theorem blockLifted_lasts :
    (friends everyone).system.Always (fun pool => Kept pool.shared) strangers blockLifted ∧
      System.Guarded (Advancing (Refuses everyone)) (friends everyone).system strangers
        blockLifted := by
  have ran : ((friends everyone).system.run strangers blockLifted).isSome := by decide +kernel
  obtain ⟨pool, ran⟩ := Option.isSome_iff_exists.mp ran
  exact (block_lasts everyone strangers pool blockLifted ⟨rfl, rfl⟩ ran).mpr (by decide +kernel)

end Farzin.Friend
