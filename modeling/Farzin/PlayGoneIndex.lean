import Farzin.Interleaving
import Farzin.PlayClock
import Farzin.Table

set_option autoImplicit false

/- The marks of the players who have left a game, and the index in which the sweeper looks for them
(`play/clock.store.ts`). Redis holds text; a text is a list of characters here. -/
namespace Farzin.Play

open Transition Interleaving

def ClockSide.letter : ClockSide → Char
  | .w => 'w'
  | .b => 'b'

/-- The member of `game:gone:index` for a side of a game. -/
def goneMember (gameId : List Char) (side : ClockSide) : List Char :=
  gameId ++ [':', side.letter]

/-- What stands before and after the last colon. -/
def splitLastColon : List Char → Option (List Char × List Char)
  | [] => none
  | c :: text =>
      match splitLastColon text with
      | some (before, after) => some (c :: before, after)
      | none => if c = ':' then some ([], text) else none

/-- How `listGone` reads a member; `none` when it is no member of its own. -/
def parseGoneMember (member : List Char) : Option (List Char × ClockSide) :=
  match splitLastColon member with
  | some (gameId, ['w']) => if gameId = [] then none else some (gameId, .w)
  | some (gameId, ['b']) => if gameId = [] then none else some (gameId, .b)
  | _ => none

/-- A key `game:gone:{gameId}:{side}` with its value; no value stands for a number that is not
finite. -/
structure GoneKey where
  gameId : List Char
  side : ClockSide
  atMs : Option Int
  deriving DecidableEq, Repr

def GoneKey.member (key : GoneKey) : List Char := goneMember key.gameId key.side

/-- The set `index` is listed in the order in which Redis answers. -/
structure GoneStore where
  keys : List GoneKey
  index : List (List Char)
  deriving DecidableEq, Repr

namespace GoneStore

variable (s : GoneStore)

def get (gameId : List Char) (side : ClockSide) : Option (Option Int) :=
  (s.keys.find? fun key => key.gameId = gameId ∧ key.side = side).map GoneKey.atMs

def del (gameId : List Char) (side : ClockSide) : GoneStore :=
  { s with keys := s.keys.filter fun key => ¬ (key.gameId = gameId ∧ key.side = side) }

def srem (member : List Char) : GoneStore :=
  { s with index := s.index.filter fun other => other ≠ member }

/-- The `MULTI` of `markGone`. -/
def mark (gameId : List Char) (side : ClockSide) (atMs : Option Int) : GoneStore where
  keys := (s.del gameId side).keys ++ [⟨gameId, side, atMs⟩]
  index := if goneMember gameId side ∈ s.index then s.index
    else s.index ++ [goneMember gameId side]

/-- The `MULTI` of `clearGone`. -/
def unmark (gameId : List Char) (side : ClockSide) : GoneStore :=
  (s.del gameId side).srem (goneMember gameId side)

end GoneStore

/-- A call by its next await; those of `listGone` carry the members that are still to come. -/
inductive GoneCall where
  | markGone (gameId : List Char) (side : ClockSide) (atMs : Option Int)
  | clearGone (gameId : List Char) (side : ClockSide)
  | clear (gameId : List Char)
  | listGone
  | reading (gameId : List Char) (side : ClockSide) (member : List Char)
      (members : List (List Char))
  | forgetting (member : List Char) (members : List (List Char))
  | discarding (gameId : List Char) (side : ClockSide) (members : List (List Char))
  deriving DecidableEq, Repr

/-- The loop of `listGone` up to its next await. -/
def nextGone : List (List Char) → Option GoneCall
  | [] => none
  | member :: members =>
      match parseGoneMember member with
      | none => some (.forgetting member members)
      | some (gameId, side) => some (.reading gameId side member members)

def GoneStore.serve (s : GoneStore) : GoneCall → GoneStore × Option GoneCall
  | .markGone gameId side atMs => (s.mark gameId side atMs, none)
  | .clearGone gameId side => (s.unmark gameId side, none)
  | .clear gameId => ((s.unmark gameId .w).unmark gameId .b, none)
  | .listGone => (s, nextGone s.index)
  | .reading gameId side member members =>
      match s.get gameId side with
      | none => (s, some (.forgetting member members))
      | some none => (s, some (.discarding gameId side members))
      | some (some _) => (s, nextGone members)
  | .forgetting member members => (s.srem member, nextGone members)
  | .discarding gameId side members => (s.unmark gameId side, nextGone members)

/-- A key runs out of time, or Redis lists the set in another order. -/
inductive GoneEvent where
  | expire (gameId : List Char) (side : ClockSide)
  | reorder (index : List (List Char))
  deriving DecidableEq, Repr

def GoneStore.happen (s : GoneStore) : GoneEvent → Option GoneStore
  | .expire gameId side => some (s.del gameId side)
  | .reorder index => if index.Perm s.index then some { s with index := index } else none

def goneIndex : Program GoneStore GoneCall GoneEvent where
  initial s := s = ⟨[], []⟩
  arrives _ call :=
    match call with
    | .markGone _ _ _ | .clearGone _ _ | .clear _ | .listGone => true
    | _ => false
  advance := GoneStore.serve
  event := GoneStore.happen

/-- Every mark is in the index. -/
def GoneStore.Complete (s : GoneStore) : Prop := ∀ key ∈ s.keys, key.member ∈ s.index

/-- A member that `listGone` takes off the index has no key at that moment. -/
def ForgetsMissing (s : GoneStore) : GoneCall → Prop
  | .forgetting member _ => ∀ key ∈ s.keys, key.member ≠ member
  | _ => True

instance forgetsMissingDecidable (s : GoneStore) : (call : GoneCall) →
    Decidable (ForgetsMissing s call)
  | .forgetting member _ => inferInstanceAs (Decidable (∀ key ∈ s.keys, key.member ≠ member))
  | .markGone _ _ _ | .clearGone _ _ | .clear _ | .listGone | .reading _ _ _ _
  | .discarding _ _ _ => .isTrue trivial

theorem goneMember_injective {gameId other : List Char} {side side' : ClockSide}
    (same : goneMember gameId side = goneMember other side') : gameId = other ∧ side = side' := by
  obtain ⟨ids, letters⟩ := List.append_inj' same rfl
  refine ⟨ids, ?_⟩
  cases side <;> cases side' <;> first | rfl | cases letters

theorem splitLastColon_append (before : List Char) {after : List Char} (plain : ':' ∉ after) :
    splitLastColon (before ++ ':' :: after) = some (before, after) := by
  have none : ∀ text : List Char, ':' ∉ text → splitLastColon text = none := by
    intro text plain
    induction text with
    | nil => rfl
    | cons c text ih =>
        rw [splitLastColon, ih fun inside => plain (List.mem_cons_of_mem c inside)]
        have apart : c ≠ ':' := by
          rintro rfl
          exact plain List.mem_cons_self
        exact if_neg apart
  induction before with
  | nil =>
      rw [List.nil_append, splitLastColon, none after plain]
      rfl
  | cons c before ih => rw [List.cons_append, splitLastColon, ih]

/-- A member is read as the side it was written for. -/
theorem parseGoneMember_goneMember (gameId : List Char) (side : ClockSide) (named : gameId ≠ []) :
    parseGoneMember (goneMember gameId side) = some (gameId, side) := by
  unfold parseGoneMember goneMember
  cases side <;> rw [splitLastColon_append gameId (by decide)] <;> exact if_neg named

namespace GoneStore

variable {s : GoneStore}

theorem Complete.del (complete : s.Complete) (gameId : List Char) (side : ClockSide) :
    (s.del gameId side).Complete :=
  fun key listed => complete key (List.mem_filter.mp listed).1

theorem complete_srem (complete : s.Complete) (member : List Char) :
    (s.srem member).Complete ↔ ∀ key ∈ s.keys, key.member ≠ member := by
  constructor
  · intro still key listed
    simpa using (List.mem_filter.mp (still key listed)).2
  · intro missing key listed
    exact List.mem_filter.mpr ⟨complete key listed, by simpa using missing key listed⟩

theorem Complete.unmark (complete : s.Complete) (gameId : List Char) (side : ClockSide) :
    (s.unmark gameId side).Complete := by
  apply (complete_srem (complete.del gameId side) _).mpr
  intro key listed same
  have other := (List.mem_filter.mp listed).2
  have equal := goneMember_injective same
  simp [equal] at other

theorem Complete.mark (complete : s.Complete) (gameId : List Char) (side : ClockSide)
    (atMs : Option Int) : (s.mark gameId side atMs).Complete := by
  intro key listed
  have known : key.member ∈ s.index ∨ key.member = goneMember gameId side := by
    rcases List.mem_append.mp listed with old | new
    · exact .inl (complete.del gameId side key old)
    · rw [List.mem_singleton.mp new]
      exact .inr rfl
  exact (Table.mem_addOnce s.index (goneMember gameId side) key.member).mpr known

/-- An await keeps the index complete exactly if it takes no member off it that has a key. -/
theorem serve_complete (complete : s.Complete) (call : GoneCall) :
    (s.serve call).1.Complete ↔ ForgetsMissing s call := by
  cases call with
  | markGone gameId side atMs => exact iff_of_true (complete.mark gameId side atMs) trivial
  | clearGone gameId side => exact iff_of_true (complete.unmark gameId side) trivial
  | clear gameId => exact iff_of_true ((complete.unmark gameId .w).unmark gameId .b) trivial
  | listGone => exact iff_of_true complete trivial
  | reading gameId side member members =>
      refine iff_of_true ?_ trivial
      rw [serve]
      split <;> exact complete
  | forgetting member members => exact complete_srem complete member
  | discarding gameId side members => exact iff_of_true (complete.unmark gameId side) trivial

theorem happen_complete (complete : s.Complete) {event : GoneEvent} {t : GoneStore}
    (happened : s.happen event = some t) : t.Complete := by
  cases event with
  | expire gameId side =>
      cases happened
      exact complete.del gameId side
  | reorder index =>
      rw [happen] at happened
      split at happened
      · rename_i same
        cases happened
        exact fun key listed => same.mem_iff.mpr (complete key listed)
      · cases happened

end GoneStore

/-- Calls rely on nothing. -/
theorem goneIndex_outline :
    Outline goneIndex (fun _ _ => True) (fun _ => True) (fun _ _ => True) where
  starts _ _ := trivial
  enters _ _ _ _ := trivial
  acts _ _ _ _ _ := trivial
  continues _ _ _ _ _ _ _ := trivial
  stable _ _ _ _ _ _ _ := trivial
  events _ _ _ _ _ := ⟨trivial, fun _ _ => trivial⟩

/-- The index is complete in every state of a run exactly if `listGone` takes members off it only
while they have no key; then it is complete at rest, and every member is read as it was written. -/
theorem gone_index_complete (labels : List (Label GoneCall GoneEvent))
    (after : Pool GoneStore GoneCall)
    (ran : goneIndex.system.run ⟨⟨[], []⟩, []⟩ labels = some after) :
    (goneIndex.system.Always (fun pool => pool.shared.Complete) ⟨⟨[], []⟩, []⟩ labels ↔
        System.Guarded (Advancing ForgetsMissing) goneIndex.system ⟨⟨[], []⟩, []⟩ labels) ∧
      (System.Guarded (Advancing ForgetsMissing) goneIndex.system ⟨⟨[], []⟩, []⟩ labels →
        goneIndex.system.Always (fun pool => pool.inFlight = [] → pool.shared.Complete)
          ⟨⟨[], []⟩, []⟩ labels) ∧
      ∀ gameId side, gameId ≠ [] →
        parseGoneMember (goneMember gameId side) = some (gameId, side) := by
  have initial : goneIndex.system.initial ⟨⟨[], []⟩, []⟩ := ⟨rfl, rfl⟩
  have exactly := goneIndex_outline.always_iff GoneStore.Complete
    (by
      rintro s rfl key listed
      cases listed)
    (fun s call _ _ complete => GoneStore.serve_complete complete call)
    (fun s event t _ complete happened => GoneStore.happen_complete complete happened)
    initial ran
  refine ⟨exactly, fun guarded => ?_, parseGoneMember_goneMember⟩
  apply (exactly.mpr guarded).imp
  intro pool complete _
  exact complete

/-- The mark of White runs out; while `listGone` takes its member off the index White leaves
again. -/
def leavesDuringListing : List (Label GoneCall GoneEvent) :=
  [.arrive (.markGone ['g'] .w (some 1)), .advance 0, .event (.expire ['g'] .w),
    .arrive .listGone, .advance 0, .advance 0, .arrive (.markGone ['g'] .w (some 90000000)),
    .advance 1, .advance 0]

theorem leavesDuringListing_lost :
    goneIndex.system.run ⟨⟨[], []⟩, []⟩ leavesDuringListing =
      some ⟨⟨[⟨['g'], .w, some 90000000⟩], []⟩, []⟩ := by
  decide +kernel

theorem gone_mark_forgotten :
    ∃ after, goneIndex.system.run ⟨⟨[], []⟩, []⟩ leavesDuringListing = some after ∧
      after.inFlight = [] ∧ ¬ after.shared.Complete := by
  refine ⟨_, leavesDuringListing_lost, rfl, fun complete => ?_⟩
  have listed := complete _ (List.mem_singleton_self _)
  cases listed

/-- Here White leaves again after the member is gone. -/
def leavesAfterListing : List (Label GoneCall GoneEvent) :=
  [.arrive (.markGone ['g'] .w (some 1)), .advance 0, .event (.expire ['g'] .w),
    .arrive .listGone, .advance 0, .advance 0, .advance 0,
    .arrive (.markGone ['g'] .w (some 90000000)), .advance 0]

theorem leavesAfterListing_complete :
    goneIndex.system.Always (fun pool => pool.inFlight = [] → pool.shared.Complete)
      ⟨⟨[], []⟩, []⟩ leavesAfterListing := by
  have ran : (goneIndex.system.run ⟨⟨[], []⟩, []⟩ leavesAfterListing).isSome := by decide +kernel
  obtain ⟨after, ran⟩ := Option.isSome_iff_exists.mp ran
  exact (gone_index_complete leavesAfterListing after ran).2.1 (by decide +kernel)

end Farzin.Play
