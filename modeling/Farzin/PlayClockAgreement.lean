import Farzin.PlayLog

set_option autoImplicit false

/- When the clock entry of a running game is that of its move log. -/
namespace Farzin.Play

section Clocks

variable {config : ClockConfig} {moves : List MoveRow}

/-- A clock that the next move may record: it shows the opponent's turn and left the
opponent's time alone. -/
structure Continues (config : ClockConfig) (moves : List MoveRow) (newClock : ClockState) :
    Prop where
  turn : newClock.turn = sideAfter (moves.length + 1)
  time : remainingOf newClock (sideAfter (moves.length + 1)) =
    recordedMs config moves (sideAfter (moves.length + 1))

theorem Agrees.applyMove {state : ClockState} {now : Int} {result : ApplyMoveResult}
    (agrees : Agrees config moves state) (applied : applyMove config state now = .ok result)
    (accepted : result.flagged = false) : Continues config moves result.state := by
  obtain ⟨charge, -, outcome⟩ := applyMove_cases applied
  rcases outcome with ⟨fallen, -⟩ | ⟨-, turn, -, time⟩
  · rw [accepted] at fallen
    cases fallen
  · have next : sideAfter (moves.length + 1) = state.turn.other := by
      rw [sideAfter_succ, agrees.turn]
    refine ⟨turn.trans next.symm, ?_⟩
    rw [next, time]
    exact agrees.times _

theorem firstClock_continues (now : Int) : Continues config [] (firstClock config now) := by
  constructor <;> rfl

/-- Whose move the ply is. -/
theorem ply_side (plyCount : Nat) (side : ClockSide) :
    ((plyCount + 1) % 2 = 1 ↔ side = .w) ↔ side = sideAfter plyCount := by
  unfold sideAfter
  rcases Nat.mod_two_eq_zero_or_one plyCount with even | odd
  · have next : (plyCount + 1) % 2 = 1 := by omega
    simp [even, next]
  · have next : (plyCount + 1) % 2 ≠ 1 := by omega
    cases side <;> simp [odd, next]

theorem Continues.append {newClock : ClockState} (continues : Continues config moves newClock)
    {move : MoveRow} (ply : move.ply = moves.length + 1)
    (recorded : move.clockAfterMs = some (remainingOf newClock (sideAfter moves.length))) :
    Agrees config (moves ++ [move]) newClock := by
  constructor
  · rw [List.length_append, List.length_singleton]
    exact continues.turn
  · intro side
    rw [recordedMs_append config moves move _ recorded, ply]
    by_cases mover : side = sideAfter moves.length
    · rw [if_pos ((ply_side _ _).mpr mover), mover]
    · rw [if_neg fun same => mover ((ply_side _ _).mp same)]
      have opponent : side = sideAfter (moves.length + 1) := by
        rw [sideAfter_succ]
        revert mover
        cases side <;> cases sideAfter moves.length <;> decide
      rw [opponent]
      exact continues.time

theorem listMoves_eq {db : GameDb}
    (plies : db.moves.map MoveRow.ply = List.range' 1 db.moves.length) : db.listMoves = db.moves := by
  apply List.Pairwise.insertionSort_eq
  have sorted : (db.moves.map MoveRow.ply).Pairwise (· ≤ ·) := by
    rw [plies]
    exact List.pairwise_le_range'
  exact List.pairwise_map.mp sorted

theorem reconstruct_agrees {db : GameDb} {game : LoadedGame} (now : Int) (fits : GameFits db game)
    (plies : db.moves.map MoveRow.ply = List.range' 1 db.moves.length)
    (last : game.plyCount = db.moves.length) :
    Agrees (clockConfig db.row) db.moves (reconstructClock game db.listMoves now) := by
  rw [listMoves_eq plies, ← fits.config]
  constructor
  · rw [← last]
    exact fits.turn
  · intro side
    simp only [reconstructClock, foldl_recordTimes]
    cases side <;> rfl

end Clocks

section Guard

/-- `clocks.init` is called, not the compare-and-set. -/
def ClockWrite.resets (write : ClockWrite) : Prop := write.entryVersion = none ∨ write.ply = 1

/-- A write of the clock comes in order: an `init` while its own move is still the last one,
a compare-and-set that finds its version while the entry is the one its request has read. -/
def WritesInOrder (w : World) : WorldLabel → Prop
  | .advance index =>
      ∀ write, w.inFlight[index]? = some (.writing write) → write.ended = false →
        (write.resets → write.ply = w.db.moves.length) ∧
          (¬ write.resets → ∀ stored, w.clock = some stored →
            write.entryVersion = some stored.entry.version → write.source = some stored.ply)
  | _ => True

end Guard

section Invariant

def Progress.write : Progress → Option ClockWrite
  | .writing write => some write
  | _ => none

/-- The entry whose time a request is going by, for a move. -/
def Progress.source : Progress → Option Nat
  | .counting pending => pending.source
  | .appending pending _ => pending.source
  | .writing write => write.source
  | _ => none

section Knowledge

variable (config : ClockConfig) (moves : List MoveRow) (clock : Option StoredClock)

structure PendingKnows (pending : PendingMove) : Prop where
  version : pending.entryVersion = none ↔ pending.source = none
  first : pending.game.plyCount = 0 → pending.source = none
  source : ∀ i, pending.source = some i → i ≤ moves.length
  rebuilt : pending.game.plyCount = moves.length → pending.source = none →
    Continues config moves pending.newClock
  charged : pending.game.plyCount = moves.length → ∀ stored, clock = some stored →
    pending.source = some stored.ply → stored.ply = moves.length →
    Agrees config moves stored.entry.state → Continues config moves pending.newClock

structure WriteKnows (write : ClockWrite) : Prop where
  version : write.entryVersion = none ↔ write.source = none
  first : write.ply = 1 → write.source = none
  source : ∀ i, write.source = some i → i < write.ply
  rebuilt : write.source = none → Agrees config (moves.take write.ply) write.newClock
  charged : ∀ stored, clock = some stored → write.source = some stored.ply →
    stored.ply + 1 = write.ply → Agrees config (moves.take stored.ply) stored.entry.state →
    Agrees config (moves.take write.ply) write.newClock

/-- The entry belongs to some move of the log. The requests of later moves have yet to write,
and so has an earlier one if the entry does not agree with the log. -/
structure StoredKnows (inFlight : List Progress) (stored : StoredClock) : Prop where
  ply : stored.ply ≤ moves.length
  unwritten : ∀ write, .writing write ∈ inFlight → write.ply ≠ stored.ply
  behind : .clearing ∈ inFlight ∨ ∀ k, stored.ply < k → k ≤ moves.length →
    ∃ write, .writing write ∈ inFlight ∧ write.ply = k
  agrees : .clearing ∈ inFlight ∨ Agrees config (moves.take stored.ply) stored.entry.state ∨
    ∃ write, .writing write ∈ inFlight ∧ write.ply < stored.ply ∧
      write.source ≠ some stored.ply

end Knowledge

def DifferentPlies (p q : Progress) : Prop :=
  ∀ a b, p.write = some a → q.write = some b → a.ply ≠ b.ply

/-- A clock entry that does not agree with the log will be cleared. -/
structure HealsWith (config : ClockConfig) (moves : List MoveRow) (clock : Option StoredClock)
    (inFlight : List Progress) : Prop where
  pendings : ∀ p ∈ inFlight, ∀ pending, p.pending = some pending →
    PendingKnows config moves clock pending
  writes : ∀ write, .writing write ∈ inFlight →
    write.ply ≤ moves.length ∧ WriteKnows config moves clock write
  distinct : inFlight.Pairwise DifferentPlies
  unread : ∀ write, .writing write ∈ inFlight → ∀ p ∈ inFlight, p.source ≠ some write.ply
  stored : ∀ stored, clock = some stored → StoredKnows config moves inFlight stored

def World.Heals (w : World) : Prop :=
  HealsWith (clockConfig w.db.row) w.db.moves w.clock w.inFlight

/-- What the rule is for: with no request in flight the entry agrees with the log. -/
theorem World.Heals.settled {w : World} (heals : w.Heals) (quiet : w.inFlight = [])
    {stored : StoredClock} (found : w.clock = some stored) :
    Agrees (clockConfig w.db.row) w.db.moves stored.entry.state := by
  obtain ⟨ply, -, behind, agrees⟩ := HealsWith.stored heals stored found
  rw [quiet] at behind agrees
  have last : stored.ply = w.db.moves.length := by
    rcases behind with impossible | later
    · cases impossible
    · by_contra apart
      obtain ⟨write, inside, -⟩ := later w.db.moves.length (by omega) le_rfl
      cases inside
  rcases agrees with impossible | agrees | ⟨write, inside, -⟩
  · cases impossible
  · rw [last, List.take_length] at agrees
    exact agrees
  · cases inside

end Invariant

section Lists

variable {α : Type} {l : List α} {i : Nat} {a b : α}

theorem mem_eraseIdx_of_ne (here : l[i]? = some a) (inside : b ∈ l) (apart : b ≠ a) :
    b ∈ l.eraseIdx i := by
  rw [List.mem_eraseIdx_iff_getElem?]
  obtain ⟨j, there⟩ := List.mem_iff_getElem?.mp inside
  refine ⟨j, ?_, there⟩
  rintro rfl
  rw [here] at there
  exact apart (Option.some.inj there).symm

theorem rel_of_mem_eraseIdx {R : α → α → Prop} (symmetric : ∀ x y, R x y → R y x)
    (pairwise : l.Pairwise R) (here : l[i]? = some a) (inside : b ∈ l.eraseIdx i) : R a b := by
  obtain ⟨j, apart, there⟩ := List.mem_eraseIdx_iff_getElem?.mp inside
  obtain ⟨iLt, rfl⟩ := List.getElem?_eq_some_iff.mp here
  obtain ⟨jLt, rfl⟩ := List.getElem?_eq_some_iff.mp there
  have ordered := List.pairwise_iff_getElem.mp pairwise
  rcases lt_or_gt_of_ne apart with before | after
  · exact symmetric _ _ (ordered j i jLt iLt before)
  · exact ordered i j iLt jLt after

end Lists

section Preservation

variable {config : ClockConfig} {moves : List MoveRow} {clock : Option StoredClock}
  {inFlight : List Progress} {index : Nat} {p : Progress}

theorem differentPlies_symm (p q : Progress) (apart : DifferentPlies p q) : DifferentPlies q p :=
  fun a b left right => (apart b a right left).symm

theorem differentPlies_none {p : Progress} (plain : p.write = none) (q : Progress) :
    DifferentPlies q p := by
  intro a b _ same
  rw [plain] at same
  cases same

/-- What remains in flight besides a request that moves on. -/
theorem mem_rest {rest : Option Progress} {q : Progress} :
    q ∈ inFlight.eraseIdx index ++ rest.toList ↔ q ∈ inFlight.eraseIdx index ∨ rest = some q := by
  rw [List.mem_append, Option.mem_toList]

theorem pairwise_rest {rest : Option Progress} (distinct : inFlight.Pairwise DifferentPlies)
    (apart : ∀ q, rest = some q → ∀ r ∈ inFlight.eraseIdx index, DifferentPlies r q) :
    (inFlight.eraseIdx index ++ rest.toList).Pairwise DifferentPlies := by
  rw [List.pairwise_append]
  refine ⟨distinct.sublist (List.eraseIdx_sublist ..), ?_, ?_⟩
  · cases rest with
    | none => exact .nil
    | some q => exact List.pairwise_singleton _ q
  · intro r inside q new
    exact apart q (Option.mem_toList.mp new) r inside

/-- A request joins that has not read an entry which is still to be written. -/
theorem HealsWith.add (heals : HealsWith config moves clock inFlight) {q : Progress}
    (plain : q.write = none)
    (knows : ∀ pending, q.pending = some pending → PendingKnows config moves clock pending)
    (unread : ∀ write, .writing write ∈ inFlight → q.source ≠ some write.ply) :
    HealsWith config moves clock (inFlight ++ [q]) := by
  have writesOld : ∀ write, .writing write ∈ inFlight ++ [q] → .writing write ∈ inFlight := by
    intro write inside
    rcases List.mem_append.mp inside with old | new
    · exact old
    · rw [← List.mem_singleton.mp new] at plain
      cases plain
  have stay : ∀ r ∈ inFlight, r ∈ inFlight ++ [q] := fun r inside => List.mem_append_left _ inside
  refine ⟨?_, ?_, ?_, ?_, ?_⟩
  · intro r inside pending same
    rcases List.mem_append.mp inside with old | new
    · exact heals.pendings r old pending same
    · rw [List.mem_singleton.mp new] at same
      exact knows pending same
  · intro write inside
    exact heals.writes write (writesOld write inside)
  · rw [List.pairwise_append]
    refine ⟨heals.distinct, List.pairwise_singleton _ q, fun r _ s new => ?_⟩
    rw [List.mem_singleton.mp new]
    exact differentPlies_none plain r
  · intro write inside r member
    rcases List.mem_append.mp member with old | new
    · exact heals.unread write (writesOld write inside) r old
    · rw [List.mem_singleton.mp new]
      exact unread write (writesOld write inside)
  · intro stored found
    obtain ⟨ply, unwritten, behind, agrees⟩ := heals.stored stored found
    refine ⟨ply, fun write inside => unwritten write (writesOld write inside), ?_, ?_⟩
    · refine behind.imp (stay _) fun later k above below => ?_
      obtain ⟨write, inside, same⟩ := later k above below
      exact ⟨write, stay _ inside, same⟩
    · refine agrees.imp (stay _) (Or.imp_right ?_)
      rintro ⟨write, inside, earlier⟩
      exact ⟨write, stay _ inside, earlier⟩

/-- A request leaves that neither writes nor clears the clock. -/
theorem HealsWith.drop (heals : HealsWith config moves clock inFlight)
    (here : inFlight[index]? = some p) (plain : p.write = none) (calm : p ≠ .clearing) :
    HealsWith config moves clock (inFlight.eraseIdx index) := by
  have old : ∀ q, q ∈ inFlight.eraseIdx index → q ∈ inFlight :=
    fun q inside => List.mem_of_mem_eraseIdx inside
  have writesStay : ∀ write, .writing write ∈ inFlight →
      .writing write ∈ inFlight.eraseIdx index := by
    intro write inside
    apply mem_eraseIdx_of_ne here inside
    rintro rfl
    cases plain
  have clearingStays : Progress.clearing ∈ inFlight → Progress.clearing ∈ inFlight.eraseIdx index :=
    fun inside => mem_eraseIdx_of_ne here inside calm.symm
  refine ⟨fun q inside => heals.pendings q (old q inside),
    fun write inside => heals.writes write (old _ inside),
    heals.distinct.sublist (List.eraseIdx_sublist ..),
    fun write inside q member => heals.unread write (old _ inside) q (old q member), ?_⟩
  intro stored found
  obtain ⟨ply, unwritten, behind, agrees⟩ := heals.stored stored found
  refine ⟨ply, fun write inside => unwritten write (old _ inside), ?_, ?_⟩
  · refine behind.imp clearingStays fun later k above below => ?_
    obtain ⟨write, inside, same⟩ := later k above below
    exact ⟨write, writesStay write inside, same⟩
  · refine agrees.imp clearingStays (Or.imp_right ?_)
    rintro ⟨write, inside, earlier⟩
    exact ⟨write, writesStay write inside, earlier⟩

/-- A request that neither writes nor clears the clock moves on. -/
theorem HealsWith.proceed (heals : HealsWith config moves clock inFlight)
    (here : inFlight[index]? = some p) (plain : p.write = none) (calm : p ≠ .clearing)
    {rest : Option Progress}
    (knows : ∀ q, rest = some q → q.write = none ∧
      (∀ pending, q.pending = some pending → PendingKnows config moves clock pending) ∧
      ∀ ply, q.source = some ply →
        (∃ stored, clock = some stored ∧ stored.ply = ply) ∨ p.source = some ply) :
    HealsWith config moves clock (inFlight.eraseIdx index ++ rest.toList) := by
  have left := heals.drop here plain calm
  cases rest with
  | none =>
      rw [Option.toList_none, List.append_nil]
      exact left
  | some q =>
      obtain ⟨plainRest, pendings, source⟩ := knows q rfl
      apply left.add plainRest pendings
      intro write inside read
      have writing := List.mem_of_mem_eraseIdx inside
      rcases source _ read with ⟨stored, found, ply⟩ | carried
      · exact (heals.stored stored found).unwritten write writing ply.symm
      · exact heals.unread write writing p (List.mem_of_getElem? here) carried

/-- A request turns to clearing the entry. -/
theorem HealsWith.clearing (heals : HealsWith config moves clock inFlight) :
    HealsWith config moves clock
      (inFlight.eraseIdx index ++ (some Progress.clearing).toList) := by
  have old : ∀ q, q ∈ inFlight.eraseIdx index → q ∈ inFlight :=
    fun q inside => List.mem_of_mem_eraseIdx inside
  have writesOld : ∀ write,
      .writing write ∈ inFlight.eraseIdx index ++ (some Progress.clearing).toList →
        .writing write ∈ inFlight := by
    intro write inside
    rcases mem_rest.mp inside with before | new
    · exact old _ before
    · cases new
  have now : Progress.clearing ∈ inFlight.eraseIdx index ++ (some Progress.clearing).toList :=
    mem_rest.mpr (.inr rfl)
  refine ⟨?_, ?_, ?_, ?_, ?_⟩
  · intro q inside pending same
    rcases mem_rest.mp inside with before | new
    · exact heals.pendings q (old q before) pending same
    · cases new
      cases same
  · intro write inside
    exact heals.writes write (writesOld write inside)
  · refine pairwise_rest heals.distinct fun q new r _ => differentPlies_none ?_ r
    cases new
    rfl
  · intro write inside q member same
    rcases mem_rest.mp member with before | new
    · exact heals.unread write (writesOld write inside) q (old q before) same
    · cases new
      cases same
  · intro stored found
    obtain ⟨ply, unwritten, -, -⟩ := heals.stored stored found
    exact ⟨ply, fun write inside => unwritten write (writesOld write inside), .inl now, .inl now⟩

/-- Without an entry there is nothing to heal. -/
theorem HealsWith.cleared (heals : HealsWith config moves clock inFlight)
    {left : List Progress} (fewer : left.Sublist inFlight) : HealsWith config moves none left := by
  refine ⟨?_, ?_, heals.distinct.sublist fewer, ?_, ?_⟩
  · intro q inside pending same
    obtain ⟨version, first, source, rebuilt, -⟩ :=
      heals.pendings q (fewer.subset inside) pending same
    exact ⟨version, first, source, rebuilt, fun _ stored none => (by cases none)⟩
  · intro write inside
    obtain ⟨ply, version, first, source, rebuilt, -⟩ := heals.writes write (fewer.subset inside)
    exact ⟨ply, version, first, source, rebuilt, fun stored none => (by cases none)⟩
  · intro write inside q member
    exact heals.unread write (fewer.subset inside) q (fewer.subset member)
  · intro stored none
    cases none

/-- The clock of a request is stored and the request is over. -/
theorem HealsWith.store (heals : HealsWith config moves clock inFlight) {write : ClockWrite}
    (here : inFlight[index]? = some (.writing write)) (version : Nat)
    (behind : .clearing ∈ inFlight ∨ ∀ k, write.ply < k → k ≤ moves.length →
      ∃ other, .writing other ∈ inFlight ∧ other.ply = k)
    (agrees : .clearing ∈ inFlight ∨ Agrees config (moves.take write.ply) write.newClock ∨
      ∃ other, other ≠ write ∧ .writing other ∈ inFlight ∧ other.ply < write.ply) :
    HealsWith config moves (some ⟨⟨version, write.newClock⟩, write.ply⟩)
      (inFlight.eraseIdx index ++ (none : Option Progress).toList) := by
  have inside : .writing write ∈ inFlight := List.mem_of_getElem? here
  rw [Option.toList_none, List.append_nil]
  have old : ∀ q, q ∈ inFlight.eraseIdx index → q ∈ inFlight :=
    fun q member => List.mem_of_mem_eraseIdx member
  have others : ∀ other, other ≠ write → .writing other ∈ inFlight →
      .writing other ∈ inFlight.eraseIdx index := by
    intro other apart member
    apply mem_eraseIdx_of_ne here member
    intro same
    exact apart (Progress.writing.inj same)
  have clearingStays : Progress.clearing ∈ inFlight → Progress.clearing ∈ inFlight.eraseIdx index :=
    fun member => mem_eraseIdx_of_ne here member (by intro same; cases same)
  refine ⟨?_, ?_, heals.distinct.sublist (List.eraseIdx_sublist ..), ?_, ?_⟩
  · intro q member pending same
    obtain ⟨versions, first, source, rebuilt, -⟩ := heals.pendings q (old q member) pending same
    refine ⟨versions, first, source, rebuilt, ?_⟩
    intro _ stored found read
    -- No request has read an entry that is only being written now.
    cases found
    have unread := heals.unread write inside q (old q member)
    cases q with
    | counting waiting =>
        cases same
        exact absurd read unread
    | appending waiting finish =>
        cases same
        exact absurd read unread
    | begun | loaded | noEntry | timingOut | writing | clearing => cases same
  · intro other member
    obtain ⟨ply, versions, first, source, rebuilt, -⟩ := heals.writes other (old _ member)
    refine ⟨ply, versions, first, source, rebuilt, ?_⟩
    intro stored found read
    cases found
    exact absurd read (heals.unread write inside _ (old _ member))
  · intro other member q present
    exact heals.unread other (old _ member) q (old q present)
  · intro stored found
    cases found
    refine ⟨(heals.writes write inside).1, ?_, ?_, ?_⟩
    · intro other member same
      exact rel_of_mem_eraseIdx differentPlies_symm heals.distinct here member write other rfl rfl
        same.symm
    · rcases behind with clearing | later
      · exact .inl (clearingStays clearing)
      · refine .inr fun k above below => ?_
        obtain ⟨other, member, same⟩ := later k above below
        refine ⟨other, others other ?_ member, same⟩
        rintro rfl
        exact absurd same above.ne
    · rcases agrees with clearing | agrees | ⟨other, apart, member, earlier⟩
      · exact .inl (clearingStays clearing)
      · exact .inr (.inl agrees)
      · exact .inr (.inr ⟨other, others other apart member, earlier,
          heals.unread write inside _ member⟩)

theorem HealsWith.source_le (heals : HealsWith config moves clock inFlight) {q : Progress}
    (inside : q ∈ inFlight) {ply : Nat} (read : q.source = some ply) : ply ≤ moves.length := by
  cases q with
  | counting pending => exact (heals.pendings _ inside pending rfl).source ply read
  | appending pending finish => exact (heals.pendings _ inside pending rfl).source ply read
  | writing write =>
      obtain ⟨within, knows⟩ := heals.writes write inside
      exact ((knows.source ply read).trans_le within).le
  | begun | loaded | noEntry | timingOut | clearing => cases read

/-- The clock write that a recorded move leaves. -/
def PendingMove.clockWrite (pending : PendingMove) (ended : Bool) : ClockWrite :=
  ⟨pending.row.ply, pending.newClock, pending.entryVersion, pending.source, ended⟩

/-- What a waiting request knows outlasts a move that another one records. -/
theorem PendingKnows.append {pending : PendingMove} (row : MoveRow)
    (knows : PendingKnows config moves clock pending)
    (below : pending.game.plyCount ≤ moves.length) :
    PendingKnows config (moves ++ [row]) clock pending where
  version := knows.version
  first := knows.first
  source := by
    intro i read
    rw [List.length_append]
    exact (knows.source i read).trans (Nat.le_add_right _ _)
  rebuilt := by
    intro last
    rw [List.length_append, List.length_singleton] at last
    omega
  charged := by
    intro last
    rw [List.length_append, List.length_singleton] at last
    omega

/-- What a write knows is about the moves up to its own. -/
theorem WriteKnows.append {write : ClockWrite} (row : MoveRow)
    (knows : WriteKnows config moves clock write) (below : write.ply ≤ moves.length) :
    WriteKnows config (moves ++ [row]) clock write where
  version := knows.version
  first := knows.first
  source := knows.source
  rebuilt := by
    intro none
    rw [List.take_append_of_le_length below]
    exact knows.rebuilt none
  charged := by
    intro stored found read next
    have earlier : stored.ply ≤ moves.length := by omega
    rw [List.take_append_of_le_length below, List.take_append_of_le_length earlier]
    exact knows.charged stored found read next

/-- The clock of a recorded move agrees with the log that ends with this move. -/
theorem PendingKnows.recorded {pending : PendingMove} (ended : Bool)
    (knows : PendingKnows config moves clock pending)
    (last : pending.game.plyCount = moves.length)
    (mover : pending.side = sideAfter pending.game.plyCount) :
    WriteKnows config (moves ++ [pending.row]) clock (pending.clockWrite ended) := by
  have ply : pending.row.ply = moves.length + 1 := by rw [← last]; rfl
  have whole : (moves ++ [pending.row]).take pending.row.ply = moves ++ [pending.row] := by
    rw [ply, ← List.length_singleton, ← List.length_append, List.take_length]
  have agrees : Continues config moves pending.newClock →
      Agrees config ((moves ++ [pending.row]).take pending.row.ply) pending.newClock := by
    intro continues
    rw [whole]
    apply continues.append ply
    rw [← last, ← mover]
    rfl
  refine ⟨knows.version, ?_, ?_, ?_, ?_⟩
  · intro first
    change pending.row.ply = 1 at first
    exact knows.first (by omega)
  · intro i read
    change i < pending.row.ply
    rw [ply]
    exact Nat.lt_succ_of_le (knows.source i read)
  · intro none
    exact agrees (knows.rebuilt last none)
  · intro stored found read next before
    change stored.ply + 1 = pending.row.ply at next
    have current : stored.ply = moves.length := by omega
    rw [current, List.take_append_of_le_length le_rfl, List.take_length] at before
    exact agrees (knows.charged last stored found read current before)

/-- The stored entry is one move further behind, and the request of that move has yet to write. -/
theorem StoredKnows.append {stored : StoredClock} {row : MoveRow} {write : ClockWrite}
    {left : List Progress} (knows : StoredKnows config moves inFlight stored)
    (new : .writing write ∈ left) (nextPly : row.ply = moves.length + 1)
    (ownPly : write.ply = row.ply)
    (writes : ∀ other, .writing other ∈ left → .writing other ∈ inFlight ∨ other = write)
    (stay : ∀ other, .writing other ∈ inFlight → .writing other ∈ left)
    (clearing : .clearing ∈ inFlight → .clearing ∈ left) :
    StoredKnows config (moves ++ [row]) left stored := by
  obtain ⟨below, unwritten, behind, agrees⟩ := knows
  have length : (moves ++ [row]).length = moves.length + 1 := by
    rw [List.length_append, List.length_singleton]
  refine ⟨by omega, ?_, ?_, ?_⟩
  · intro other member
    rcases writes other member with before | rfl
    · exact unwritten other before
    · omega
  · rcases behind with cleared | later
    · exact .inl (clearing cleared)
    · refine .inr fun k above top => ?_
      rw [length] at top
      rcases Nat.lt_or_ge moves.length k with beyond | here
      · exact ⟨write, new, by omega⟩
      · obtain ⟨other, member, same⟩ := later k above here
        exact ⟨other, stay other member, same⟩
  · rw [List.take_append_of_le_length below]
    rcases agrees with cleared | agrees | ⟨other, member, rest⟩
    · exact .inl (clearing cleared)
    · exact .inr (.inl agrees)
    · exact .inr (.inr ⟨other, stay other member, rest⟩)

/-- A move is recorded; its clock is still to be written. -/
theorem HealsWith.append (heals : HealsWith config moves clock inFlight) {pending : PendingMove}
    {finish : Option FinishGameInput} (here : inFlight[index]? = some (.appending pending finish))
    (last : pending.game.plyCount = moves.length)
    (mover : pending.side = sideAfter pending.game.plyCount)
    (within : ∀ q ∈ inFlight, ∀ waiting, q.pending = some waiting →
      waiting.game.plyCount ≤ moves.length) :
    HealsWith config (moves ++ [pending.row]) clock (inFlight.eraseIdx index ++
      (some (Progress.writing (pending.clockWrite finish.isSome))).toList) := by
  have inside : .appending pending finish ∈ inFlight := List.mem_of_getElem? here
  have knows := heals.pendings _ inside pending rfl
  have old : ∀ q, q ∈ inFlight.eraseIdx index → q ∈ inFlight :=
    fun q member => List.mem_of_mem_eraseIdx member
  have ply : pending.row.ply = moves.length + 1 := by rw [← last]; rfl
  have length : (moves ++ [pending.row]).length = moves.length + 1 := by
    rw [List.length_append, List.length_singleton]
  refine ⟨?_, ?_, ?_, ?_, ?_⟩
  · intro q member waiting same
    rcases mem_rest.mp member with before | new
    · have below := within q (old q before) waiting same
      exact (heals.pendings q (old q before) waiting same).append pending.row below
    · cases new
      cases same
  · intro write member
    rcases mem_rest.mp member with before | new
    · obtain ⟨below, known⟩ := heals.writes write (old _ before)
      exact ⟨by omega, known.append pending.row below⟩
    · cases new
      refine ⟨?_, knows.recorded finish.isSome last mover⟩
      rw [length]
      exact ply.le
  · refine pairwise_rest heals.distinct fun q new r member => ?_
    cases new
    intro a b left right
    cases right
    have below : a.ply ≤ moves.length := by
      cases r with
      | writing write =>
          cases left
          exact (heals.writes _ (old _ member)).1
      | begun | loaded | noEntry | counting | appending | timingOut | clearing => cases left
    change a.ply ≠ pending.row.ply
    omega
  · intro write member q present
    have readers : ∀ k, q.source = some k → k ≤ moves.length := by
      intro k read
      rcases mem_rest.mp present with before | new
      · exact heals.source_le (old q before) read
      · cases new
        exact knows.source k read
    rcases mem_rest.mp member with before | new
    · rcases mem_rest.mp present with earlierToo | new
      · exact heals.unread write (old _ before) q (old q earlierToo)
      · intro read
        cases new
        exact heals.unread write (old _ before) (.appending pending finish) inside read
    · intro read
      cases new
      have below := readers _ read
      change pending.row.ply ≤ moves.length at below
      omega
  · intro stored found
    have new : Progress.writing (pending.clockWrite finish.isSome) ∈ inFlight.eraseIdx index ++
        (some (Progress.writing (pending.clockWrite finish.isSome))).toList :=
      mem_rest.mpr (.inr rfl)
    refine (heals.stored stored found).append new ply rfl ?_ ?_ ?_
    · intro other member
      rcases mem_rest.mp member with before | new
      · exact .inl (old _ before)
      · exact .inr (Progress.writing.inj (Option.some.inj new)).symm
    · intro other member
      refine mem_rest.mpr (.inl (mem_eraseIdx_of_ne here member ?_))
      intro same
      cases same
    · intro member
      refine mem_rest.mpr (.inl (mem_eraseIdx_of_ne here member ?_))
      intro same
      cases same

end Preservation

section Steps

variable {chess : ChessJs} {players : Nat → Option Nat} {w : World} {index : Nat}

/-- What a played move knows is what its clock was charged from. -/
theorem playMove_knows {side : ClockSide} {uci : String} {now : Int} {game : LoadedGame}
    {newClock : ClockState} {elapsed : Int} {version source : Option Nat} {next : Progress}
    (played : playMove chess side uci now game newClock elapsed version source = some next)
    (knows : ∀ move, PendingKnows (clockConfig w.db.row) w.db.moves w.clock
      ⟨now, game, side, move, newClock, elapsed, version, source⟩) :
    next.write = none ∧
      (∀ pending, next.pending = some pending →
        PendingKnows (clockConfig w.db.row) w.db.moves w.clock pending) ∧
      next.source = source := by
  obtain ⟨move, -, shape⟩ := playMove_cases played
  rcases shape with rfl | ⟨finish, -, rfl⟩
  · refine ⟨rfl, fun pending same => ?_, rfl⟩
    cases same
    exact knows move
  · refine ⟨rfl, fun pending same => ?_, rfl⟩
    cases same
    exact knows move

theorem checkRequest_knows {request : Request} {now : Int} {next : Progress}
    (checked : checkRequest chess players request now w.db.findGame = some next) :
    next.write = none ∧
      (∀ pending, next.pending = some pending →
        PendingKnows (clockConfig w.db.row) w.db.moves w.clock pending) ∧
      next.source = none := by
  rcases checkRequest_cases checked with ⟨uci, first, played⟩ | ⟨intent, rfl, -, -⟩
  · apply playMove_knows played
    intro move
    have none : w.db.moves = [] := List.length_eq_zero_iff.mp first
    refine ⟨Iff.rfl, fun _ => rfl, fun i read => (by cases read), fun _ _ => ?_,
      fun _ stored _ read => (by cases read)⟩
    rw [none]
    exact firstClock_continues now
  · exact ⟨rfl, fun pending none => (by cases none), rfl⟩

theorem judge_knows {intent : Intent} {now : Int} {game : LoadedGame}
    {reading : ClockReading} {next : Progress} (fits : GameFits w.db game)
    (started : game.plyCount ≠ 0) (version : reading.version = none ↔ reading.source = none)
    (source : ∀ i, reading.source = some i → ∃ stored, w.clock = some stored ∧ stored.ply = i ∧
      stored.ply ≤ w.db.moves.length ∧ reading.state = stored.entry.state)
    (rebuilt : game.plyCount = w.db.moves.length → reading.source = none →
      Agrees (clockConfig w.db.row) w.db.moves reading.state)
    (judged : judge chess intent now game reading = some next) :
    next.write = none ∧
      (∀ pending, next.pending = some pending →
        PendingKnows (clockConfig w.db.row) w.db.moves w.clock pending) ∧
      (next.source = none ∨ next.source = reading.source) := by
  rcases judge_cases judged with
    ⟨loser, final, rfl, -⟩ | ⟨side, uci, result, -, applied, accepted, played⟩
  · exact ⟨rfl, fun pending none => (by cases none), .inl rfl⟩
  · rw [fits.config] at applied
    have knows := playMove_knows (w := w) played fun move => by
      refine ⟨version, fun first => absurd first started, ?_, ?_, ?_⟩
      · intro i read
        obtain ⟨stored, -, rfl, below, -⟩ := source i read
        exact below
      · intro last none
        exact (rebuilt last none).applyMove applied accepted
      · intro last stored found read _ agrees
        obtain ⟨same, found', _, _, state⟩ := source stored.ply read
        rw [found] at found'
        cases found'
        rw [← state] at agrees
        exact agrees.applyMove applied accepted
    exact ⟨knows.1, knows.2.1, .inr knows.2.2⟩

/-- A write in order leaves an entry that agrees with the log or will be cleared. -/
theorem writeClock_heals (heals : w.Heals) {write : ClockWrite}
    (here : w.inFlight[index]? = some (.writing write))
    (inOrder : WritesInOrder w (.advance index)) :
    World.Heals { (writeClock w write).1 with
      inFlight := w.inFlight.eraseIdx index ++ (writeClock w write).2.toList } := by
  obtain ⟨-, knows⟩ := heals.writes write (List.mem_of_getElem? here)
  have cleared : HealsWith (clockConfig w.db.row) w.db.moves none
      (w.inFlight.eraseIdx index ++ (none : Option Progress).toList) := by
    rw [Option.toList_none, List.append_nil]
    exact heals.cleared (List.eraseIdx_sublist ..)
  unfold writeClock
  by_cases ended : write.ended = true
  · rw [if_pos ended]
    exact cleared
  rw [if_neg ended]
  obtain ⟨reset, found⟩ := inOrder write here (by simpa using ended)
  -- An `init` in order stores the clock of the last move.
  have initial : write.resets → HealsWith (clockConfig w.db.row) w.db.moves
      (some ⟨⟨1, write.newClock⟩, write.ply⟩)
      (w.inFlight.eraseIdx index ++ (none : Option Progress).toList) := by
    intro resets
    have last := reset resets
    have none : write.source = none := by
      rcases resets with version | first
      · exact knows.version.mp version
      · exact knows.first first
    refine heals.store here 1 (.inr fun k above below => ?_) (.inr (.inl (knows.rebuilt none)))
    omega
  cases version : write.entryVersion with
  | none => exact initial (.inl version)
  | some expected =>
      by_cases first : write.ply = 1
      · simp only [if_pos first]
        exact initial (.inr first)
      simp only [if_neg first]
      have sets : ¬ write.resets := by
        rintro (unversioned | one)
        · rw [version] at unversioned
          cases unversioned
        · exact first one
      cases entry : w.clock with
      | none => exact heals.clearing
      | some stored =>
          by_cases same : stored.entry.version = expected
          · simp only [ClockWrite.compareAndSet, if_pos same]
            have read := found sets stored entry (by rw [version, same])
            have after := knows.source stored.ply read
            obtain ⟨-, -, behind, agrees⟩ := heals.stored stored entry
            refine heals.store here (expected + 1) ?_ ?_
            · rcases behind with clearing | later
              · exact .inl clearing
              · exact .inr fun k above below => later k (after.trans above) below
            · rcases agrees with clearing | agrees | ⟨other, inside, earlier, apart⟩
              · exact .inl clearing
              · by_cases next : stored.ply + 1 = write.ply
                · exact .inr (.inl (knows.charged stored entry read next agrees))
                · -- The request of the move before has read an older entry as well.
                  rcases behind with clearing | later
                  · exact .inl clearing
                  · have within := (heals.writes write (List.mem_of_getElem? here)).1
                    obtain ⟨other, inside, ply⟩ := later (write.ply - 1) (by omega) (by omega)
                    refine .inr (.inr ⟨other, ?_, inside, by omega⟩)
                    rintro rfl
                    omega
              · refine .inr (.inr ⟨other, ?_, inside, earlier.trans after⟩)
                rintro rfl
                exact apart read
          · simp only [ClockWrite.compareAndSet, if_neg same]
            exact heals.clearing

/-- The world after a request has gone on by one await. -/
def World.advanced (chess : ChessJs) (players : Nat → Option Nat) (w : World) (index : Nat)
    (p : Progress) : World :=
  { (advance chess players w p).1 with
    inFlight := w.inFlight.eraseIdx index ++ (advance chess players w p).2.toList }

theorem loaded_heals {intent : Intent} {now : Int} {game : LoadedGame} (logged : Logged w)
    (heals : w.Heals) (here : w.inFlight[index]? = some (.loaded intent now game)) :
    (w.advanced chess players index (.loaded intent now game)).Heals := by
  have fits := logged.requests _ (List.mem_of_getElem? here)
  refine heals.proceed here rfl (by simp) fun q next => ?_
  change loadClock chess w intent now game = some q at next
  unfold loadClock at next
  cases entry : w.clock with
  | none =>
      rw [entry] at next
      cases next
      exact ⟨rfl, fun pending none => (by cases none), fun ply none => (by cases none)⟩
  | some stored =>
      simp only [entry] at next
      have below := (heals.stored stored entry).ply
      obtain ⟨plain, knows, source⟩ := judge_knows (w := w) fits.1 fits.2.1 (by simp)
        (by
          intro i same
          cases same
          exact ⟨stored, entry, rfl, below, rfl⟩)
        (fun _ none => by cases none) next
      rw [entry] at knows
      refine ⟨plain, knows, fun ply read => .inl ⟨stored, rfl, ?_⟩⟩
      rcases source with none | same
      · rw [none] at read
        cases read
      · rw [same] at read
        exact Option.some.inj read

/-- Without an entry the clock is rebuilt from the log. -/
theorem noEntry_heals {intent : Intent} {now : Int} {game : LoadedGame} (logged : Logged w)
    (heals : w.Heals) (here : w.inFlight[index]? = some (.noEntry intent now game)) :
    (w.advanced chess players index (.noEntry intent now game)).Heals := by
  have fits := logged.requests _ (List.mem_of_getElem? here)
  refine heals.proceed here rfl (by simp) fun q next => ?_
  obtain ⟨plain, knows, source⟩ := judge_knows (w := w) fits.1 fits.2.1 Iff.rfl
    (fun i none => by cases none)
    (fun last _ => reconstruct_agrees now fits.1 logged.plies last) next
  refine ⟨plain, knows, fun ply read => ?_⟩
  rcases source with none | same
  · rw [none] at read
    cases read
  · rw [same] at read
    cases read

/-- No request knows of a move that is not in the log. -/
theorem pending_within (logged : Logged w) {q : Progress} (inside : q ∈ w.inFlight)
    {waiting : PendingMove} (same : q.pending = some waiting) :
    waiting.game.plyCount ≤ w.db.moves.length := by
  have known := logged.requests q inside
  cases q with
  | counting pending =>
      cases same
      exact known.game.plies
  | appending pending finish =>
      cases same
      exact known.1.game.plies
  | begun | loaded | noEntry | timingOut | writing | clearing => cases same

theorem appending_heals {pending : PendingMove} {finish : Option FinishGameInput}
    (logged : Logged w) (heals : w.Heals)
    (here : w.inFlight[index]? = some (.appending pending finish)) :
    (w.advanced chess players index (.appending pending finish)).Heals := by
  have fits := logged.requests _ (List.mem_of_getElem? here)
  change World.Heals { (appendPending w pending finish).1 with
    inFlight := w.inFlight.eraseIdx index ++ (appendPending w pending finish).2.toList }
  unfold appendPending
  cases appended : w.db.appendMove pending.row finish with
  | none => exact heals.proceed here rfl (by simp) fun q none => by cases none
  | some db =>
      have last := logged.append_ply fits.1 appended
      obtain ⟨-, -, moves, -, config, -⟩ := appendMove_some appended
      have next := heals.append here last fits.1.side
        fun q inside waiting same => pending_within logged inside same
      rw [← config, ← moves] at next
      exact next

/-- Every step in order keeps the entry healing. -/
theorem step_heals (w : World) (label : WorldLabel) (w' : World)
    (sound : Logged w ∧ w.Heals) (inOrder : WritesInOrder w label)
    (taken : (worlds chess players).step w label = some w') : w'.Heals := by
  obtain ⟨logged, heals⟩ := sound
  cases label with
  | arrive request now =>
      cases taken
      exact heals.add rfl (fun pending none => by cases none) fun write _ none => by cases none
  | expire =>
      cases taken
      exact heals.cleared (List.Sublist.refl _)
  | advance index =>
      obtain ⟨p, here, rfl⟩ := advance_taken taken
      cases p with
      | begun request now =>
          refine heals.proceed here rfl (by simp) fun q next => ?_
          obtain ⟨plain, knows, source⟩ := checkRequest_knows next
          exact ⟨plain, knows, fun ply read => by rw [source] at read; cases read⟩
      | loaded intent now game => exact loaded_heals logged heals here
      | noEntry intent now game => exact noEntry_heals logged heals here
      | counting pending =>
          refine heals.proceed here rfl (by simp) fun q next => ?_
          cases next
          refine ⟨rfl, fun waiting same => ?_, fun ply read => .inr read⟩
          exact heals.pendings _ (List.mem_of_getElem? here) waiting same
      | appending pending finish => exact appending_heals logged heals here
      | timingOut decision =>
          change World.Heals { (finishByTimeout chess w decision).1 with
            inFlight := w.inFlight.eraseIdx index ++
              (finishByTimeout chess w decision).2.toList }
          unfold finishByTimeout
          cases done : w.db.finishGame (decision.finish chess) with
          | none => exact heals.proceed here rfl (by simp) fun q none => by cases none
          | some db =>
              obtain ⟨-, rfl⟩ := finishGame_some done
              exact heals.clearing
      | writing write => exact writeClock_heals heals here inOrder
      | clearing =>
          change HealsWith (clockConfig w.db.row) w.db.moves none
            (w.inFlight.eraseIdx index ++ (none : Option Progress).toList)
          rw [Option.toList_none, List.append_nil]
          exact heals.cleared (List.eraseIdx_sublist ..)

theorem initial_heals (w : World) (initial : w.Initial) : w.Heals := by
  unfold World.Heals
  rw [initial.inFlight, initial.moves]
  refine ⟨?_, ?_, .nil, ?_, ?_⟩
  · intro p inside
    cases inside
  · intro write inside
    cases inside
  · intro write inside
    cases inside
  · intro stored found
    obtain ⟨now, state, created, rfl⟩ := initial.clock stored found
    refine ⟨le_rfl, fun write inside => (by cases inside), .inr fun k above below => ?_,
      .inr (.inl ?_)⟩
    · exact absurd below above.not_ge
    · unfold createClock at created
      cases supported : assertSupported (clockConfig w.db.row) with
      | error e =>
          rw [supported] at created
          cases created
      | ok =>
          rw [supported] at created
          cases created
          exact ⟨rfl, fun side => by cases side <;> rfl⟩

end Steps

/-- In every run whose clock writes come in order, whenever no request is in flight, the
clock entry of the game, if there is one, shows the side to move in the stored position and
the times recorded with each side's last move. -/
theorem clock_agrees_with_log (chess : ChessJs) (alternates : chess.Alternates)
    (players : Nat → Option Nat) (w : World)
    (reached : (worlds chess players).ReachableWhile WritesInOrder w) (quiet : w.inFlight = []) :
    ∀ stored, w.clock = some stored →
      stored.entry.state.turn = sideToMove w.db.row.fen ∧
      ∀ side, remainingOf stored.entry.state side =
        recordedMs (clockConfig w.db.row) w.db.moves side := by
  have sound : Logged w ∧ w.Heals := by
    apply reached.invariant (fun w => Logged w ∧ w.Heals)
    · intro s initial
      exact ⟨initial_logged s initial, initial_heals s initial⟩
    · intro s label t sound inOrder taken
      exact ⟨step_logged alternates s label t sound.1 taken, step_heals s label t sound inOrder taken⟩
  intro stored found
  have agrees := sound.2.settled quiet found
  exact ⟨agrees.turn.trans sound.1.turn.symm, agrees.times⟩

section OpenGame

def kingPawnFen : String := "rnbqkbnr/pppppppp/8/8/4P3/8/PPPP1PPP/RNBQKBNR b KQkq - 0 1"

def openGameFen : String := "rnbqkbnr/pppp1ppp/8/4p3/4P3/8/PPPP1PPP/RNBQKBNR w KQkq - 0 2"

/-- chess.js on the game 1. e4 e5 and its three positions. -/
def openGame : ChessJs where
  move fen start target promotion :=
    if fen = startingFen ∧ start = "e2" ∧ target = "e4" ∧ promotion = none then
      some ⟨"e4", kingPawnFen, false, true⟩
    else if fen = kingPawnFen ∧ start = "e7" ∧ target = "e5" ∧ promotion = none then
      some ⟨"e5", openGameFen, false, true⟩
    else none
  isCheckmate _ := false
  isStalemate _ := false
  countPieces _ side := ⟨8, 2, 2, 2, 1, if side = .w then [.dark, .light] else [.light, .dark]⟩
  zobristHash fen :=
    if fen = startingFen then "24f141f38964cec1"
    else if fen = kingPawnFen then "f74abd5fa3a1a16b"
    else "a3670ae5d9e50a7a"

theorem openGame_alternates : openGame.Alternates where
  turn := by
    intro fen start target promotion move played
    simp only [openGame] at played
    split at played
    · rename_i first
      cases played
      rw [first.1]
      decide +kernel
    · split at played
      · rename_i second
        cases played
        rw [second.1]
        decide +kernel
      · cases played

/-- A game of one minute a side, between the players 1 and 2. -/
def newGame : World where
  db :=
    { row :=
        { whitePlayerId := 1, blackPlayerId := 2, status := .active, clockType := .suddenDeath,
          baseTimeSeconds := 60, incrementSeconds := 0, fen := startingFen, winnerColor := none,
          whiteTimeLeftMs := none, blackTimeLeftMs := none }
      moves := [] }
  clock := some ⟨⟨1, ⟨60000, 60000, .w, 0⟩⟩, 0⟩
  inFlight := []
  playedAt := 0
  decidedAt := 0

theorem newGame_initial : newGame.Initial where
  active := rfl
  fen := rfl
  moves := rfl
  clock := by
    intro stored found
    cases found
    exact ⟨0, _, rfl, rfl⟩
  inFlight := rfl

/-- White's move is in the database when Black reads the clock of the new game, and in Redis
before Black's move. -/
def overtakenClock : List WorldLabel :=
  [.arrive (.makeMove 1 "e2e4") 0, .advance 0, .advance 0,
    .arrive (.makeMove 2 "e7e5") 1000, .advance 1, .advance 1, .advance 0, .advance 0, .advance 0]

theorem overtakenClock_end :
    ((worlds openGame some).run newGame overtakenClock).map
      (fun w => (w.inFlight, w.db.row.status, w.db.moves.length,
        w.clock.map fun stored => stored.entry.state.turn, sideToMove w.db.row.fen)) =
      some ([], .active, 2, some .b, .w) := by
  decide +kernel

/-- The compare-and-set of Black's move finds version 1 again and stores a clock on which
Black is to move. -/
theorem overtakenClock_disagrees :
    openGame.Alternates ∧ newGame.Initial ∧
      ∃ w, (worlds openGame some).run newGame overtakenClock = some w ∧ w.inFlight = [] ∧
        w.db.row.status = .active ∧ w.db.moves ≠ [] ∧
        ∃ stored, w.clock = some stored ∧ stored.entry.state.turn ≠ sideToMove w.db.row.fen := by
  obtain ⟨w, ran, seen⟩ := Option.map_eq_some_iff.mp overtakenClock_end
  simp only [Prod.mk.injEq, Option.map_eq_some_iff] at seen
  obtain ⟨quiet, active, two, ⟨stored, found, black⟩, white⟩ := seen
  refine ⟨openGame_alternates, newGame_initial, w, ran, quiet, active, ?_, stored, found, ?_⟩
  · intro none
    rw [none] at two
    cases two
  · rw [black, white]
    decide

/-- The same two moves one after the other. -/
def orderlyClock : List WorldLabel :=
  [.arrive (.makeMove 1 "e2e4") 0, .advance 0, .advance 0, .advance 0,
    .arrive (.makeMove 2 "e7e5") 1000, .advance 0, .advance 0, .advance 0, .advance 0]

theorem orderlyClock_inOrder :
    Transition.System.Guarded WritesInOrder (worlds openGame some) newGame orderlyClock := by
  refine ⟨trivial, fun _ taken => ?_⟩
  cases taken
  iterate 2
    refine ⟨fun write here => (by cases here), fun _ taken => ?_⟩
    cases taken
  refine ⟨fun write here _ => ?_, fun _ taken => ?_⟩
  · cases here
    exact ⟨fun _ => rfl, fun sets => absurd (.inl rfl) sets⟩
  · cases taken
    refine ⟨trivial, fun _ taken => ?_⟩
    cases taken
    iterate 3
      refine ⟨fun write here => (by cases here), fun _ taken => ?_⟩
      cases taken
    refine ⟨fun write here _ => ?_, fun _ _ => trivial⟩
    cases here
    refine ⟨fun _ => rfl, fun _ stored found _ => ?_⟩
    cases found
    rfl

theorem orderlyClock_end :
    ((worlds openGame some).run newGame orderlyClock).map (fun w => w.inFlight) = some [] := by
  decide +kernel

theorem orderlyClock_agrees :
    ∃ w, (worlds openGame some).run newGame orderlyClock = some w ∧
      ∀ stored, w.clock = some stored →
        stored.entry.state.turn = sideToMove w.db.row.fen ∧
        ∀ side, remainingOf stored.entry.state side =
          recordedMs (clockConfig w.db.row) w.db.moves side := by
  obtain ⟨w, ran, quiet⟩ := Option.map_eq_some_iff.mp orderlyClock_end
  refine ⟨w, ran, ?_⟩
  apply clock_agrees_with_log openGame openGame_alternates some w _ quiet
  exact ⟨newGame, newGame_initial, Transition.System.run_steps _ _ orderlyClock ran
    orderlyClock_inOrder⟩

end OpenGame

end Farzin.Play
