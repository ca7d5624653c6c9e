import Farzin.PlayResults

set_option autoImplicit false

/- `abort` against the moves that are recorded while it runs. -/
namespace Farzin.Play

/-- An aborted game has not come to its second move. -/
def Board.AbortedEarly (b : Board) : Prop := b.db.row.status = .aborted → b.db.moves.length < 2

/-- The check of `abort` still holds when its result is stored. -/
def AbortsInTime (b : Board) (label : BoardLabel) : Prop :=
  b.storing label = some .aborted → b.db.moves.length < 2

instance decidableAbortsInTime (b : Board) (label : BoardLabel) :
    Decidable (AbortsInTime b label) :=
  inferInstanceAs (Decidable (b.storing label = some .aborted → b.db.moves.length < 2))

/-- No second move is recorded past an abort that has made its check. -/
def LetsAbort (b : Board) (label : BoardLabel) : Prop :=
  b.recording label = true → b.db.moves ≠ [] →
    ∀ stage ∈ b.inFlight, stage.ending ≠ some .aborted

section Runs

variable {chess : ChessJs} {players : Nat → Option Nat} {b b' : Board} {label : BoardLabel}

theorem abortedEarly_iff (rules : ∀ stage ∈ b.inFlight, stage.ByRules) (early : b.AbortedEarly)
    (taken : b.step chess players label = some b') :
    b'.AbortedEarly ↔ AbortsInTime b label := by
  unfold AbortsInTime
  cases storing : b.storing label with
  | none =>
      have otherwise := step_otherwise rules storing taken
      refine ⟨fun _ aborts => (by cases aborts), fun _ aborted => ?_⟩
      rcases otherwise.result with same | played
      · have before : b.db.row.status = .aborted := same.symm.trans aborted
        have moves : b'.db.moves = b.db.moves := by
          apply otherwise.moves
          by_contra recording
          rw [Bool.not_eq_false] at recording
          have active := (otherwise.recorded recording).1
          rw [before] at active
          cases active
        rw [moves]
        exact early before
      · rw [aborted] at played
        exact absurd (by decide) played
  | some status =>
      obtain ⟨-, result, moves, -⟩ := step_storing storing taken
      unfold Board.AbortedEarly
      rw [result, moves, Option.some.injEq]

/-- While the game goes on, an abort on its way would still find its check to hold. -/
def Board.AbortsPending (b : Board) : Prop :=
  b.db.row.status = .active →
    ∀ stage ∈ b.inFlight, stage.ending = some .aborted → b.db.moves.length < 2

/-- A request that asks for a result at once asks for an abort only in time, and never for a
draw. -/
theorem checkEnding_ending {game : LoadedGame} {request : EndingRequest} {q : Stage}
    (checked : checkEnding players game request = some q) :
    (q.ending = some .aborted → game.plyCount < 2) ∧ q.ending ≠ some .drawAgreed := by
  cases request with
  | abort userId =>
      simp only [checkEnding, Option.bind_eq_bind, Option.bind_eq_some_iff] at checked
      obtain ⟨side, -, checked⟩ := checked
      split at checked
      · cases checked
      · rename_i few
        cases checked
        exact ⟨fun _ => Nat.lt_of_not_le few, fun agrees => (by cases agrees)⟩
  | offerDraw | acceptDraw | resign =>
      simp only [checkEnding, Option.bind_eq_bind, Option.bind_eq_some_iff] at checked
      obtain ⟨side, -, same⟩ := checked
      cases same
      exact ⟨fun aborts => (by cases aborts), fun agrees => (by cases agrees)⟩
  | abandonAfterDisconnect side connected =>
      simp only [checkEnding, ite_not, Option.ite_none_right_eq_some, Option.some.injEq] at checked
      rw [← checked.2]
      exact ⟨fun aborts => (by cases aborts), fun agrees => (by cases agrees)⟩

theorem answerDraw_ending {side : ClockSide} {game : LoadedGame} {offer : Option ClockSide}
    {q : Stage} (answered : answerDraw side game offer = some q) :
    q.ending = some .drawAgreed ∧ offer = some side.other := by
  unfold answerDraw at answered
  split at answered
  · cases answered
  · rename_i refused
    cases answered
    refine ⟨rfl, ?_⟩
    rw [not_or] at refused
    obtain ⟨given, other⟩ := refused
    obtain ⟨giver, here⟩ := Option.ne_none_iff_exists'.mp given
    rw [here] at other ⊢
    cases side <;> cases giver <;> first | rfl | exact absurd rfl other

/-- A move lets no abort through that its check would now refuse. -/
theorem abortsPending_kept (rules : ∀ stage ∈ b.inFlight, stage.ByRules)
    (pending : b.AbortsPending) (lets : LetsAbort b label)
    (taken : b.step chess players label = some b') (active : b'.db.row.status = .active)
    {stage : Stage} (inside : stage ∈ b.inFlight) (aborts : stage.ending = some .aborted) :
    b'.db.moves.length < 2 := by
  have counts := step_counts rules taken
  cases recording : b.recording label with
  | false =>
      rw [counts.moves recording]
      exact pending (counts.opened active) stage inside aborts
  | true =>
      have first : b.db.moves = [] := by
        by_contra later
        exact lets recording later stage inside aborts
      rw [(counts.recorded recording).2, first]
      decide

theorem abortsPending_step (rules : ∀ stage ∈ b.inFlight, stage.ByRules)
    (pending : b.AbortsPending) (lets : LetsAbort b label)
    (taken : b.step chess players label = some b') : b'.AbortsPending := by
  intro active stage inside aborts
  have kept {old : Stage} (here : old ∈ b.inFlight) (ends : old.ending = some .aborted) :
      b'.db.moves.length < 2 := abortsPending_kept rules pending lets taken active here ends
  cases label with
  | arrive | arriveEnding =>
      cases taken
      rcases List.mem_append.mp inside with old | new
      · exact kept old aborts
      · cases List.mem_singleton.mp new
        cases aborts
  | expireClock | expireOffer =>
      cases taken
      exact kept inside aborts
  | advance index now =>
      have counts := step_counts rules taken
      obtain ⟨turn, here, same⟩ := board_advance_taken taken
      rw [same] at inside
      rcases List.mem_append.mp inside with old | new
      · exact kept (List.mem_of_mem_eraseIdx old) aborts
      · rcases (advance_next (Option.mem_toList.mp new)).2 _ aborts with
          still | ⟨request, rfl, checked⟩ | ⟨side, game, rfl, answered⟩
        · exact kept (List.mem_of_getElem? here) still
        · rw [counts.moves (by simp [Board.recording, turn_advance _ here])]
          exact (checkEnding_ending checked).1 aborts
        · rw [(answerDraw_ending answered).1] at aborts
          cases aborts

/-- An abort that its check would still accept ends the game early. -/
theorem abortsInTime_of_pending (pending : b.AbortsPending) : AbortsInTime b label := by
  intro aborts
  obtain ⟨active, finish, index, now, rfl, here, aborted⟩ := storing_cases aborts
  exact pending active _ (List.mem_of_getElem? here) (congrArg some aborted)

end Runs

/-- In every run of the requests on one game, an aborted game has fewer than two recorded moves
exactly when, each time an abort takes effect, fewer than two moves are recorded. That is so as
long as no second move is recorded while an abort is on its way from its check. -/
theorem aborted_early (chess : ChessJs) (players : Nat → Option Nat) (start b : Board)
    (labels : List BoardLabel) (initial : start.Initial)
    (ran : (boards chess players).run start labels = some b) :
    (Transition.System.Always (boards chess players) Board.AbortedEarly start labels ↔
        Transition.System.Guarded AbortsInTime (boards chess players) start labels) ∧
      (Transition.System.Guarded LetsAbort (boards chess players) start labels →
        Transition.System.Always (boards chess players) Board.AbortedEarly start labels) := by
  have rules := initial_byRules initial
  have early : start.AbortedEarly := by
    intro aborted
    rw [initial.active] at aborted
    cases aborted
  have exactly := Transition.System.always_iff_guarded
    (fun b : Board => ∀ stage ∈ b.inFlight, stage.ByRules) Board.AbortedEarly
    (fun s label t rules taken => step_byRules rules taken)
    (fun s label t rules early taken => abortedEarly_iff rules early taken)
    start b labels ran rules early
  refine ⟨exactly, fun lets => exactly.mpr ?_⟩
  apply lets.under fun b : Board => (∀ stage ∈ b.inFlight, stage.ByRules) ∧ b.AbortsPending
  · intro s label t both lets taken
    exact ⟨step_byRules both.1 taken, abortsPending_step both.1 both.2 lets taken⟩
  · intro s label both _
    exact abortsInTime_of_pending both.2
  · refine ⟨rules, fun _ stage inside => ?_⟩
    rw [initial.inFlight] at inside
    cases inside

/-- Black replies between the check of White's abort and its effect. -/
def replyDuringAbort : List BoardLabel :=
  [.arrive (.makeMove 1 "e2e4") 0, .advance 0 0, .advance 0 0, .advance 0 0, .advance 0 0,
    .arriveEnding (.abort 1), .advance 0 500,
    .arrive (.makeMove 2 "e7e5") 1000, .advance 1 1000, .advance 1 1000, .advance 1 1000,
    .advance 1 1000, .advance 1 1000, .advance 0 1000, .advance 0 1000, .advance 0 1000,
    .advance 0 1000]

theorem replyDuringAbort_end :
    ((boards openGame some).run newBoard replyDuringAbort).map
      (fun b => (b.db.row.status, b.db.moves.length, b.inFlight)) = some (.aborted, 2, []) := by
  decide +kernel

theorem aborted_after_reply :
    ∃ b, (boards openGame some).run newBoard replyDuringAbort = some b ∧ newBoard.Initial ∧
      b.inFlight = [] ∧ ¬ b.AbortedEarly := by
  obtain ⟨b, ran, seen⟩ := Option.map_eq_some_iff.mp replyDuringAbort_end
  simp only [Prod.mk.injEq] at seen
  obtain ⟨aborted, two, rest⟩ := seen
  refine ⟨b, ran, ⟨rfl, rfl, rfl, rfl, rfl⟩, rest, fun early => ?_⟩
  have few := early aborted
  omega

/-- Here Black replies too late: the abort has taken effect. -/
def replyAfterAbort : List BoardLabel :=
  [.arrive (.makeMove 1 "e2e4") 0, .advance 0 0, .advance 0 0, .advance 0 0, .advance 0 0,
    .arriveEnding (.abort 1), .advance 0 500, .arrive (.makeMove 2 "e7e5") 1000, .advance 1 1000,
    .advance 1 1000, .advance 0 1000, .advance 1 1000, .advance 1 1000, .advance 0 1000]

theorem replyAfterAbort_early :
    Transition.System.Always (boards openGame some) Board.AbortedEarly newBoard replyAfterAbort := by
  have ran : ((boards openGame some).run newBoard replyAfterAbort).isSome := by decide +kernel
  obtain ⟨b, ran⟩ := Option.isSome_iff_exists.mp ran
  have initial : newBoard.Initial := ⟨rfl, rfl, rfl, rfl, rfl⟩
  exact (aborted_early openGame some newBoard b replyAfterAbort initial ran).1.mpr
    (by decide +kernel)

end Farzin.Play
