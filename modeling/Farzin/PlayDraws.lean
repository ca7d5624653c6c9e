import Farzin.PlayAborts

set_option autoImplicit false

/- Draw offers and their acceptance against the moves of the same game. Beside the game stand,
as bookkeeping, the offers that were set, each with the number of moves recorded by then, the
side that accepts in each request in flight, and the side whose acceptance ended the game. -/
namespace Farzin.Play

structure DrawTrail where
  board : Board
  offered : List (ClockSide × Nat)
  acceptors : List (Option ClockSide)
  acceptedBy : Option ClockSide
  deriving DecidableEq, Repr

/-- The side that accepts in the request that goes on: known when it has the offer in hand. -/
def DrawTrail.accepting (t : DrawTrail) (index : Nat) : Option ClockSide :=
  match t.board.inFlight[index]? with
  | some (.answering side _) => some side
  | _ => t.acceptors.getD index none

def DrawTrail.offeredAfter (t : DrawTrail) (label : BoardLabel) : List (ClockSide × Nat) :=
  match t.board.turn label with
  | some (.offering side) => (side, t.board.db.moves.length) :: t.offered
  | _ => t.offered

section Service

variable (chess : ChessJs) (players : Nat → Option Nat)

def DrawTrail.acceptorsAfter (t : DrawTrail) : BoardLabel → List (Option ClockSide)
  | .arrive _ _ => t.acceptors ++ [none]
  | .arriveEnding _ => t.acceptors ++ [none]
  | .advance index now =>
      let rest := (t.board.inFlight[index]?).bind fun stage =>
        (t.board.advance chess players now stage).2
      t.acceptors.eraseIdx index ++ (rest.map fun _ => t.accepting index).toList
  | .expireClock => t.acceptors
  | .expireOffer => t.acceptors

def DrawTrail.acceptedAfter (t : DrawTrail) : BoardLabel → Option ClockSide
  | .advance index now =>
      if t.board.storing (.advance index now) = some .drawAgreed then t.accepting index
      else t.acceptedBy
  | _ => t.acceptedBy

/-- The bookkeeping follows the game and has no say in it. -/
def DrawTrail.step (t : DrawTrail) (label : BoardLabel) : Option DrawTrail :=
  (t.board.step chess players label).map fun board =>
    { board
      offered := t.offeredAfter label
      acceptors := t.acceptorsAfter chess players label
      acceptedBy := t.acceptedAfter label }

/-- A game that has just been created. -/
structure DrawTrail.Initial (t : DrawTrail) : Prop where
  board : t.board.Initial
  offered : t.offered = []
  acceptors : t.acceptors = []

def drawTrails : Transition.System DrawTrail BoardLabel where
  initial := DrawTrail.Initial
  step := DrawTrail.step chess players

/-- The runs with the bookkeeping are the runs of the game. -/
theorem drawTrails_board (t : DrawTrail) (labels : List BoardLabel) :
    ((drawTrails chess players).run t labels).map DrawTrail.board =
      (boards chess players).run t.board labels := by
  induction labels generalizing t with
  | nil => rfl
  | cons label labels ih =>
      rw [Transition.System.run, Transition.System.run]
      change (((t.board.step chess players label).map _).bind _).map _ =
        (t.board.step chess players label).bind _
      cases t.board.step chess players label with
      | none => rfl
      | some board => exact ih _

end Service

/-- A draw that was agreed was offered, by the side that did not accept it, in the position in
which the game ended. -/
def DrawTrail.AgreedAsOffered (t : DrawTrail) : Prop :=
  t.board.db.row.status = .drawAgreed →
    ∃ side ∈ t.acceptedBy, (side.other, t.board.db.moves.length) ∈ t.offered

/-- The acceptance that ends the game answers an offer that no move has cancelled. -/
def AcceptsStanding (t : DrawTrail) (label : BoardLabel) : Prop :=
  t.board.storing label = some .drawAgreed →
    ∃ side ∈ t.acceptedAfter label, (side.other, t.board.db.moves.length) ∈ t.offered

instance decidableAcceptsStanding (t : DrawTrail) (label : BoardLabel) :
    Decidable (AcceptsStanding t label) :=
  inferInstanceAs (Decidable (_ → ∃ side ∈ t.acceptedAfter label,
    (side.other, t.board.db.moves.length) ∈ t.offered))

/-- No move is recorded past a draw that is being accepted, and no offer is read that was set
before the last move. -/
structure LetsAgree (t : DrawTrail) (label : BoardLabel) : Prop where
  moves : t.board.recording label = true →
    ∀ stage ∈ t.board.inFlight, stage.ending ≠ some .drawAgreed
  offers : ∀ side game, t.board.turn label = some (.answering side game) →
    t.board.drawOffer = some side.other → (side.other, t.board.db.moves.length) ∈ t.offered

section Runs

variable {chess : ChessJs} {players : Nat → Option Nat} {t t' : DrawTrail} {label : BoardLabel}

theorem trail_taken (taken : t.step chess players label = some t') :
    t.board.step chess players label = some t'.board ∧ t'.offered = t.offeredAfter label ∧
      t'.acceptors = t.acceptorsAfter chess players label ∧
      t'.acceptedBy = t.acceptedAfter label := by
  obtain ⟨board, step, rfl⟩ := Option.map_eq_some_iff.mp taken
  exact ⟨step, rfl, rfl, rfl⟩

theorem offered_kept {offer : ClockSide × Nat} (set : offer ∈ t.offered) :
    offer ∈ t.offeredAfter label := by
  unfold DrawTrail.offeredAfter
  split
  · exact List.mem_cons_of_mem _ set
  · exact set

theorem acceptedAfter_other (other : t.board.storing label ≠ some .drawAgreed) :
    t.acceptedAfter label = t.acceptedBy := by
  cases label with
  | advance index now => exact if_neg other
  | _ => rfl

theorem agreed_iff (rules : ∀ stage ∈ t.board.inFlight, stage.ByRules)
    (agreed : t.AgreedAsOffered) (taken : t.step chess players label = some t') :
    t'.AgreedAsOffered ↔ AcceptsStanding t label := by
  obtain ⟨step, offers, -, accepted⟩ := trail_taken taken
  unfold DrawTrail.AgreedAsOffered AcceptsStanding
  rw [offers, accepted]
  cases storing : t.board.storing label with
  | none =>
      have otherwise := step_otherwise rules storing step
      refine ⟨fun _ agrees => (by cases agrees), fun _ ended => ?_⟩
      rcases otherwise.result with same | played
      · have before : t.board.db.row.status = .drawAgreed := same.symm.trans ended
        have moves : t'.board.db.moves = t.board.db.moves := by
          apply otherwise.moves
          by_contra recording
          rw [Bool.not_eq_false] at recording
          have active := (otherwise.recorded recording).1
          rw [before] at active
          cases active
        have other : t.board.storing label ≠ some .drawAgreed := by simp [storing]
        obtain ⟨side, accepts, set⟩ := agreed before
        rw [acceptedAfter_other other, moves]
        exact ⟨side, accepts, offered_kept set⟩
      · rw [ended] at played
        exact absurd (by decide) played
  | some status =>
      obtain ⟨-, result, moves, finish, turn, -⟩ := step_storing storing step
      have offered : t.offeredAfter label = t.offered := by simp [DrawTrail.offeredAfter, turn]
      rw [result, moves, offered, Option.some.injEq]

/-- What a request that is to end the game in a draw has behind it. -/
def DrawTrail.Answers (t : DrawTrail) (stage : Stage) (acceptor : Option ClockSide) : Prop :=
  stage.ending = some .drawAgreed →
    ∃ side ∈ acceptor, (side.other, t.board.db.moves.length) ∈ t.offered

def DrawTrail.Standing (t : DrawTrail) : Prop :=
  t.board.db.row.status = .active → List.Forall₂ t.Answers t.board.inFlight t.acceptors

theorem forall₂_eraseIdx {α β : Type} {R : α → β → Prop} {as : List α} {bs : List β}
    (related : List.Forall₂ R as bs) (index : Nat) :
    List.Forall₂ R (as.eraseIdx index) (bs.eraseIdx index) := by
  induction related generalizing index with
  | nil => exact .nil
  | cons first rest ih =>
      cases index with
      | zero => exact rest
      | succ index => exact .cons first (ih index)

theorem forall₂_getD {α β : Type} {R : α → β → Prop} {as : List α} {bs : List β}
    (related : List.Forall₂ R as bs) {index : Nat} {a : α} (here : as[index]? = some a)
    (default : β) : R a (bs.getD index default) := by
  induction related generalizing index with
  | nil => cases here
  | cons first rest ih =>
      cases index with
      | zero =>
          cases here
          exact first
      | succ index => exact ih here

theorem answers_kept (rules : ∀ stage ∈ t.board.inFlight, stage.ByRules) (lets : LetsAgree t label)
    (taken : t.step chess players label = some t') {stage : Stage} {acceptor : Option ClockSide}
    (inside : stage ∈ t.board.inFlight) (answers : t.Answers stage acceptor) :
    t'.Answers stage acceptor := by
  intro agrees
  obtain ⟨step, offers, -⟩ := trail_taken taken
  cases recording : t.board.recording label with
  | true => exact absurd agrees (lets.moves recording stage inside)
  | false =>
      obtain ⟨side, accepts, set⟩ := answers agrees
      rw [(step_counts rules step).moves recording, offers]
      exact ⟨side, accepts, offered_kept set⟩

theorem standing_kept (rules : ∀ stage ∈ t.board.inFlight, stage.ByRules) (standing : t.Standing)
    (lets : LetsAgree t label) (taken : t.step chess players label = some t')
    (active : t'.board.db.row.status = .active) :
    List.Forall₂ t'.Answers t.board.inFlight t.acceptors := by
  have counts := step_counts rules (trail_taken taken).1
  have before := List.forall₂_iff_zip.mp (standing (counts.opened active))
  refine List.forall₂_iff_zip.mpr ⟨before.1, fun inside => ?_⟩
  exact answers_kept rules lets taken (List.of_mem_zip inside).1 (before.2 inside)

/-- The request that goes on passes its acceptor on; one that reads an offer is the acceptor. -/
theorem answers_next (rules : ∀ stage ∈ t.board.inFlight, stage.ByRules) (standing : t.Standing)
    (lets : LetsAgree t label) {index : Nat} {now : Int} (same : label = .advance index now)
    (taken : t.step chess players label = some t') (active : t'.board.db.row.status = .active)
    {stage q : Stage} (here : t.board.inFlight[index]? = some stage)
    (next : q ∈ (t.board.advance chess players now stage).2) :
    t'.Answers q (t.accepting index) := by
  subst same
  intro agrees
  have kept := standing_kept rules standing lets taken active
  obtain ⟨step, offers, -⟩ := trail_taken taken
  have turn := turn_advance now here
  rcases (advance_next next).2 _ agrees with
    still | ⟨request, rfl, checked⟩ | ⟨side, game, rfl, answered⟩
  · have passed : t.accepting index = t.acceptors.getD index none := by
      unfold DrawTrail.accepting
      rw [here]
      cases stage <;> first | rfl | cases still
    rw [passed]
    exact forall₂_getD kept here none still
  · exact absurd agrees (checkEnding_ending checked).2
  · have reads : t.accepting index = some side := by simp [DrawTrail.accepting, here]
    have set := lets.offers side game turn (answerDraw_ending answered).2
    rw [reads, offers, (step_counts rules step).moves (by simp [Board.recording, turn])]
    exact ⟨side, rfl, offered_kept set⟩

theorem standing_step (rules : ∀ stage ∈ t.board.inFlight, stage.ByRules) (standing : t.Standing)
    (lets : LetsAgree t label) (taken : t.step chess players label = some t') : t'.Standing := by
  intro active
  have kept := standing_kept rules standing lets taken active
  obtain ⟨step, -, acceptors, -⟩ := trail_taken taken
  rw [acceptors]
  cases label with
  | arrive | arriveEnding =>
      rw [← Option.some.inj step]
      exact List.rel_append kept (.cons (fun agrees => by cases agrees) .nil)
  | expireClock | expireOffer =>
      rw [← Option.some.inj step]
      exact kept
  | advance index now =>
      obtain ⟨stage, here, same⟩ := board_advance_taken step
      have inFlight : t'.board.inFlight = t.board.inFlight.eraseIdx index ++
          (t.board.advance chess players now stage).2.toList := by rw [same]
      rw [inFlight]
      simp only [DrawTrail.acceptorsAfter, here, Option.bind_some]
      apply List.rel_append (forall₂_eraseIdx kept index)
      cases next : (t.board.advance chess players now stage).2 with
      | none => exact .nil
      | some q => exact .cons (answers_next rules standing lets rfl taken active here next) .nil

theorem acceptsStanding_of_standing (standing : t.Standing) : AcceptsStanding t label := by
  intro agrees
  obtain ⟨active, finish, index, now, rfl, here, agreed⟩ := storing_cases agrees
  have passed : t.acceptedAfter (.advance index now) = t.acceptors.getD index none := by
    simp only [DrawTrail.acceptedAfter, if_pos agrees, DrawTrail.accepting, here]
  rw [passed]
  exact forall₂_getD (standing active) here none (congrArg some agreed)

end Runs

/-- In every run of the requests on one game, a draw is agreed in the position in which the other
side offered it exactly when, each time an acceptance takes effect, no move has been recorded
since an offer of the other side. That is so as long as no move is recorded past a draw that is
being accepted and no offer is read that was set before the last move. -/
theorem agreed_as_offered (chess : ChessJs) (players : Nat → Option Nat) (start t : DrawTrail)
    (labels : List BoardLabel) (initial : start.Initial)
    (ran : (drawTrails chess players).run start labels = some t) :
    (Transition.System.Always (drawTrails chess players) DrawTrail.AgreedAsOffered start labels ↔
        Transition.System.Guarded AcceptsStanding (drawTrails chess players) start labels) ∧
      (Transition.System.Guarded LetsAgree (drawTrails chess players) start labels →
        Transition.System.Always (drawTrails chess players) DrawTrail.AgreedAsOffered start
          labels) := by
  have rules := initial_byRules initial.board
  have agreed : start.AgreedAsOffered := by
    intro ended
    rw [initial.board.active] at ended
    cases ended
  have exactly := Transition.System.always_iff_guarded
    (fun t : DrawTrail => ∀ stage ∈ t.board.inFlight, stage.ByRules) DrawTrail.AgreedAsOffered
    (fun s label t rules taken => step_byRules rules (trail_taken taken).1)
    (fun s label t rules agreed taken => agreed_iff rules agreed taken)
    start t labels ran rules agreed
  refine ⟨exactly, fun lets => exactly.mpr ?_⟩
  apply lets.under fun t : DrawTrail =>
    (∀ stage ∈ t.board.inFlight, stage.ByRules) ∧ t.Standing
  · intro s label t both lets taken
    exact ⟨step_byRules both.1 (trail_taken taken).1, standing_step both.1 both.2 lets taken⟩
  · intro s label both _
    exact acceptsStanding_of_standing both.2
  · refine ⟨rules, fun _ => ?_⟩
    rw [initial.board.inFlight, initial.acceptors]
    exact .nil

def newTrail : DrawTrail where
  board := newBoard
  offered := []
  acceptors := []
  acceptedBy := none

theorem newTrail_initial : newTrail.Initial := ⟨⟨rfl, rfl, rfl, rfl, rfl⟩, rfl, rfl⟩

/-- White has Black's offer in hand and moves instead; then the acceptance takes effect. -/
def moveDuringAcceptance : List BoardLabel :=
  [.arriveEnding (.offerDraw 2), .advance 0 0, .advance 0 0, .arriveEnding (.acceptDraw 1),
    .advance 0 0, .advance 0 0, .arrive (.makeMove 1 "e2e4") 0, .advance 1 0, .advance 1 0,
    .advance 1 0, .advance 1 0, .advance 0 0, .advance 0 0, .advance 0 0, .advance 0 0]

theorem moveDuringAcceptance_end :
    ((drawTrails openGame some).run newTrail moveDuringAcceptance).map
      (fun t => (t.board.db.row.status, t.board.db.moves.length, t.board.inFlight, t.offered)) =
      some (.drawAgreed, 1, [], [(.b, 0)]) := by
  decide +kernel

theorem agreed_after_move :
    ∃ t, (drawTrails openGame some).run newTrail moveDuringAcceptance = some t ∧
      newTrail.Initial ∧ t.board.inFlight = [] ∧ ¬ t.AgreedAsOffered := by
  obtain ⟨t, ran, seen⟩ := Option.map_eq_some_iff.mp moveDuringAcceptance_end
  simp only [Prod.mk.injEq] at seen
  obtain ⟨ended, one, rest, offered⟩ := seen
  refine ⟨t, ran, newTrail_initial, rest, fun agreed => ?_⟩
  obtain ⟨side, -, set⟩ := agreed ended
  rw [offered, one] at set
  cases (Prod.mk.inj (List.mem_singleton.mp set)).2

/-- Here White answers the offer and does not move. -/
def acceptanceAlone : List BoardLabel :=
  [.arrive (.makeMove 1 "e2e4") 0, .advance 0 0, .advance 0 0, .advance 0 0, .advance 0 0,
    .arriveEnding (.offerDraw 2), .advance 0 0, .advance 0 0, .arriveEnding (.acceptDraw 1),
    .advance 0 0, .advance 0 0, .advance 0 0, .advance 0 0, .advance 0 0, .advance 0 0]

theorem acceptanceAlone_agreed :
    Transition.System.Always (drawTrails openGame some) DrawTrail.AgreedAsOffered newTrail
      acceptanceAlone := by
  have ran : ((drawTrails openGame some).run newTrail acceptanceAlone).isSome := by decide +kernel
  obtain ⟨t, ran⟩ := Option.isSome_iff_exists.mp ran
  exact (agreed_as_offered openGame some newTrail t acceptanceAlone newTrail_initial ran).1.mpr
    (by decide +kernel)

end Farzin.Play
