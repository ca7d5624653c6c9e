import Farzin.ArbiterRounds

set_option autoImplicit false

/- How often a round is completed. Its status is checked at one await and set at another, and every
completion enqueues an outbox event. -/
namespace Farzin.Arbiter

open Interleaving Transition

/-- The events that say that a round has been completed; each comes from one transaction that sets
its status. -/
def ArbiterDb.completions (s : ArbiterDb) (roundId : Nat) : Nat :=
  s.outbox.countP fun event => event.roundId = roundId

/-- A completed round has been completed once, and any other never. -/
def ArbiterDb.CompletedOnce (s : ArbiterDb) : Prop :=
  ∀ round ∈ s.data.rounds,
    s.completions round.id = if round.status = .completed then 1 else 0

instance (s : ArbiterDb) : Decidable s.CompletedOnce := by
  unfold ArbiterDb.CompletedOnce
  infer_instance

/-- No other request has completed the round since this one found it. -/
def NotOvertaken (s : ArbiterDb) : ArbiterCall → Prop
  | .writeCompleted roundId found => ∀ round ∈ s.data.rounds, round.id = roundId →
      round.status = .completed → found = .completed
  | _ => True

instance (s : ArbiterDb) : (call : ArbiterCall) → Decidable (NotOvertaken s call)
  | .writeCompleted roundId found => inferInstanceAs (Decidable (∀ round ∈ s.data.rounds,
      round.id = roundId → round.status = .completed → found = .completed))
  | .generateRound _ | .latestRound | .activeRegistrations _ | .assignNumbers _
  | .participants _ _ | .pair _ _ _ | .createRound _ _ _ | .enterResult _ | .checkResult _ _
  | .writeResult _ | .completeRound _ _ | .checkRound _ _ | .recompute | .computeRows _
  | .upsert _ _ _ => .isTrue trivial

/-- The service has refused the request if it found the round completed. -/
def ArbiterCall.Checked : ArbiterCall → Prop
  | .writeCompleted _ found => found ≠ .completed
  | _ => True

/-- Events are about rounds that there are. -/
def ArbiterDb.Logged (s : ArbiterDb) : Prop := ∀ event ∈ s.outbox, event.roundId < s.data.nextId

section Effects

variable {s t : ArbiterDb}

theorem effect_logged {call : ArbiterCall} (sound : s.Sound) (logged : s.Logged)
    (effect : ArbiterEffect s call t) : t.Logged := by
  cases effect with
  | idle | upserted | entered => exact logged
  | numbered number data assigned done =>
      intro event listed
      change event.roundId < data.nextId
      rw [(assignNumbers_keeps done).2.1]
      exact logged event listed
  | created number assigned result free =>
      intro event listed
      have below := logged event listed
      change event.roundId < s.data.nextId + 1 + _
      omega
  | completed roundId status round found =>
      intro event listed
      rcases List.mem_append.mp listed with old | new
      · exact logged event old
      · rw [List.mem_singleton.mp new]
        have named : round.id = roundId := by simpa using List.find?_some found
        have below := sound.fresh round (List.mem_of_find?_eq_some found)
        rw [named] at below
        exact below

/-- A step that keeps the ids and the status of every round, and the events. -/
theorem completedOnce_same {data : Section} (once : s.CompletedOnce)
    (same : ∀ round ∈ data.rounds, ∃ before ∈ s.data.rounds,
      before.id = round.id ∧ before.status = round.status) : (s.withData data).CompletedOnce := by
  intro round listed
  obtain ⟨before, old, id, status⟩ := same round listed
  change s.completions round.id = _
  rw [← id, ← status]
  exact once before old

theorem completed_iff {roundId : Nat} {round : RoundRow} (sound : s.Sound)
    (once : s.CompletedOnce) (found : s.data.findRound roundId = some round) :
    ArbiterDb.CompletedOnce { s with
        data := s.data.setCompleted roundId
        outbox := s.outbox ++ [⟨roundId, s.data.id, round.number⟩] } ↔
      round.status ≠ .completed := by
  have named : round.id = roundId := by simpa using List.find?_some found
  have inside : round ∈ s.data.rounds := List.mem_of_find?_eq_some found
  have counts : ∀ id, ArbiterDb.completions { s with
        data := s.data.setCompleted roundId
        outbox := s.outbox ++ [⟨roundId, s.data.id, round.number⟩] } id =
      s.completions id + if roundId = id then 1 else 0 := by
    intro id
    show (s.outbox ++ _).countP _ = s.outbox.countP _ + _
    rw [List.countP_append, List.countP_singleton]
    simp
  have before := once round inside
  rw [named] at before
  constructor
  · intro after open'
    have own := after { round with status := .completed } (List.mem_map.mpr
      ⟨round, inside, by rw [if_pos named]⟩)
    rw [counts, if_pos named.symm, if_pos rfl] at own
    change s.completions round.id + 1 = 1 at own
    rw [named, before, if_pos open'] at own
    omega
  · intro open' other listed
    obtain ⟨stored, old, rfl⟩ := List.mem_map.mp listed
    by_cases same : stored.id = roundId
    · have equal : stored = round := List.inj_on_of_nodup_map sound.roundIds old inside
        (same.trans named.symm)
      rw [if_pos same, counts]
      change s.completions stored.id + (if roundId = stored.id then 1 else 0) = if _ then 1 else 0
      rw [same, before, if_neg open', if_pos rfl, if_pos rfl]
    · rw [if_neg same, counts, if_neg (Ne.symm same)]
      exact once stored old

theorem created_completedOnce (logged : s.Logged) (once : s.CompletedOnce) (number : Nat)
    (result : PairingResult) :
    (s.withData (s.data.createRoundWithPairings number result).1).CompletedOnce := by
  intro round listed
  rcases List.mem_append.mp listed with old | new
  · exact once round old
  · rw [List.mem_singleton.mp new]
    change s.completions s.data.nextId = 0
    apply List.countP_eq_zero.mpr
    intro event there same
    have below := logged event there
    rw [of_decide_eq_true same] at below
    exact lt_irrefl _ below

/-- No other await touches events or the status of a round. -/
theorem effect_completedOnce {call : ArbiterCall} (logged : s.Logged) (once : s.CompletedOnce)
    (other : ∀ roundId found, call ≠ .writeCompleted roundId found)
    (effect : ArbiterEffect s call t) : t.CompletedOnce := by
  cases effect with
  | idle | upserted => exact once
  | numbered number data assigned done =>
      apply completedOnce_same once
      intro round listed
      rw [(assignNumbers_keeps done).1] at listed
      exact ⟨round, listed, rfl, rfl⟩
  | created number assigned result => exact created_completedOnce logged once number result
  | entered call =>
      apply completedOnce_same once
      intro round listed
      obtain ⟨before, old, rfl⟩ := List.mem_map.mp listed
      exact ⟨before, old, rfl, rfl⟩
  | completed roundId status => exact absurd rfl (other roundId status)

theorem checkRound_open {data : Section} {allowed : Bool} {round : RoundRow}
    (passed : data.checkRound allowed round = .ok ()) : round.status ≠ .completed := by
  unfold Section.checkRound at passed
  split at passed
  · cases passed
  split at passed
  · cases passed
  split at passed
  · cases passed
  · assumption

theorem advance_checked {call rest : ArbiterCall} (left : (s.advance call).2 = some rest) :
    rest.Checked := by
  cases rest with
  | writeCompleted roundId found =>
      cases call with
      | checkRound allowed round =>
          rw [ArbiterDb.advance] at left
          split at left
          · cases left
          · rename_i passed
            cases left
            exact checkRound_open passed
      | enterResult call =>
          obtain ⟨_, _, same⟩ := Option.map_eq_some_iff.mp left
          cases same
      | completeRound allowed roundId =>
          obtain ⟨_, _, same⟩ := Option.map_eq_some_iff.mp left
          cases same
      | generateRound | latestRound | activeRegistrations | assignNumbers | participants | pair
      | createRound | checkResult | writeResult | writeCompleted | recompute | computeRows
      | upsert =>
          rw [ArbiterDb.advance] at left
          repeat' split at left
          all_goals cases left
  | generateRound | latestRound | activeRegistrations | assignNumbers | participants | pair
  | createRound | enterResult | checkResult | writeResult | completeRound | checkRound | recompute
  | computeRows | upsert => trivial

/-- As the request found the round open, it completes an open one unless another has come first. -/
theorem advance_completedOnce (sound : s.Sound) (logged : s.Logged) (once : s.CompletedOnce)
    {call : ArbiterCall} (checked : call.Checked) :
    (s.advance call).1.CompletedOnce ↔ NotOvertaken s call := by
  cases call with
  | writeCompleted roundId status =>
      have opened : status ≠ .completed := checked
      rw [ArbiterDb.advance, ArbiterDb.writeCompleted]
      cases found : s.data.findRound roundId with
      | none =>
          refine iff_of_true once fun round listed same => ?_
          have none := List.find?_eq_none.mp found round listed
          simp [same] at none
      | some round =>
          apply (completed_iff sound once found).trans
          have named : round.id = roundId := by simpa using List.find?_some found
          have inside : round ∈ s.data.rounds := List.mem_of_find?_eq_some found
          constructor
          · intro notYet other listed same completed
            rw [List.inj_on_of_nodup_map sound.roundIds listed inside (same.trans named.symm)]
              at completed
            exact absurd completed notYet
          · intro notOvertaken completed
            exact opened (notOvertaken round inside named completed)
  | generateRound | latestRound | activeRegistrations | assignNumbers | participants | pair
  | createRound | enterResult | checkResult | writeResult | completeRound | checkRound | recompute
  | computeRows | upsert =>
      exact iff_of_true
        (effect_completedOnce logged once (fun _ _ same => by cases same) (arbiter_effect _)) trivial

theorem ArbiterDb.Initial.completedOnce (initial : s.Initial) : s.CompletedOnce := by
  intro round listed
  rw [initial.start.rounds] at listed
  cases listed

end Effects

theorem completions_outline : Outline arbiterRequests (fun _ _ => True)
    (fun s => s.Sound ∧ s.Logged) (fun s call => call.Sound s ∧ call.Checked) where
  starts s initial := by
    refine ⟨initial.sound, fun event listed => ?_⟩
    rw [initial.outbox] at listed
    cases listed
  enters s call both arrives := by
    refine ⟨arbiterRequests_outline.enters s call both.1 arrives, ?_⟩
    cases call with
    | writeCompleted => cases arrives
    | generateRound | latestRound | activeRegistrations | assignNumbers | participants | pair
    | createRound | enterResult | checkResult | writeResult | completeRound | checkRound
    | recompute | computeRows | upsert => trivial
  acts s call both own free := ⟨arbiterRequests_outline.acts s call both.1 own.1 free,
    effect_logged both.1 both.2 (arbiter_effect call)⟩
  continues s call rest both own free left :=
    ⟨arbiterRequests_outline.continues s call rest both.1 own.1 free left, advance_checked left⟩
  stable s call other both own free known :=
    ⟨arbiterRequests_outline.stable s call other both.1 own.1 free known.1, known.2⟩
  events s event t both happened := by
    obtain ⟨sound, others⟩ := arbiterRequests_outline.events s event t both.1 happened
    refine ⟨⟨sound, ?_⟩, fun other known => ⟨others other known.1, known.2⟩⟩
    cases event with
    | setInProgress inProgress =>
        cases happened
        exact both.2

/-- In a run every round that is completed has been so once, with one event, and any other never,
if and only if no request completes a round between the read of another one and its transaction. -/
theorem completed_once_iff (s t : Pool ArbiterDb ArbiterCall)
    (labels : List (Label ArbiterCall ArbiterEvent)) (initial : arbiterRequests.system.initial s)
    (ran : arbiterRequests.system.run s labels = some t) :
    arbiterRequests.system.Always (fun pool => pool.shared.CompletedOnce) s labels ↔
      System.Guarded (Advancing NotOvertaken) arbiterRequests.system s labels := by
  refine completions_outline.always_iff ArbiterDb.CompletedOnce ?_ ?_ ?_ initial ran
  · intro s initial
    exact initial.completedOnce
  · intro s call both own once
    exact advance_completedOnce both.1 both.2 once own.2
  · intro s event t _ once happened
    cases event with
    | setInProgress inProgress =>
        cases happened
        exact once

section Runs

/-- Both requests check the round before either of them completes it. -/
def bothComplete : List (Label ArbiterCall ArbiterEvent) :=
  firstDraw ++ [.arrive (.completeRound true 10), .arrive (.completeRound true 10)] ++
    List.replicate 6 (.advance 0)

theorem completed_twice : ∃ pool, arbiterRequests.system.run ⟨twoPlayers, []⟩ bothComplete =
    some pool ∧ pool.shared.completions 10 = 2 ∧ ¬ pool.shared.CompletedOnce := by
  have ends : (arbiterRequests.system.run ⟨twoPlayers, []⟩ bothComplete).map (fun pool =>
      (pool.shared.completions 10, decide pool.shared.CompletedOnce)) = some (2, false) := by
    decide +kernel
  obtain ⟨pool, ran, same⟩ := Option.map_eq_some_iff.mp ends
  exact ⟨pool, ran, congrArg Prod.fst same, of_decide_eq_false (congrArg Prod.snd same)⟩

/-- The second request comes when the round is completed, and is refused. -/
def completeAgain : List (Label ArbiterCall ArbiterEvent) :=
  firstDraw ++ request (.completeRound true 10) 6 ++ request (.completeRound true 10) 2

theorem completeAgain_once : arbiterRequests.system.Always
    (fun pool => pool.shared.CompletedOnce) ⟨twoPlayers, []⟩ completeAgain := by
  have runs : (arbiterRequests.system.run ⟨twoPlayers, []⟩ completeAgain).isSome := by
    decide +kernel
  obtain ⟨pool, ran⟩ := Option.isSome_iff_exists.mp runs
  exact (completed_once_iff _ pool completeAgain twoPlayers_initial ran).mpr (by decide +kernel)

end Runs

end Farzin.Arbiter
