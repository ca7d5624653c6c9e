import Farzin.ArbiterSection

set_option autoImplicit false

/- Corrections of results and the rounds after them. A correction moves a colour in the middle of
a history; the next round is safe as long as everyone has a colour left. -/
namespace Farzin.Arbiter

open Checked Swiss Transition

section Latest

theorem fold_laterRound (rounds : List RoundRow) (start : RoundRow) :
    ∃ latest, rounds.foldl laterRound (some start) = some latest ∧
      start.number ≤ latest.number ∧ ∀ round ∈ rounds, round.number ≤ latest.number := by
  induction rounds generalizing start with
  | nil => exact ⟨start, rfl, Nat.le_refl _, fun _ listed => by cases listed⟩
  | cons round rounds ih =>
      have step : ∃ best, laterRound (some start) round = some best ∧
          start.number ≤ best.number ∧ round.number ≤ best.number := by
        unfold laterRound
        by_cases later : start.number < round.number
        · exact ⟨round, if_pos later, by omega, Nat.le_refl _⟩
        · exact ⟨start, if_neg later, Nat.le_refl _, by omega⟩
      obtain ⟨best, chosen, above, here⟩ := step
      obtain ⟨latest, found, most, rest⟩ := ih best
      rw [List.foldl_cons, chosen]
      refine ⟨latest, found, by omega, fun other listed => ?_⟩
      rcases List.mem_cons.mp listed with same | later
      · rw [same]
        omega
      · exact rest other later

theorem latestRound_number {s : Section} {latest : RoundRow} (found : s.latestRound = some latest)
    {round : RoundRow} (listed : round ∈ s.rounds) : round.number ≤ latest.number := by
  unfold Section.latestRound at found
  cases rounds : s.rounds with
  | nil =>
      rw [rounds] at listed
      cases listed
  | cons first others =>
      rw [rounds] at found listed
      obtain ⟨most, same, above, rest⟩ := fold_laterRound others first
      rw [List.foldl_cons, show laterRound none first = some first from rfl, same] at found
      rw [← Option.some.inj found]
      rcases List.mem_cons.mp listed with here | later
      · rw [here]
        exact above
      · exact rest round later

theorem latestRound_none {s : Section} (found : s.latestRound = none) : s.rounds = [] := by
  unfold Section.latestRound at found
  cases rounds : s.rounds with
  | nil => rfl
  | cons first others =>
      rw [rounds] at found
      obtain ⟨most, same, _⟩ := fold_laterRound others first
      rw [List.foldl_cons, show laterRound none first = some first from rfl, same] at found
      cases found

end Latest

section Histories

variable {s : Section}

/-- The rounds of a section are kept in their order. -/
def InOrder (rounds : List RoundRow) : Prop :=
  rounds.Pairwise fun a b => a.number ≤ b.number

theorem history_eq (order : InOrder s.rounds) :
    s.history = s.rounds.flatMap RoundRow.entries := by
  unfold Section.history
  rw [List.Pairwise.insertionSort_eq order]

theorem entries_number {round : RoundRow} {entry : PairingHistoryEntry}
    (listed : entry ∈ RoundRow.entries round) : entry.roundNumber = round.number := by
  obtain ⟨_, _, same⟩ := List.mem_map.mp listed
  rw [← same]

theorem sortEntries_history (order : InOrder s.rounds) :
    sortEntries s.history = s.rounds.flatMap RoundRow.entries := by
  rw [history_eq order]
  apply sortEntries_ordered
  apply List.pairwise_flatMap.mpr
  refine ⟨fun round _ => ?_, order.imp fun {a b} before e hereE f hereF => ?_⟩
  · apply List.pairwise_of_forall_mem_list
    intro e hereE f hereF
    rw [entries_number hereE, entries_number hereF]
  · rw [entries_number hereE, entries_number hereF]
    exact before

/-- The colours of a player in a section. -/
def Section.colors (s : Section) (id : PlayerId) : List Color :=
  colorsOf id (sortEntries s.history)

/-- Nobody has a colour in a round before its results. -/
theorem boardRows_colors {firstId : Nat} {result : PairingResult} {row : PairingRow}
    (listed : row ∈ boardRows firstId result) (number : Nat) (id : PlayerId) :
    colorOf id ⟨number, row.whiteRegistrationId, row.blackRegistrationId, row.result⟩ = none := by
  have kinds : row.result = .unplayed ∨ row.result = .byeFull := by
    rcases List.mem_append.mp listed with board | bye
    · obtain ⟨_, _, same⟩ := List.mem_mapIdx.mp board
      rw [← same]
      exact .inl rfl
    · obtain ⟨_, _, same⟩ := List.mem_mapIdx.mp bye
      rw [← same]
      exact .inr rfl
  unfold colorOf
  apply Option.bind_eq_none_iff.mpr
  intro side _
  dsimp only
  rcases kinds with kind | kind
  · rw [kind]
    rfl
  · rw [kind]
    cases side with
    | white => rfl
    | black => rfl

theorem created_colors (order : InOrder s.rounds) {number : Nat} (result : PairingResult)
    (above : ∀ round ∈ s.rounds, round.number ≤ number) (id : PlayerId) :
    InOrder (s.createRoundWithPairings number result).1.rounds ∧
      (s.createRoundWithPairings number result).1.colors id = s.colors id := by
  have grown : InOrder (s.createRoundWithPairings number result).1.rounds := by
    apply List.pairwise_append.mpr
    refine ⟨order, List.pairwise_singleton _ _, fun a here b there => ?_⟩
    rw [List.mem_singleton.mp there]
    exact above a here
  refine ⟨grown, ?_⟩
  unfold Section.colors
  rw [sortEntries_history grown, sortEntries_history order]
  change colorsOf id ((s.rounds ++ [_]).flatMap _) = _
  rw [List.flatMap_append, List.flatMap_singleton, colorsOf, List.filterMap_append]
  have plain : List.filterMap (colorOf id) (RoundRow.entries
      ⟨s.nextId, number, .paired, boardRows (s.nextId + 1) result⟩) = [] := by
    apply List.filterMap_eq_nil_iff.mpr
    intro entry listed
    obtain ⟨row, here, same⟩ := List.mem_map.mp listed
    rw [← same]
    exact boardRows_colors ((List.perm_insertionSort _ _).mem_iff.mp here) number id
  rw [plain, List.append_nil]
  rfl

end Histories

section Steps

/-- The engine's check of its own pairing did not fail. -/
def IntegrityKept (answer : Except ArbiterError RoundRow) : Prop :=
  ∀ roundId criterion reason, answer ≠ .error (.pairingIntegrity roundId criterion reason)

/-- What every request keeps, unless it takes the last colour from a player. -/
structure Section.Settled (s : Section) : Prop where
  distinct : (s.registrations.map Registration.id).Nodup
  order : InOrder s.rounds
  playable : ∀ id, Playable (s.colors id)

variable {s : Section}

theorem seeds_distinct (distinct : (s.registrations.map Registration.id).Nodup) :
    (s.seeds.map ParticipantSeed.registrationId).Nodup := by
  unfold Section.seeds
  apply ((List.perm_insertionSort _ _).map ParticipantSeed.registrationId).nodup_iff.mpr
  generalize s.registrations = registrations at distinct
  induction registrations with
  | nil => exact .nil
  | cons r registrations ih =>
      obtain ⟨new, rest⟩ := List.nodup_cons.mp distinct
      cases number : r.pairingNumber with
      | none =>
          rw [List.filterMap_cons_none (by rw [number]; rfl)]
          exact ih rest
      | some n =>
          rw [List.filterMap_cons_some (by rw [number]; rfl), List.map_cons]
          refine List.nodup_cons.mpr ⟨fun known => ?_, ih rest⟩
          obtain ⟨seed, listed, same⟩ := List.mem_map.mp known
          obtain ⟨other, here, made⟩ := List.mem_filterMap.mp listed
          obtain ⟨m, _, built⟩ := Option.map_eq_some_iff.mp made
          apply new
          rw [show r.id = seed.registrationId from same.symm, ← built]
          exact List.mem_map_of_mem here

theorem numberRegistration_id (sorted : List Registration) (r : Registration) :
    (Registration.id ∘ Section.numberRegistration sorted) r = r.id := by
  change (Section.numberRegistration sorted r).id = r.id
  unfold Section.numberRegistration
  split
  · rfl
  · rfl

/-- Giving numbers changes nothing else. -/
theorem withNumbers_settled (settled : s.Settled) {numbered : Section}
    (given : s.withNumbers = some numbered) :
    numbered.Settled ∧ numbered.rounds = s.rounds := by
  unfold Section.withNumbers at given
  split at given
  · unfold Section.assignPairingNumbers at given
    dsimp only at given
    split at given
    · cases given
    · cases given
      refine ⟨⟨?_, settled.order, settled.playable⟩, rfl⟩
      rw [List.map_map, funext (numberRegistration_id _)]
      exact settled.distinct
  · cases given
    exact ⟨settled, rfl⟩

theorem request_consistent (settled : s.Settled) (number : Nat) :
    Consistent (s.request number).players :=
  buildPairingStates_consistent (seeds_distinct settled.distinct) settled.playable

theorem pairRound_settled (settled : s.Settled) {number : Nat}
    (above : ∀ round ∈ s.rounds, round.number ≤ number) :
    (s.pairRound number).1.Settled ∧ IntegrityKept (s.pairRound number).2 := by
  have safe := compute_yields (request_consistent settled number)
  unfold Section.pairRound
  split
  · exact ⟨settled, fun _ _ _ same => by cases same⟩
  · rename_i failed
    exact (safe.failure _ failed).elim
  · exact ⟨settled, fun _ _ _ same => by cases same⟩
  · rename_i result _
    have created := created_colors settled.order result above
    refine ⟨⟨settled.distinct, (created 0).1, fun id => ?_⟩, fun _ _ _ same => by cases same⟩
    rw [(created id).2]
    exact settled.playable id

theorem generateRound_next (settled : s.Settled) {number : Nat}
    (above : ∀ round ∈ s.rounds, round.number ≤ number) :
    (Section.generateRound.next s number).1.Settled ∧
      IntegrityKept (Section.generateRound.next s number).2 := by
  unfold Section.generateRound.next
  split
  · exact ⟨settled, fun _ _ _ same => by cases same⟩
  · rename_i numbered given
    obtain ⟨still, same⟩ := withNumbers_settled settled given
    rw [← same] at above
    exact pairRound_settled still above

/-- A settled section makes its rounds without breaking a criterion. -/
theorem generateRound_settled (settled : s.Settled) (allowed : Bool) :
    (s.generateRound allowed).1.Settled ∧ IntegrityKept (s.generateRound allowed).2 := by
  have refused : ∀ e : ArbiterError, (∀ roundId criterion reason,
      e ≠ .pairingIntegrity roundId criterion reason) →
      s.Settled ∧ IntegrityKept (.error e) := by
    intro e other
    refine ⟨settled, fun roundId criterion reason same => ?_⟩
    exact other roundId criterion reason (Except.error.inj same)
  unfold Section.generateRound
  split
  · exact refused .notFound fun _ _ _ same => by cases same
  · split
    · exact refused .tournamentNotInProgress fun _ _ _ same => by cases same
    · split
      · rename_i latest found
        split
        · exact refused _ fun _ _ _ same => by cases same
        · apply generateRound_next settled
          intro round listed
          exact Nat.le_succ_of_le (latestRound_number found listed)
      · rename_i found
        apply generateRound_next settled
        rw [latestRound_none found]
        intro round listed
        cases listed

/-- Is there a colour left for everyone after a result is entered? -/
def harmless (s : Section) : Request → Prop
  | .enterResult call => ∀ id, Playable ((s.enterResult call).1.colors id)
  | _ => True

theorem setResult_order (order : InOrder s.rounds) (pairingId : Nat)
    (result : PairingResultValue) : InOrder (s.setResult pairingId result).rounds := by
  unfold InOrder Section.setResult
  exact List.pairwise_map.mpr order

theorem completed_entries (rounds : List RoundRow) (roundId : Nat) :
    (rounds.map fun round => if round.id = roundId then { round with status := .completed }
      else round).flatMap RoundRow.entries = rounds.flatMap RoundRow.entries := by
  rw [List.flatMap_map]
  congr 1
  funext round
  split
  · rfl
  · rfl

theorem serve_settled (settled : s.Settled) (request : Request) (safe : harmless s request) :
    (s.serve request).Settled := by
  cases request with
  | generateRound allowed => exact (generateRound_settled settled allowed).1
  | enterResult call =>
      change (s.enterResult call).1.Settled
      have playable : ∀ id, Playable ((s.enterResult call).1.colors id) := safe
      revert playable
      unfold Section.enterResult
      split
      · exact fun _ => settled
      · dsimp only
        split
        · exact fun _ => settled
        · split
          · exact fun _ => settled
          · split
            · exact fun _ => settled
            · split
              · exact fun _ => settled
              · intro playable
                exact ⟨settled.distinct, setResult_order settled.order _ _, playable⟩
  | completeRound allowed roundId =>
      change (s.completeRound allowed roundId).1.Settled
      unfold Section.completeRound
      split
      · exact settled
      · split
        · exact settled
        · split
          · exact settled
          · split
            · exact settled
            · dsimp only
              split
              · exact settled
              · have order : InOrder (s.rounds.map fun round =>
                    if round.id = roundId then { round with status := .completed } else round) := by
                  apply List.pairwise_map.mpr
                  apply settled.order.imp
                  intro a b before
                  split
                  · split
                    · exact before
                    · exact before
                  · split
                    · exact before
                    · exact before
                refine ⟨settled.distinct, order, fun id => ?_⟩
                have known := settled.playable id
                unfold Section.colors at known ⊢
                rw [sortEntries_history settled.order] at known
                rw [sortEntries_history order, completed_entries]
                exact known
  | withdraw allowed registrationId reason =>
      change (s.withdraw allowed registrationId reason).1.Settled
      unfold Section.withdraw
      split
      · exact settled
      · split
        · exact settled
        · split
          · exact settled
          · split
            · exact settled
            · refine ⟨?_, settled.order, settled.playable⟩
              rw [List.map_map]
              have kept : (Registration.id ∘ fun r : Registration =>
                  if r.id = registrationId then { r with isWithdrawn := true } else r) =
                  Registration.id := by
                funext r
                dsimp only [Function.comp]
                split
                · rfl
                · rfl
              rw [kept]
              exact settled.distinct

theorem reachable_settled (reached : service.ReachableWhile harmless s) : s.Settled := by
  apply System.ReachableWhile.invariant Section.Settled _ _ reached
  · intro s start
    refine ⟨start.distinct, ?_, fun id => ?_⟩
    · rw [start.rounds]
      exact .nil
    · unfold Section.colors Section.history
      rw [start.rounds]
      exact ColorBounded.nil.playable
  · intro s request after settled safe taken
    rw [← Option.some.inj taken]
    exact serve_settled settled request safe

/-- As long as no entered result takes the last colour from a player, the engine's check of its
own pairing never fails. -/
theorem corrected_results (s : Section) (reached : service.ReachableWhile harmless s)
    (allowed : Bool) : IntegrityKept (s.generateRound allowed).2 :=
  (generateRound_settled (reachable_settled reached) allowed).2

end Steps

section Runs

theorem playable_listed {entries : List PairingHistoryEntry} :
    (∀ id ∈ entries.flatMap entryIds, Playable (colorsOf id entries)) ↔
      ∀ id, Playable (colorsOf id entries) := by
  constructor
  · intro listed id
    by_cases here : id ∈ entries.flatMap entryIds
    · exact listed id here
    · have none : colorsOf id entries = [] := by
        apply List.filterMap_eq_nil_iff.mpr
        intro entry there
        cases played : colorOf id entry with
        | none => rfl
        | some _ => exact absurd (List.mem_flatMap.mpr ⟨entry, there, colorOf_mem played⟩) here
      rw [none]
      exact ColorBounded.nil.playable
  · exact fun all id _ => all id

instance decidableHarmless (s : Section) (request : Request) : Decidable (harmless s request) :=
  match request with
  | .enterResult _ => decidable_of_iff _ playable_listed
  | .generateRound _ | .completeRound _ _ | .withdraw _ _ _ => .isTrue trivial

/-- A section of players with falling ratings. -/
def sectionOf (size : Nat) (totalRounds : Int) : Section where
  id := "open"
  inProgress := true
  totalRounds := totalRounds
  registrations := (List.range size).map fun i =>
    { id := i + 1, isConfirmed := true, isWithdrawn := false, pairingNumber := none,
      ratingAtEntry := some (2000 - 100 * i), createdAt := 0, joinedAtRound := none }
  rounds := []
  nextId := 0

def doubleForfeit (pairingId : Nat) : Request :=
  .enterResult ⟨true, pairingId, .doubleForfeit, by decide, none⟩

def correctedDraw (pairingId : Nat) : Request :=
  .enterResult ⟨true, pairingId, .draw, by decide, some "protest"⟩

/-- A round of eight players in which nobody comes to the board. -/
def forfeitedRound (round : Nat) : List Request :=
  [.generateRound true] ++ (List.range 4).map (fun board => doubleForfeit (5 * round + board + 1)) ++
    [.completeRound true (5 * round)]

/-- Without colours the first player has White in four rounds; then these become draws. -/
def forfeitsThenDraws : List Request :=
  forfeitedRound 0 ++ forfeitedRound 1 ++ forfeitedRound 2 ++ forfeitedRound 3 ++
    [correctedDraw 1, correctedDraw 6, correctedDraw 11, correctedDraw 16]

theorem forfeitsThenDraws_broken :
    ∃ s, service.Reachable s ∧ ¬IntegrityKept (s.generateRound true).2 := by
  have ran : (service.run (sectionOf 8 7) forfeitsThenDraws).map
      (fun s => (s.generateRound true).2) =
      some (.error (.pairingIntegrity "open#5" .c3Color
        "rang chegarasi buzildi: 1 uchun |CD| > 2 (topscorer emas)")) := by
    decide +kernel
  obtain ⟨s, reached, failed⟩ := Option.map_eq_some_iff.mp ran
  refine ⟨s, System.run_reachable _ s forfeitsThenDraws ?_ reached, fun kept => kept _ _ _ failed⟩
  exact ⟨rfl, by decide⟩

/-- A round of four players, one game of which becomes a forfeit afterwards. -/
def drawThenForfeit : List Request :=
  [.generateRound true, .enterResult ⟨true, 1, .draw, by decide, none⟩,
    .enterResult ⟨true, 2, .whiteWin, by decide, none⟩, .completeRound true 0,
    .enterResult ⟨true, 1, .whiteWinForfeit, by decide, some "no show"⟩]

def afterForfeit : Section :=
  { sectionOf 4 3 with
    registrations := (sectionOf 4 3).registrations.map fun r => { r with pairingNumber := some r.id }
    rounds := [⟨0, 1, .completed, [⟨1, 1, 1, some 3, .whiteWinForfeit⟩, ⟨2, 2, 4, some 2, .whiteWin⟩]⟩]
    nextId := 3 }

theorem afterForfeit_kept : IntegrityKept (afterForfeit.generateRound true).2 :=
  corrected_results afterForfeit
    ⟨sectionOf 4 3, ⟨rfl, by decide⟩,
      System.run_steps (sectionOf 4 3) afterForfeit drawThenForfeit (by decide +kernel)
        (by decide +kernel)⟩
    true

end Runs

end Farzin.Arbiter
