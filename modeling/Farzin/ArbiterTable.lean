import Farzin.ArbiterRounds

set_option autoImplicit false

/- When the stored standings are those of the stored results. A request recomputes them after its
write, from what it reads then; what it stores may be older than what others have stored. -/
namespace Farzin.Arbiter

open Interleaving Transition

section Statement

namespace ArbiterDb

variable (s : ArbiterDb)

/-- The standings are those of the participants and the results that are stored. -/
def Current : Prop :=
  ∃ rows, standingRows (resolveTieBreakOrder s.tieBreakOrder) s.data.numberedRegistrations
      s.data.history = .ok rows ∧
    ∀ id, s.standings id = rows.find? fun row => row.registrationId = id

/-- The request has written, and what it is going to store is or will be read from what is stored
now. -/
def Due : ArbiterCall → Prop
  | .participants _ assigned | .pair _ assigned _ | .createRound _ assigned _ => assigned = true
  | .recompute => True
  | .computeRows participants => participants = s.data.numberedRegistrations
  | .upsert participants history _ =>
      participants = s.data.numberedRegistrations ∧ history = s.data.history
  | _ => False

/-- The request has given the pairing numbers, and ends without a round. -/
def Unpaired : ArbiterCall → Prop
  | .pair number assigned participants =>
      assigned = true ∧ ∃ error, s.pair number participants = .error error
  | .createRound number assigned _ =>
      assigned = true ∧ ∃ round ∈ s.data.rounds, round.number = number
  | _ => False

/-- The request stores standings of participants or results that have changed since it read them. -/
def Outdated : ArbiterCall → Prop
  | .upsert participants history _ =>
      participants ≠ s.data.numberedRegistrations ∨ history ≠ s.data.history
  | _ => False

end ArbiterDb

section Decidable

instance decidableFailed {ε α : Type} (x : Except ε α) : Decidable (∃ error, x = .error error) :=
  match x with
  | .ok _ => .isFalse (by rintro ⟨_, same⟩; cases same)
  | .error error => .isTrue ⟨error, rfl⟩

variable (s : ArbiterDb)

instance (call : ArbiterCall) : Decidable (s.Due call) := by
  cases call <;> unfold ArbiterDb.Due <;> infer_instance

instance (call : ArbiterCall) : Decidable (s.Unpaired call) := by
  cases call <;> unfold ArbiterDb.Unpaired <;> infer_instance

instance (call : ArbiterCall) : Decidable (s.Outdated call) := by
  cases call <;> unfold ArbiterDb.Outdated <;> infer_instance

end Decidable

/-- Another request will store standings. -/
def Relieved (pool : Pool ArbiterDb ArbiterCall) (index : Nat) : Prop :=
  ∃ other ∈ pool.inFlight.eraseIdx index, pool.shared.Due other

/-- A request that has written ends without standings only while these are right or another will
store them, and old standings are stored only while another will store them. -/
def Covered (pool : Pool ArbiterDb ArbiterCall) : Label ArbiterCall ArbiterEvent → Prop
  | .advance index => ∀ call ∈ pool.inFlight[index]?,
      (pool.shared.Unpaired call → pool.shared.Current ∨ Relieved pool index) ∧
        (pool.shared.Outdated call → Relieved pool index)
  | .abandon index => ∀ call ∈ pool.inFlight[index]?,
      pool.shared.Due call → pool.shared.Current ∨ Relieved pool index
  | _ => True

/-- The standings are right, or a request in flight is going to store them. -/
def Settled (pool : Pool ArbiterDb ArbiterCall) : Prop :=
  pool.shared.Current ∨ ∃ call ∈ pool.inFlight, pool.shared.Due call

end Statement

section Rows

def Section.rows (data : Section) : List PairingRow := data.rounds.flatMap RoundRow.pairings

def Section.numberedIds (data : Section) : List PlayerId :=
  data.numberedRegistrations.map Registration.id

/-- Both sides of a row have numbers, and a bye has the result of one. -/
structure RowFits (ids : List PlayerId) (row : PairingRow) : Prop where
  players : row.playerIds ⊆ ids
  bye : row.blackRegistrationId = none → Section.isByeResult row.result = true

/-- Rows are known apart and fit, and standings are of participants. -/
structure ArbiterDb.Tabled (s : ArbiterDb) : Prop where
  sound : s.Sound
  rowIds : (s.data.rows.map PairingRow.id).Nodup
  fresh : ∀ row ∈ s.data.rows, row.id < s.data.nextId
  fits : ∀ row ∈ s.data.rows, RowFits s.data.numberedIds row
  standings : ∀ id row, s.standings id = some row → id ∈ s.data.numberedIds

/-- What a request in flight knows about a pairing. -/
structure ArbiterDb.Pairs (s : ArbiterDb) (pairingId : Nat) (isBye : Bool) : Prop where
  known : pairingId < s.data.nextId
  stored : ∀ row ∈ s.data.rows, row.id = pairingId → row.blackRegistrationId.isNone = isBye

def ArbiterCall.Tabled (s : ArbiterDb) : ArbiterCall → Prop
  | .pair _ _ read | .computeRows read => read.map Registration.id ⊆ s.data.numberedIds
  | .createRound _ _ result => result.playerIds ⊆ s.data.numberedIds
  | .checkResult call pairing => s.Pairs call.pairingId pairing.blackRegistrationId.isNone
  | .writeResult call => s.Pairs call.pairingId (Section.isByeResult call.result)
  | .upsert read history rows => read.map Registration.id ⊆ s.data.numberedIds ∧
      standingRows (resolveTieBreakOrder s.tieBreakOrder) read history = .ok rows
  | _ => True

variable {s : ArbiterDb}

theorem mem_history {data : Section} {entry : PairingHistoryEntry} (listed : entry ∈ data.history) :
    ∃ row ∈ data.rows, entry.whiteRegistrationId = row.whiteRegistrationId ∧
      entry.blackRegistrationId = row.blackRegistrationId ∧ entry.result = row.result := by
  obtain ⟨round, sorted, inside⟩ := List.mem_flatMap.mp listed
  obtain ⟨row, ordered, rfl⟩ := List.mem_map.mp inside
  refine ⟨row, List.mem_flatMap.mpr ⟨round, ?_, ?_⟩, rfl, rfl, rfl⟩
  · exact (List.mem_insertionSort _).mp sorted
  · exact (List.mem_insertionSort _).mp ordered

theorem RowFits.entry {ids : List PlayerId} {row : PairingRow} {entry : PairingHistoryEntry}
    (fits : RowFits ids row) (white : entry.whiteRegistrationId = row.whiteRegistrationId)
    (black : entry.blackRegistrationId = row.blackRegistrationId)
    (result : entry.result = row.result) : EntryFits ids entry where
  white := by
    rw [white]
    exact fits.players List.mem_cons_self
  black id listed := by
    rw [black] at listed
    exact fits.players (List.mem_cons_of_mem _ (Option.mem_toList.mpr listed))
  bye none := by
    rw [black] at none
    rw [result]
    exact fits.bye none

/-- The standings of what is stored can always be computed. -/
theorem ArbiterDb.Tabled.computes (tabled : s.Tabled) :
    ∃ rows, standingRows (resolveTieBreakOrder s.tieBreakOrder) s.data.numberedRegistrations
      s.data.history = .ok rows := by
  apply standingRows_ok
  · exact numberedRegistrations_nodup tabled.sound.registrations
  · intro entry listed
    obtain ⟨row, stored, white, black, result⟩ := mem_history listed
    exact (tabled.fits row stored).entry white black result

theorem mem_numberedIds {data : Section} {id : PlayerId} :
    id ∈ data.numberedIds ↔
      ∃ r ∈ data.registrations, r.id = id ∧ r.pairingNumber.isSome = true := by
  unfold Section.numberedIds Section.numberedRegistrations
  constructor
  · intro listed
    obtain ⟨r, sorted, same⟩ := List.mem_map.mp listed
    obtain ⟨inside, numbered⟩ := List.mem_filter.mp ((List.mem_insertionSort _).mp sorted)
    exact ⟨r, inside, same, numbered⟩
  · rintro ⟨r, inside, same, numbered⟩
    exact List.mem_map.mpr
      ⟨r, (List.mem_insertionSort _).mpr (List.mem_filter.mpr ⟨inside, numbered⟩), same⟩

/-- Numbers are given, and never taken. -/
theorem assignNumbers_ids {data after : Section} {assigned : Bool}
    (done : data.assignNumbers = .ok (after, assigned)) :
    data.numberedIds ⊆ after.numberedIds := by
  intro id listed
  obtain ⟨r, inside, same, numbered⟩ := mem_numberedIds.mp listed
  apply mem_numberedIds.mpr
  unfold Section.assignNumbers at done
  dsimp only at done
  split at done
  · cases done
    exact ⟨r, inside, same, numbered⟩
  · split at done
    · cases done
    · split at done
      · cases done
      · rename_i given
        cases done
        unfold Section.assignPairingNumbers at given
        dsimp only at given
        split at given
        · cases given
        · cases given
          refine ⟨_, List.mem_map_of_mem inside, ?_, ?_⟩
          · exact (numberRegistration_id _ r).trans same
          · unfold Section.numberRegistration
            split
            · rfl
            · exact numbered

theorem setResult_rows (data : Section) (pairingId : Nat) (result : PairingResultValue) :
    (data.setResult pairingId result).rows =
      data.rows.map fun p => if p.id = pairingId then { p with result } else p := by
  unfold Section.rows Section.setResult
  rw [List.flatMap_map, List.map_flatMap]

theorem setCompleted_rows (data : Section) (roundId : Nat) :
    (data.setCompleted roundId).rows = data.rows := by
  unfold Section.rows Section.setCompleted
  rw [List.flatMap_map]
  congr 1
  funext round
  split <;> rfl

theorem created_rows (data : Section) (number : Nat) (result : PairingResult) :
    (data.createRoundWithPairings number result).1.rows =
      data.rows ++ boardRows (data.nextId + 1) result := by
  unfold Section.rows
  rw [createRound_rounds, List.flatMap_append, List.flatMap_singleton]
  rfl

theorem mapIdx_ids {α : Type} (values : List α) (row : Nat → α → PairingRow) (firstId : Nat)
    (ids : ∀ i a, (row i a).id = firstId + i) :
    (values.mapIdx row).map PairingRow.id = List.range' firstId values.length := by
  induction values generalizing row firstId with
  | nil => rfl
  | cons a values ih =>
      rw [List.mapIdx_cons, List.map_cons, ids, List.length_cons, List.range'_succ,
        ih (fun i => row (i + 1)) (firstId + 1) fun i a => by rw [ids]; omega]
      rfl

/-- New rows are numbered on. -/
theorem boardRows_ids (firstId : Nat) (result : PairingResult) :
    (boardRows firstId result).map PairingRow.id =
      List.range' firstId (boardRows firstId result).length := by
  unfold boardRows
  rw [List.map_append, mapIdx_ids _ _ firstId fun i a => rfl,
    mapIdx_ids _ _ (firstId + result.pairings.length) fun i a => rfl, List.length_append,
    List.length_mapIdx, List.length_mapIdx, List.range'_append_1]

theorem boardRows_fits {ids : List PlayerId} (firstId : Nat) {result : PairingResult}
    (known : result.playerIds ⊆ ids) {row : PairingRow} (listed : row ∈ boardRows firstId result) :
    RowFits ids row where
  players := by
    intro id named
    apply known
    rw [← boardRows_players firstId result]
    exact List.mem_flatMap.mpr ⟨row, listed, named⟩
  bye := by
    intro none
    rcases List.mem_append.mp listed with board | bye
    · obtain ⟨_, _, rfl⟩ := List.mem_mapIdx.mp board
      cases none
    · obtain ⟨_, _, rfl⟩ := List.mem_mapIdx.mp bye
      rfl

end Rows

section Kept

variable {s t : ArbiterDb}

/-- What a request in flight knows lasts. -/
structure Extends (s t : ArbiterDb) : Prop where
  numbered : s.data.numberedIds ⊆ t.data.numberedIds
  order : t.tieBreakOrder = s.tieBreakOrder
  pairs : ∀ pairingId isBye, s.Pairs pairingId isBye → t.Pairs pairingId isBye

theorem Extends.tabled (grown : Extends s t) {call : ArbiterCall} (known : call.Tabled s) :
    call.Tabled t := by
  cases call with
  | pair | computeRows | createRound => exact List.Subset.trans known grown.numbered
  | checkResult | writeResult => exact grown.pairs _ _ known
  | upsert read history rows =>
      refine ⟨List.Subset.trans known.1 grown.numbered, ?_⟩
      rw [grown.order]
      exact known.2
  | generateRound | latestRound | activeRegistrations | assignNumbers | participants
  | enterResult | completeRound | checkRound | writeCompleted | recompute => trivial

theorem RowFits.mono {ids more : List PlayerId} {row : PairingRow} (fits : RowFits ids row)
    (subset : ids ⊆ more) : RowFits more row :=
  ⟨List.Subset.trans fits.players subset, fits.bye⟩

/-- A step that keeps the rows, and the numbers that there are. -/
theorem tabled_same (tabled : s.Tabled) (sound : t.Sound) (rows : t.data.rows = s.data.rows)
    (nextId : t.data.nextId = s.data.nextId) (standings : t.standings = s.standings)
    (order : t.tieBreakOrder = s.tieBreakOrder)
    (numbered : s.data.numberedIds ⊆ t.data.numberedIds) : t.Tabled ∧ Extends s t := by
  refine ⟨⟨sound, ?_, ?_, ?_, ?_⟩, ⟨numbered, order, fun pairingId isBye known => ⟨?_, ?_⟩⟩⟩
  · rw [rows]
    exact tabled.rowIds
  · rw [rows, nextId]
    exact tabled.fresh
  · rw [rows]
    exact fun row listed => (tabled.fits row listed).mono numbered
  · rw [standings]
    exact fun id row stored => numbered (tabled.standings id row stored)
  · rw [nextId]
    exact known.known
  · rw [rows]
    exact known.stored

theorem created_tabled (tabled : s.Tabled) {number : Nat} {result : PairingResult}
    (sound : (s.withData (s.data.createRoundWithPairings number result).1).Sound)
    (known : result.playerIds ⊆ s.data.numberedIds) :
    (s.withData (s.data.createRoundWithPairings number result).1).Tabled ∧
      Extends s (s.withData (s.data.createRoundWithPairings number result).1) := by
  have rows := created_rows s.data number result
  have later : ∀ row ∈ boardRows (s.data.nextId + 1) result,
      s.data.nextId + 1 ≤ row.id ∧
        row.id < s.data.nextId + 1 + (boardRows (s.data.nextId + 1) result).length := by
    intro row listed
    have inside : row.id ∈ (boardRows (s.data.nextId + 1) result).map PairingRow.id :=
      List.mem_map_of_mem listed
    rw [boardRows_ids, List.mem_range'_1] at inside
    exact inside
  refine ⟨⟨sound, ?_, ?_, ?_, tabled.standings⟩, ⟨fun _ listed => listed, rfl,
    fun pairingId isBye pairs => ⟨?_, ?_⟩⟩⟩
  · change ((s.data.createRoundWithPairings number result).1.rows.map PairingRow.id).Nodup
    rw [rows, List.map_append]
    refine List.Nodup.append tabled.rowIds ?_ ?_
    · rw [boardRows_ids]
      exact List.nodup_range'
    · intro id old new
      obtain ⟨row, stored, same⟩ := List.mem_map.mp old
      obtain ⟨added, listed, equal⟩ := List.mem_map.mp new
      have below := tabled.fresh row stored
      have above := (later added listed).1
      omega
  · intro row listed
    change row ∈ (s.data.createRoundWithPairings number result).1.rows at listed
    rw [rows] at listed
    change row.id < s.data.nextId + 1 + (boardRows (s.data.nextId + 1) result).length
    rcases List.mem_append.mp listed with old | new
    · have below := tabled.fresh row old
      omega
    · exact (later row new).2
  · intro row listed
    change row ∈ (s.data.createRoundWithPairings number result).1.rows at listed
    rw [rows] at listed
    rcases List.mem_append.mp listed with old | new
    · exact tabled.fits row old
    · exact boardRows_fits _ known new
  · change pairingId < s.data.nextId + 1 + _
    have below := pairs.known
    omega
  · intro row listed same
    change row ∈ (s.data.createRoundWithPairings number result).1.rows at listed
    rw [rows] at listed
    rcases List.mem_append.mp listed with old | new
    · exact pairs.stored row old same
    · have below := pairs.known
      have above := (later row new).1
      omega

theorem entered_tabled (tabled : s.Tabled) (call : ResultCall)
    (sound : (s.withData (s.data.setResult call.pairingId call.result)).Sound)
    (known : s.Pairs call.pairingId (Section.isByeResult call.result)) :
    (s.withData (s.data.setResult call.pairingId call.result)).Tabled ∧
      Extends s (s.withData (s.data.setResult call.pairingId call.result)) := by
  have rows := setResult_rows s.data call.pairingId call.result
  refine ⟨⟨sound, ?_, ?_, ?_, tabled.standings⟩, ⟨fun _ listed => listed, rfl,
    fun pairingId isBye pairs => ⟨pairs.known, ?_⟩⟩⟩
  · change ((s.data.setResult call.pairingId call.result).rows.map PairingRow.id).Nodup
    have ids : (s.data.setResult call.pairingId call.result).rows.map PairingRow.id =
        s.data.rows.map PairingRow.id := by
      rw [rows, List.map_map]
      apply List.map_congr_left
      intro row _
      simp only [Function.comp_apply]
      split <;> rfl
    rw [ids]
    exact tabled.rowIds
  · intro row listed
    change row ∈ (s.data.setResult call.pairingId call.result).rows at listed
    rw [rows] at listed
    obtain ⟨before, old, rfl⟩ := List.mem_map.mp listed
    have below := tabled.fresh before old
    split
    · exact below
    · exact below
  · intro row listed
    change row ∈ (s.data.setResult call.pairingId call.result).rows at listed
    rw [rows] at listed
    obtain ⟨before, old, rfl⟩ := List.mem_map.mp listed
    have fits := tabled.fits before old
    split
    · rename_i same
      refine ⟨fits.players, fun none => ?_⟩
      have kind := known.stored before old same
      change before.blackRegistrationId = Option.none at none
      rw [none] at kind
      exact kind.symm
    · exact fits
  · intro row listed same
    change row ∈ (s.data.setResult call.pairingId call.result).rows at listed
    rw [rows] at listed
    obtain ⟨before, old, rfl⟩ := List.mem_map.mp listed
    have stored := pairs.stored before old
    split at same
    · rename_i own
      rw [if_pos own]
      exact stored same
    · rename_i own
      rw [if_neg own]
      exact stored same

theorem fold_standings (rows : List StandingRow)
    (distinct : (rows.map StandingRow.registrationId).Nodup)
    (standings : PlayerId → Option StandingRow) (id : PlayerId) :
    rows.foldl (fun (standings : PlayerId → Option StandingRow) row =>
        Function.update standings row.registrationId (some row)) standings id =
      (rows.find? fun row => row.registrationId = id).or (standings id) := by
  induction rows generalizing standings with
  | nil => rfl
  | cons row rows ih =>
      obtain ⟨new, rest⟩ := List.nodup_cons.mp distinct
      rw [List.foldl_cons, ih rest]
      by_cases same : row.registrationId = id
      · have absent : rows.find? (fun row => row.registrationId = id) = none := by
          apply List.find?_eq_none.mpr
          intro other listed equal
          apply new
          rw [same, ← of_decide_eq_true equal]
          exact List.mem_map_of_mem listed
        rw [List.find?_cons_of_pos (by simp [same]), absent, ← same, Function.update_self]
        rfl
      · rw [List.find?_cons_of_neg (by simp [same]), Function.update_of_ne (Ne.symm same)]

theorem standingRows_ids {order : List TieBreak.TieBreakKey} {read : List Registration}
    {history : List PairingHistoryEntry} {rows : List StandingRow}
    (computed : standingRows order read history = .ok rows) :
    rows.map StandingRow.registrationId = read.map Registration.id := by
  obtain ⟨values, _, rest⟩ := Checked.bind_ok computed
  obtain ⟨ranking, _, last⟩ := Checked.bind_ok rest
  rw [← Except.ok.inj last, List.map_map]
  unfold buildScoreViews
  rw [List.map_map]
  apply (List.map_congr_left fun id _ => ?_).trans (List.map_id _)
  exact buildScoreView_registrationId _

theorem upserted_known (tabled : s.Tabled) {read : List Registration}
    {history : List PairingHistoryEntry} {rows : List StandingRow}
    (known : (ArbiterCall.upsert read history rows).Tabled s) {id : PlayerId} {row : StandingRow}
    (stored : (s.upsertStandings rows).standings id = some row) : id ∈ s.data.numberedIds := by
  have each : ∀ (rows : List StandingRow) (standings : PlayerId → Option StandingRow),
      (∀ row ∈ rows, row.registrationId ∈ s.data.numberedIds) →
      (∀ id row, standings id = some row → id ∈ s.data.numberedIds) →
      ∀ id row, rows.foldl (fun (standings : PlayerId → Option StandingRow) row =>
        Function.update standings row.registrationId (some row)) standings id = some row →
          id ∈ s.data.numberedIds := by
    intro rows
    induction rows with
    | nil => exact fun standings _ before => before
    | cons row rows ih =>
        intro standings named before
        apply ih
        · exact fun other listed => named other (List.mem_cons_of_mem row listed)
        · intro id other there
          change Function.update standings row.registrationId (some row) id = some other at there
          by_cases same : id = row.registrationId
          · rw [same]
            exact named row List.mem_cons_self
          · rw [Function.update_of_ne same] at there
            exact before id other there
  refine each rows s.standings (fun row listed => ?_) tabled.standings id row stored
  apply known.1
  rw [← standingRows_ids known.2]
  exact List.mem_map_of_mem listed

theorem effect_tabled {call : ArbiterCall} (tabled : s.Tabled) (own : call.Sound s)
    (known : call.Tabled s) (effect : ArbiterEffect s call t) : t.Tabled ∧ Extends s t := by
  have sound := (effect_sound tabled.sound own effect).1
  cases effect with
  | idle => exact ⟨tabled, ⟨fun _ listed => listed, rfl, fun _ _ pairs => pairs⟩⟩
  | upserted read history rows =>
      exact ⟨⟨sound, tabled.rowIds, tabled.fresh, tabled.fits,
        fun _ _ stored => upserted_known tabled known stored⟩,
        ⟨fun _ listed => listed, rfl, fun _ _ pairs => ⟨pairs.known, pairs.stored⟩⟩⟩
  | numbered number data assigned done =>
      obtain ⟨rounds, nextId, _⟩ := assignNumbers_keeps done
      apply tabled_same tabled sound _ nextId rfl rfl (assignNumbers_ids done)
      change data.rows = s.data.rows
      unfold Section.rows
      rw [rounds]
  | created number assigned result => exact created_tabled tabled sound known
  | entered call => exact entered_tabled tabled call sound known
  | completed roundId status =>
      exact tabled_same tabled sound (setCompleted_rows s.data roundId) rfl rfl rfl
        fun _ listed => listed

theorem found_pairs (tabled : s.Tabled) {pairingId : Nat} {pairing : PairingRow}
    (found : s.data.findPairing pairingId = some pairing) :
    s.Pairs pairingId pairing.blackRegistrationId.isNone := by
  have inside : pairing ∈ s.data.rows := List.mem_of_find?_eq_some found
  have named : pairing.id = pairingId := by simpa using List.find?_some found
  refine ⟨?_, fun row listed same => ?_⟩
  · rw [← named]
    exact tabled.fresh pairing inside
  · rw [List.inj_on_of_nodup_map tabled.rowIds listed inside (same.trans named.symm)]

theorem checkResult_bye {data : Section} {call : ResultCall} {pairing : PairingRow}
    (passed : data.checkResult call pairing = .ok ()) :
    pairing.blackRegistrationId.isNone = Section.isByeResult call.result := by
  unfold Section.checkResult at passed
  dsimp only at passed
  split at passed
  · cases passed
  split at passed
  · cases passed
  split at passed
  · cases passed
  · rename_i same
    exact not_not.mp same

/-- What a request goes on with, it knows. -/
theorem advance_tabled {call rest : ArbiterCall} (tabled : s.Tabled) (own : call.Sound s)
    (known : call.Tabled s) (left : (s.advance call).2 = some rest) :
    rest.Tabled (s.advance call).1 := by
  cases call with
  | generateRound | activeRegistrations | createRound | writeResult | writeCompleted
  | checkRound =>
      rw [ArbiterDb.advance] at left ⊢
      split at left
      all_goals cases left
      all_goals trivial
  | latestRound =>
      rw [ArbiterDb.advance] at left ⊢
      split at left
      · cases left
        trivial
      · split at left
        · cases left
        · cases left
          trivial
  | assignNumbers number =>
      rw [ArbiterDb.advance] at left ⊢
      split at left
      · cases left
      · cases left
        trivial
  | participants number assigned =>
      cases left
      exact fun id listed => listed
  | pair number assigned read =>
      rw [ArbiterDb.advance] at left ⊢
      split at left
      · cases left
      · rename_i result paired
        cases left
        exact List.Subset.trans (pair_players paired).1 known
  | enterResult call =>
      obtain ⟨pairing, found, rfl⟩ := Option.map_eq_some_iff.mp left
      exact found_pairs tabled found
  | checkResult call pairing =>
      rw [ArbiterDb.advance] at left ⊢
      split at left
      · cases left
      · rename_i passed
        cases left
        change s.Pairs call.pairingId (Section.isByeResult call.result)
        rw [← checkResult_bye passed]
        exact known
  | completeRound allowed roundId =>
      obtain ⟨round, _, rfl⟩ := Option.map_eq_some_iff.mp left
      trivial
  | recompute =>
      rw [ArbiterDb.advance] at left ⊢
      split at left
      · cases left
      · cases left
        split
        · exact fun id listed => listed
        · exact fun id listed => listed
  | computeRows read =>
      rw [ArbiterDb.advance] at left ⊢
      split at left
      · cases left
      · rename_i rows computed
        cases left
        refine ⟨known, ?_⟩
        change (standingRows (resolveTieBreakOrder s.tieBreakOrder) read s.data.history).mapError
          _ = .ok rows at computed
        cases ran : standingRows (resolveTieBreakOrder s.tieBreakOrder) read s.data.history with
        | error error =>
            rw [ran] at computed
            cases computed
        | ok answer =>
            rw [ran] at computed
            cases computed
            rfl
  | upsert => cases left

theorem ArbiterDb.Initial.tabled (initial : s.Initial) : s.Tabled := by
  have none : s.data.rows = [] := by
    unfold Section.rows
    rw [initial.start.rounds]
    rfl
  refine ⟨initial.sound, ?_, ?_, ?_, ?_⟩
  · simp [none]
  · simp [none]
  · simp [none]
  · intro id row stored
    rw [initial.standings] at stored
    cases stored

theorem table_outline : Outline arbiterRequests (fun _ _ => True) ArbiterDb.Tabled
    (fun s call => call.Sound s ∧ call.Tabled s) where
  starts _ initial := initial.tabled
  enters s call tabled arrives := by
    refine ⟨arbiterRequests_outline.enters s call tabled.sound arrives, ?_⟩
    cases call with
    | generateRound | enterResult | completeRound => trivial
    | latestRound | activeRegistrations | assignNumbers | participants | pair | createRound
    | checkResult | writeResult | checkRound | writeCompleted | recompute | computeRows
    | upsert => cases arrives
  acts s call tabled own _ := (effect_tabled tabled own.1 own.2 (arbiter_effect call)).1
  continues s call rest tabled own _ left :=
    ⟨advance_sound tabled.sound own.1 left, advance_tabled tabled own.1 own.2 left⟩
  stable s call other tabled own _ known :=
    ⟨(effect_sound tabled.sound own.1 (arbiter_effect call)).2.sound known.1,
      (effect_tabled tabled own.1 own.2 (arbiter_effect call)).2.tabled known.2⟩
  events s event t tabled happened := by
    obtain ⟨sound, others⟩ := arbiterRequests_outline.events s event t tabled.sound happened
    cases event with
    | setInProgress inProgress =>
        cases happened
        obtain ⟨after, grown⟩ := tabled_same tabled sound rfl rfl rfl rfl fun _ listed => listed
        exact ⟨after, fun other known => ⟨others other known.1, grown.tabled known.2⟩⟩

end Kept

section Settling

variable {s t : ArbiterDb}

/-- What the standings are computed from is the same. -/
structure Same (s t : ArbiterDb) : Prop where
  numbered : t.data.numberedRegistrations = s.data.numberedRegistrations
  history : t.data.history = s.data.history
  order : t.tieBreakOrder = s.tieBreakOrder

theorem Same.due (same : Same s t) {call : ArbiterCall} (due : s.Due call) : t.Due call := by
  cases call with
  | participants | pair | createRound => exact due
  | recompute => trivial
  | computeRows read =>
      change read = t.data.numberedRegistrations
      rw [same.numbered]
      exact due
  | upsert read history rows =>
      refine ⟨?_, ?_⟩
      · rw [same.numbered]
        exact due.1
      · rw [same.history]
        exact due.2
  | generateRound | latestRound | activeRegistrations | assignNumbers | enterResult | checkResult
  | writeResult | completeRound | checkRound | writeCompleted => cases due

theorem Same.current (same : Same s t) (standings : t.standings = s.standings)
    (current : s.Current) : t.Current := by
  obtain ⟨rows, computed, stored⟩ := current
  refine ⟨rows, ?_, ?_⟩
  · rw [same.numbered, same.history, same.order]
    exact computed
  · rw [standings]
    exact stored

/-- Standings from what is stored make them right. -/
theorem upsert_current (tabled : s.Tabled) {rows : List StandingRow}
    (known : (ArbiterCall.upsert s.data.numberedRegistrations s.data.history rows).Tabled s) :
    (s.upsertStandings rows).Current := by
  refine ⟨rows, known.2, fun id => ?_⟩
  have ids := standingRows_ids known.2
  have distinct : (rows.map StandingRow.registrationId).Nodup := by
    rw [ids]
    exact numberedRegistrations_nodup tabled.sound.registrations
  apply (fold_standings rows distinct s.standings id).trans
  cases stored : s.standings id with
  | none => exact Option.or_none
  | some row =>
      have listed := tabled.standings id row stored
      rw [Section.numberedIds, ← ids] at listed
      obtain ⟨own, inside, same⟩ := List.mem_map.mp listed
      have there : (rows.find? fun row => row.registrationId = id).isSome :=
        List.find?_isSome.mpr ⟨own, inside, decide_eq_true same⟩
      obtain ⟨found, here⟩ := Option.isSome_iff_exists.mp there
      rw [here]
      rfl

/-- Without participants there are no standings. -/
theorem empty_current (tabled : s.Tabled) (none : s.data.numberedRegistrations = []) :
    s.Current := by
  refine ⟨[], ?_, fun id => ?_⟩
  · rw [none]
    rfl
  · rw [List.find?_nil]
    cases stored : s.standings id with
    | none => rfl
    | some row =>
        have listed := tabled.standings id row stored
        rw [Section.numberedIds, none] at listed
        cases listed

/-- Where no number is given, nothing changes. -/
theorem assignNumbers_none {data after : Section}
    (done : data.assignNumbers = .ok (after, false)) : after = data := by
  unfold Section.assignNumbers at done
  dsimp only at done
  split at done
  · cases done
    rfl
  · split at done
    · cases done
    · split at done
      · cases done
      · rename_i given
        injection done with same
        injection same with same none
        rw [← same]
        have empty : data.activeRegistrations = [] :=
          List.length_eq_zero_iff.mp (Nat.eq_zero_of_not_pos (of_decide_eq_false none))
        unfold Section.assignPairingNumbers at given
        rw [empty] at given
        dsimp only at given
        split at given
        · cases given
        · cases given
          have kept : data.registrations.map (Section.numberRegistration
              (List.insertionSort (fun a b => Section.numberedBefore a b) [])) = data.registrations := by
            apply (List.map_congr_left fun r _ => ?_).trans (List.map_id _)
            rfl
          rw [kept]

/-- What an await does to the standings that are right, or to the request that will store them. -/
inductive Outcome (s : ArbiterDb) (call : ArbiterCall) (t : ArbiterDb)
    (rest : Option ArbiterCall) : Prop where
  | kept (same : Same s t) (standings : t.standings = s.standings)
      (due : s.Due call → (∃ left, rest = some left ∧ t.Due left) ∨ s.Unpaired call ∨ s.Current)
  | wrote (left : ArbiterCall) (goesOn : rest = some left) (due : t.Due left)
  | stored (same : Same s t) (right : s.Outdated call ∨ t.Current)

theorem Same.refl (s : ArbiterDb) : Same s s := ⟨rfl, rfl, rfl⟩

theorem Outcome.idle {call : ArbiterCall} {rest : Option ArbiterCall} (free : ¬ s.Due call) :
    Outcome s call s rest :=
  .kept (.refl s) rfl fun due => absurd due free

theorem advance_outcome (tabled : s.Tabled) (call : ArbiterCall) (known : call.Tabled s) :
    Outcome s call (s.advance call).1 (s.advance call).2 := by
  cases call with
  | enterResult | completeRound => exact .idle id
  | generateRound | activeRegistrations | checkResult | checkRound =>
      rw [ArbiterDb.advance]
      split <;> exact .idle id
  | latestRound =>
      rw [ArbiterDb.advance]
      split
      · exact .idle id
      · split <;> exact .idle id
  | assignNumbers number =>
      rw [ArbiterDb.advance]
      split
      · exact .idle id
      · rename_i data assigned done
        cases assigned with
        | true => exact .wrote _ rfl rfl
        | false =>
            rw [assignNumbers_none done]
            exact .idle id
  | participants number assigned =>
      exact .kept (.refl s) rfl fun due => .inl ⟨_, rfl, due⟩
  | pair number assigned read =>
      rw [ArbiterDb.advance]
      split
      · rename_i error failed
        exact .kept (.refl s) rfl fun due => .inr (.inl ⟨due, error, failed⟩)
      · exact .kept (.refl s) rfl fun due => .inl ⟨_, rfl, due⟩
  | createRound number assigned result =>
      rw [ArbiterDb.advance, Section.createRound]
      by_cases taken : s.data.rounds.any (fun round => round.number = number) = true
      · rw [if_pos taken]
        obtain ⟨round, listed, same⟩ := List.any_eq_true.mp taken
        exact .kept (.refl s) rfl fun due =>
          .inr (.inl ⟨due, round, listed, of_decide_eq_true same⟩)
      · rw [if_neg taken]
        exact .wrote _ rfl trivial
  | writeResult call =>
      rw [ArbiterDb.advance]
      split
      · exact .idle id
      · exact .wrote _ rfl trivial
  | writeCompleted roundId status =>
      rw [ArbiterDb.advance]
      split
      · exact .idle id
      · exact .wrote _ rfl trivial
  | recompute =>
      rw [ArbiterDb.advance]
      split
      · rename_i none
        exact .kept (.refl s) rfl fun _ =>
          .inr (.inr (empty_current tabled (List.length_eq_zero_iff.mp none)))
      · exact .kept (.refl s) rfl fun _ => .inl ⟨_, rfl, rfl⟩
  | computeRows read =>
      rw [ArbiterDb.advance]
      split
      · rename_i error failed
        refine .kept (.refl s) rfl fun due => ?_
        obtain ⟨rows, computed⟩ := tabled.computes
        change read = _ at due
        unfold ArbiterDb.computeRows at failed
        rw [due, computed] at failed
        cases failed
      · exact .kept (.refl s) rfl fun due => .inl ⟨_, rfl, due, rfl⟩
  | upsert read history rows =>
      refine .stored ⟨rfl, rfl, rfl⟩ ?_
      by_cases fresh : read = s.data.numberedRegistrations ∧ history = s.data.history
      · obtain ⟨rfl, rfl⟩ := fresh
        exact .inr (upsert_current tabled known)
      · left
        by_cases same : read = s.data.numberedRegistrations
        · exact .inr fun equal => fresh ⟨same, equal⟩
        · exact .inl same

end Settling

section Runs

variable {pool after : Pool ArbiterDb ArbiterCall}

theorem settled_advance (holds : Holds ArbiterDb.Tabled (fun s call => call.Sound s ∧ call.Tabled s)
    pool) (settled : Settled pool) {index : Nat}
    (covered : Covered pool (.advance index))
    (taken : arbiterRequests.step pool (.advance index) = some after) : Settled after := by
  obtain ⟨call, here, rfl⟩ := advance_step taken
  obtain ⟨unpaired, outdated⟩ := covered call here
  have known := (holds.2 call (List.mem_of_getElem? here)).2
  have relieved : ∀ t, Same pool.shared t → Relieved pool index →
      ∃ other ∈ pool.inFlight.eraseIdx index ++ (pool.shared.advance call).2.toList,
        t.Due other := by
    rintro t same ⟨other, inside, due⟩
    exact ⟨other, List.mem_append_left _ inside, same.due due⟩
  have handed : ∀ t, (∃ left, (pool.shared.advance call).2 = some left ∧ ArbiterDb.Due t left) →
      ∃ other ∈ pool.inFlight.eraseIdx index ++ (pool.shared.advance call).2.toList,
        t.Due other := by
    rintro t ⟨left, goesOn, due⟩
    rw [goesOn]
    exact ⟨left, List.mem_append_right _ List.mem_cons_self, due⟩
  cases advance_outcome holds.1 call known with
  | kept same standings due =>
      rcases settled with current | ⟨other, listed, waiting⟩
      · exact .inl (same.current standings current)
      · rcases mem_or_erased here listed with own | inside
        · rw [own] at waiting
          rcases due waiting with goesOn | ends | current
          · exact .inr (handed _ goesOn)
          · rcases unpaired ends with current | another
            · exact .inl (same.current standings current)
            · exact .inr (relieved _ same another)
          · exact .inl (same.current standings current)
        · exact .inr (relieved _ same ⟨other, inside, waiting⟩)
  | wrote left goesOn due => exact .inr (handed _ ⟨left, goesOn, due⟩)
  | stored same right =>
      rcases right with old | current
      · exact .inr (relieved _ same (outdated old))
      · exact .inl current

theorem settled_step (holds : Holds ArbiterDb.Tabled (fun s call => call.Sound s ∧ call.Tabled s)
    pool) (settled : Settled pool) {label : Label ArbiterCall ArbiterEvent}
    (covered : Covered pool label) (taken : arbiterRequests.step pool label = some after) :
    Settled after := by
  cases label with
  | arrive call =>
      rw [Program.step] at taken
      split at taken
      · cases taken
        rcases settled with current | ⟨other, listed, due⟩
        · exact .inl current
        · exact .inr ⟨other, List.mem_append_left _ listed, due⟩
      · cases taken
  | advance index => exact settled_advance holds settled covered taken
  | abandon index =>
      rw [Program.step, Option.map_eq_some_iff] at taken
      obtain ⟨call, here, rfl⟩ := taken
      rcases settled with current | ⟨other, listed, due⟩
      · exact .inl current
      · rcases mem_or_erased here listed with own | inside
        · rw [own] at due
          rcases covered call here due with current | another
          · exact .inl current
          · exact .inr another
        · exact .inr ⟨other, inside, due⟩
  | event event =>
      rw [Program.step, Option.map_eq_some_iff] at taken
      obtain ⟨shared, happened, rfl⟩ := taken
      cases event with
      | setInProgress inProgress =>
          cases happened
          have same : Same pool.shared
              (pool.shared.withData { pool.shared.data with inProgress }) := ⟨rfl, rfl, rfl⟩
          rcases settled with current | ⟨other, listed, due⟩
          · exact .inl (same.current rfl current)
          · exact .inr ⟨other, listed, same.due due⟩

theorem initial_settled (initial : arbiterRequests.system.initial pool) : Settled pool := by
  left
  apply empty_current initial.1.tabled
  apply List.length_eq_zero_iff.mp
  unfold Section.numberedRegistrations
  rw [List.length_insertionSort, List.length_eq_zero_iff, List.filter_eq_nil_iff]
  intro r listed numbered
  rw [initial.1.numbers r listed] at numbered
  cases numbered

/-- When a request that has written ends without standings, or stores old ones, only while another
will store them, the standings of a quiet section are those of its stored results. -/
theorem standings_current (pool : Pool ArbiterDb ArbiterCall)
    (reached : arbiterRequests.system.ReachableWhile Covered pool) (quiet : pool.inFlight = []) :
    pool.shared.Current := by
  have both : Holds ArbiterDb.Tabled (fun s call => call.Sound s ∧ call.Tabled s) pool ∧
      Settled pool := by
    apply reached.invariant fun pool =>
      Holds ArbiterDb.Tabled (fun s call => call.Sound s ∧ call.Tabled s) pool ∧ Settled pool
    · intro pool initial
      exact ⟨table_outline.start initial, initial_settled initial⟩
    · intro pool label after before covered taken
      exact ⟨table_outline.kept before.1 (by cases label <;> simp [Advancing]) taken,
        settled_step before.1 before.2 covered taken⟩
  rcases both.2 with current | ⟨call, listed, _⟩
  · exact current
  · rw [quiet] at listed
    cases listed

end Runs

section Examples

/-- Neither is a request that has written cut off, nor does it end without a round, nor does it
store old standings. -/
def Calm (pool : Pool ArbiterDb ArbiterCall) : Label ArbiterCall ArbiterEvent → Prop
  | .advance index => ∀ call ∈ pool.inFlight[index]?,
      ¬ pool.shared.Unpaired call ∧ ¬ pool.shared.Outdated call
  | .abandon index => ∀ call ∈ pool.inFlight[index]?, ¬ pool.shared.Due call
  | _ => True

instance (pool : Pool ArbiterDb ArbiterCall) :
    (label : Label ArbiterCall ArbiterEvent) → Decidable (Calm pool label)
  | .advance index => inferInstanceAs (Decidable (∀ call ∈ pool.inFlight[index]?,
      ¬ pool.shared.Unpaired call ∧ ¬ pool.shared.Outdated call))
  | .abandon index => inferInstanceAs (Decidable
      (∀ call ∈ pool.inFlight[index]?, ¬ pool.shared.Due call))
  | .arrive _ | .event _ => .isTrue trivial

theorem Calm.covered (pool : Pool ArbiterDb ArbiterCall)
    (label : Label ArbiterCall ArbiterEvent) (calm : Calm pool label) : Covered pool label := by
  cases label with
  | arrive | event => trivial
  | advance index =>
      exact fun call here => ⟨fun ends => absurd ends (calm call here).1,
        fun old => absurd old (calm call here).2⟩
  | abandon index => exact fun call here due => absurd due (calm call here)

theorem whiteWin_enterable : PairingResultValue.whiteWin ≠ .unplayed := by decide

theorem blackWin_enterable : PairingResultValue.blackWin ≠ .unplayed := by decide

def won (pairingId : Nat) (result : PairingResultValue) (enterable : result ≠ .unplayed) :
    ResultCall := ⟨true, pairingId, result, enterable, some "tuzatish"⟩

/-- The request that enters the first result has read it, and stores its standings when the second
result is entered and its standings are stored. -/
def olderLast : List (Label ArbiterCall ArbiterEvent) :=
  request (.generateRound true) 10 ++
    [.arrive (.enterResult (won 11 .whiteWin whiteWin_enterable)),
      .arrive (.enterResult (won 11 .blackWin blackWin_enterable)),
      .advance 0, .advance 1, .advance 1, .advance 1, .advance 1,
      .advance 0, .advance 1, .advance 1, .advance 1, .advance 1, .advance 1,
      .advance 0]

theorem standings_outdated : ∃ pool, arbiterRequests.system.run ⟨twoPlayers, []⟩ olderLast =
    some pool ∧ pool.inFlight = [] ∧ ¬ pool.shared.Current := by
  have ends : (arbiterRequests.system.run ⟨twoPlayers, []⟩ olderLast).map (fun pool =>
      (pool.inFlight.length, (pool.shared.standings 1).map StandingRow.points,
        (standingRows (resolveTieBreakOrder pool.shared.tieBreakOrder)
          pool.shared.data.numberedRegistrations pool.shared.data.history).toOption.map fun rows =>
            (rows.find? fun row => row.registrationId = 1).map StandingRow.points)) =
      some (0, some 1, some (some 0)) := by decide +kernel
  obtain ⟨pool, ran, same⟩ := Option.map_eq_some_iff.mp ends
  obtain ⟨quiet, rest⟩ := Prod.mk.inj same
  obtain ⟨stored, computes⟩ := Prod.mk.inj rest
  refine ⟨pool, ran, List.length_eq_zero_iff.mp quiet, ?_⟩
  rintro ⟨rows, computed, each⟩
  rw [computed] at computes
  have points : (rows.find? fun row => row.registrationId = 1).map StandingRow.points = some 0 :=
    Option.some.inj computes
  rw [← each 1, stored] at points
  cases points

/-- A round is paired, and the result of its game is entered and corrected. -/
def oneByOne : List (Label ArbiterCall ArbiterEvent) :=
  firstDraw ++ request (.enterResult (won 11 .whiteWin whiteWin_enterable)) 6

theorem oneByOne_current : ∃ pool, arbiterRequests.system.run ⟨twoPlayers, []⟩ oneByOne =
    some pool ∧ pool.inFlight = [] ∧ pool.shared.Current := by
  have ends : (arbiterRequests.system.run ⟨twoPlayers, []⟩ oneByOne).map (fun pool =>
      pool.inFlight.length) = some 0 := by decide +kernel
  obtain ⟨pool, ran, none⟩ := Option.map_eq_some_iff.mp ends
  have quiet : pool.inFlight = [] := List.length_eq_zero_iff.mp none
  have calm : System.Guarded Calm arbiterRequests.system ⟨twoPlayers, []⟩ oneByOne := by
    decide +kernel
  exact ⟨pool, ran, quiet, standings_current pool ⟨_, twoPlayers_initial,
    System.run_steps _ pool oneByOne ran (calm.mono Calm.covered)⟩ quiet⟩

end Examples

end Farzin.Arbiter
