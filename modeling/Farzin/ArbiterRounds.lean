import Farzin.ArbiterCorrections
import Farzin.ArbiterRequests
import Farzin.PairingEngines

set_option autoImplicit false

/- The rounds of a section under requests that interleave: they are numbered without gaps, all but
the last are completed, and nobody plays twice in one. -/
namespace Farzin.Arbiter

open Checked Interleaving Transition

def PairingRow.playerIds (row : PairingRow) : List PlayerId :=
  row.whiteRegistrationId :: row.blackRegistrationId.toList

def PairingRow.Played (row : PairingRow) : Prop := row.result ≠ .unplayed

/-- The rounds of a section as the arbiters rely on them. -/
structure ArbiterDb.RoundStructure (s : ArbiterDb) : Prop where
  numbers : s.data.rounds.map RoundRow.number = List.range' 1 s.data.rounds.length
  below : ∀ round ∈ s.data.rounds, round.number < s.data.rounds.length →
    round.status = .completed
  results : ∀ round ∈ s.data.rounds, round.status = .completed →
    ∀ row ∈ round.pairings, row.Played
  once : ∀ round ∈ s.data.rounds, (round.pairings.flatMap PairingRow.playerIds).Nodup

/-- What one await of a request does to the rows. -/
inductive ArbiterEffect (s : ArbiterDb) : ArbiterCall → ArbiterDb → Prop where
  | idle (call : ArbiterCall) : ArbiterEffect s call s
  | upserted (participants : List Registration) (history : List PairingHistoryEntry)
      (rows : List StandingRow) :
      ArbiterEffect s (.upsert participants history rows) (s.upsertStandings rows)
  | numbered (number : Nat) (data : Section) (assigned : Bool)
      (done : s.data.assignNumbers = .ok (data, assigned)) :
      ArbiterEffect s (.assignNumbers number) (s.withData data)
  | created (number : Nat) (assigned : Bool) (result : PairingResult)
      (free : ∀ round ∈ s.data.rounds, round.number ≠ number) :
      ArbiterEffect s (.createRound number assigned result)
        (s.withData (s.data.createRoundWithPairings number result).1)
  | entered (call : ResultCall) (pairing : PairingRow)
      (found : s.data.findPairing call.pairingId = some pairing) :
      ArbiterEffect s (.writeResult call)
        (s.withData (s.data.setResult call.pairingId call.result))
  | completed (roundId : Nat) (status : RoundStatus) (round : RoundRow)
      (found : s.data.findRound roundId = some round) :
      ArbiterEffect s (.writeCompleted roundId status)
        { s with
          data := s.data.setCompleted roundId
          outbox := s.outbox ++ [⟨roundId, s.data.id, round.number⟩] }

section Effects

variable {s : ArbiterDb}

theorem createRound_effect (number : Nat) (assigned : Bool) (result : PairingResult) :
    ArbiterEffect s (.createRound number assigned result)
      (s.advance (.createRound number assigned result)).1 := by
  rw [ArbiterDb.advance, Section.createRound]
  by_cases taken : s.data.rounds.any (fun round => round.number = number) = true
  · rw [if_pos taken]
    exact .idle _
  · rw [if_neg taken]
    apply ArbiterEffect.created
    intro round listed same
    exact taken (List.any_eq_true.mpr ⟨round, listed, decide_eq_true same⟩)

theorem arbiter_effect (call : ArbiterCall) : ArbiterEffect s call (s.advance call).1 := by
  cases call with
  | participants | enterResult | completeRound => exact .idle _
  | generateRound | activeRegistrations | recompute =>
      rw [ArbiterDb.advance]
      split <;> exact .idle _
  | latestRound =>
      rw [ArbiterDb.advance]
      split
      · exact .idle _
      · split <;> exact .idle _
  | pair | checkResult | checkRound | computeRows =>
      rw [ArbiterDb.advance]
      split <;> exact .idle _
  | assignNumbers number =>
      rw [ArbiterDb.advance]
      split
      · exact .idle _
      · rename_i data assigned done
        exact .numbered number data assigned done
  | createRound number assigned result => exact createRound_effect number assigned result
  | writeResult call =>
      rw [ArbiterDb.advance]
      split
      · exact .idle _
      · rename_i pairing found
        exact .entered call pairing found
  | writeCompleted roundId status =>
      rw [ArbiterDb.advance, ArbiterDb.writeCompleted]
      cases found : s.data.findRound roundId with
      | none => exact .idle _
      | some round => exact .completed roundId status round found
  | upsert participants history rows => exact .upserted participants history rows

/-- Giving numbers keeps the rounds and the registrations. -/
theorem assignNumbers_keeps {data after : Section} {assigned : Bool}
    (done : data.assignNumbers = .ok (after, assigned)) :
    after.rounds = data.rounds ∧ after.nextId = data.nextId ∧
      after.registrations.map Registration.id = data.registrations.map Registration.id := by
  unfold Section.assignNumbers at done
  dsimp only at done
  split at done
  · cases done
    exact ⟨rfl, rfl, rfl⟩
  · split at done
    · cases done
    · split at done
      · cases done
      · rename_i given
        cases done
        unfold Section.assignPairingNumbers at given
        dsimp only at given
        split at given
        · cases given
        · cases given
          refine ⟨rfl, rfl, ?_⟩
          rw [List.map_map, funext (numberRegistration_id _)]

end Effects

section NewRound

theorem flatMap_mapIdx {α β γ : Type} (values : List α) (row : Nat → α → β) (of : β → List γ)
    (ids : α → List γ) (same : ∀ i a, of (row i a) = ids a) :
    (values.mapIdx row).flatMap of = values.flatMap ids := by
  induction values generalizing row with
  | nil => rfl
  | cons a values ih =>
      rw [List.mapIdx_cons, List.flatMap_cons, List.flatMap_cons, same 0 a,
        ih (fun i => row (i + 1)) fun i => same (i + 1)]

/-- The rows of a new round name the players of its result. -/
theorem boardRows_players (firstId : Nat) (result : PairingResult) :
    (boardRows firstId result).flatMap PairingRow.playerIds = result.playerIds := by
  unfold boardRows PairingResult.playerIds
  rw [List.flatMap_append]
  congr 1
  · exact flatMap_mapIdx _ _ _ _ fun _ _ => rfl
  · rw [flatMap_mapIdx _ _ _ (fun bye => [bye.playerId]) fun _ _ => rfl]
    induction result.byes with
    | nil => rfl
    | cons bye byes ih => rw [List.flatMap_cons, ih, List.map_cons]; rfl

theorem engineOf_players {pairingSystem : PairingSystem}
    {engine : PairingRequest → Except PairingError PairingResult} {request : PairingRequest}
    {result : PairingResult} (there : engineOf pairingSystem = some engine)
    (ok : engine request = .ok result) : result.playerIds.Perm request.activeIds := by
  cases pairingSystem with
  | roundRobin | doubleRoundRobin =>
      cases there
      exact RoundRobin.compute_players ok
  | swissDutch =>
      cases there
      exact Swiss.compute_players ok
  | knockout | scheveningen | teamSwiss => cases there

theorem pairingRequest_ids (data : Section) (number : Nat) (participants : List Registration)
    (history : List PairingHistoryEntry) :
    (data.pairingRequest number participants history).players.map PlayerPairingState.playerId =
      participants.map Registration.id := by
  rw [Section.pairingRequest, buildPairingStates_ids, toSeeds, List.map_map]
  rfl

/-- Whatever an engine returns, it pairs participants, and each of them once. -/
theorem pair_players {s : ArbiterDb} {number : Nat} {participants : List Registration}
    {result : PairingResult} (paired : s.pair number participants = .ok result) :
    result.playerIds ⊆ participants.map Registration.id ∧
      ((participants.map Registration.id).Nodup → result.playerIds.Nodup) := by
  unfold ArbiterDb.pair at paired
  split at paired
  · cases paired
  · rename_i engine there
    cases ran : engine (s.data.pairingRequest number participants s.data.history) with
    | error error =>
        rw [ran] at paired
        cases paired
    | ok answer =>
        rw [ran] at paired
        cases paired
        have players := engineOf_players there ran
        have active : (s.data.pairingRequest number participants s.data.history).activeIds.Sublist
            (participants.map Registration.id) := by
          rw [← pairingRequest_ids s.data number participants s.data.history]
          exact List.filter_sublist.map _
        exact ⟨fun id listed => active.subset (players.subset listed),
          fun distinct => players.nodup_iff.mpr (active.nodup distinct)⟩

end NewRound

section Invariant

variable {s : ArbiterDb}

/-- The round structure, with the ids that it relies on. -/
structure ArbiterDb.Sound (s : ArbiterDb) : Prop where
  structured : s.RoundStructure
  registrations : (s.data.registrations.map Registration.id).Nodup
  roundIds : Table.Unique RoundRow.id s.data.rounds
  fresh : ∀ round ∈ s.data.rounds, round.id < s.data.nextId

/-- A round of this number may come next, or is there already. -/
structure ArbiterDb.Reached (s : ArbiterDb) (number : Nat) : Prop where
  positive : 1 ≤ number
  bound : number ≤ s.data.rounds.length + 1
  before : ∀ round ∈ s.data.rounds, round.number < number → round.status = .completed

/-- When every board that was read has a result, every board of the stored round has one. -/
structure ArbiterDb.Settles (s : ArbiterDb) (roundId : Nat) (read : List PairingRow) : Prop where
  known : roundId < s.data.nextId
  played : (∀ row ∈ read, row.Played) → ∀ round ∈ s.data.rounds, round.id = roundId →
    ∀ row ∈ round.pairings, row.Played

def ArbiterCall.Sound (s : ArbiterDb) : ArbiterCall → Prop
  | .activeRegistrations number | .assignNumbers number | .participants number _ =>
      s.Reached number
  | .pair number _ read => s.Reached number ∧ (read.map Registration.id).Nodup
  | .createRound number _ result => s.Reached number ∧ result.playerIds.Nodup
  | .checkRound _ round => s.Settles round.id round.pairings
  | .writeCompleted roundId _ => s.Settles roundId []
  | _ => True

theorem number_range (structured : s.RoundStructure) {round : RoundRow}
    (listed : round ∈ s.data.rounds) : 1 ≤ round.number ∧ round.number ≤ s.data.rounds.length := by
  have inside : round.number ∈ List.range' 1 s.data.rounds.length := by
    rw [← structured.numbers]
    exact List.mem_map_of_mem listed
  rw [List.mem_range'_1] at inside
  omega

/-- A number that may come next and is free is the next one. -/
theorem next_number (structured : s.RoundStructure) {number : Nat} (reached : s.Reached number)
    (free : ∀ round ∈ s.data.rounds, round.number ≠ number) :
    number = s.data.rounds.length + 1 := by
  by_contra other
  have inside : number ∈ s.data.rounds.map RoundRow.number := by
    rw [structured.numbers, List.mem_range'_1]
    have positive := reached.positive
    have bound := reached.bound
    omega
  obtain ⟨round, listed, same⟩ := List.mem_map.mp inside
  exact free round listed same

section Created

variable {number : Nat} {result : PairingResult}
  (free : ∀ round ∈ s.data.rounds, round.number ≠ number)

def newRound (data : Section) (number : Nat) (result : PairingResult) : RoundRow :=
  (data.createRoundWithPairings number result).2

theorem createRound_rounds (data : Section) :
    (data.createRoundWithPairings number result).1.rounds =
      data.rounds ++ [newRound data number result] := rfl

include free

theorem created_sound (sound : s.Sound) (reached : s.Reached number)
    (apart : result.playerIds.Nodup) :
    (s.withData (s.data.createRoundWithPairings number result).1).Sound := by
  have next := next_number sound.structured reached free
  refine ⟨⟨?_, ?_, ?_, ?_⟩, sound.registrations, ?_, ?_⟩
  · change (s.data.rounds ++ [newRound s.data number result]).map RoundRow.number = _
    rw [List.map_append, sound.structured.numbers]
    change _ ++ [number] = List.range' 1 (s.data.rounds ++ [_]).length
    rw [List.length_append, List.length_singleton, List.range'_concat, next]
    congr 2
    omega
  · intro round listed lower
    change round.number < (s.data.rounds ++ [_]).length at lower
    rw [List.length_append, List.length_singleton] at lower
    rcases List.mem_append.mp listed with old | new
    · exact reached.before round old (by omega)
    · rw [List.mem_singleton.mp new] at lower
      change number < _ at lower
      omega
  · intro round listed completed
    rcases List.mem_append.mp listed with old | new
    · exact sound.structured.results round old completed
    · rw [List.mem_singleton.mp new] at completed
      cases completed
  · intro round listed
    rcases List.mem_append.mp listed with old | new
    · exact sound.structured.once round old
    · rw [List.mem_singleton.mp new]
      change ((boardRows _ result).flatMap PairingRow.playerIds).Nodup
      rw [boardRows_players]
      exact apart
  · apply Table.Unique.insert sound.roundIds
    apply Table.findUnique_eq_none.mpr
    intro round listed same
    have below := sound.fresh round listed
    rw [same] at below
    exact absurd below (lt_irrefl _)
  · intro round listed
    change round.id < s.data.nextId + 1 + _
    rcases List.mem_append.mp listed with old | new
    · have below := sound.fresh round old
      omega
    · rw [List.mem_singleton.mp new]
      change s.data.nextId < _
      omega

omit free in
theorem created_reached {other : Nat} (known : s.Reached other)
    (next : number = s.data.rounds.length + 1) :
    (s.withData (s.data.createRoundWithPairings number result).1).Reached other where
  positive := known.positive
  bound := by
    change other ≤ (s.data.rounds ++ [_]).length + 1
    rw [List.length_append, List.length_singleton]
    have bound := known.bound
    omega
  before := by
    intro round listed lower
    rcases List.mem_append.mp listed with old | new
    · exact known.before round old lower
    · rw [List.mem_singleton.mp new] at lower
      change number < other at lower
      have bound := known.bound
      omega

omit free in
theorem created_settles {roundId : Nat} {read : List PairingRow} (known : s.Settles roundId read) :
    (s.withData (s.data.createRoundWithPairings number result).1).Settles roundId read where
  known := by
    change roundId < s.data.nextId + 1 + _
    have below := known.known
    omega
  played := by
    intro each round listed same
    rcases List.mem_append.mp listed with old | new
    · exact known.played each round old same
    · rw [List.mem_singleton.mp new] at same
      have below := known.known
      rw [← same] at below
      exact absurd below (lt_irrefl _)

end Created

/-- A change of the rounds that keeps what they are called. -/
structure Keeps (change : RoundRow → RoundRow) : Prop where
  id : ∀ round, (change round).id = round.id
  number : ∀ round, (change round).number = round.number
  completed : ∀ round, round.status = .completed → (change round).status = .completed
  played : ∀ round, (∀ row ∈ round.pairings, row.Played) →
    ∀ row ∈ (change round).pairings, row.Played
  players : ∀ round, (change round).pairings.flatMap PairingRow.playerIds =
    round.pairings.flatMap PairingRow.playerIds

section Changed

variable {change : RoundRow → RoundRow} (keeps : Keeps change)

def ArbiterDb.changed (s : ArbiterDb) (change : RoundRow → RoundRow) : ArbiterDb :=
  s.withData { s.data with rounds := s.data.rounds.map change }

include keeps

theorem changed_sound (sound : s.Sound)
    (results : ∀ round ∈ s.data.rounds, (change round).status = .completed →
      ∀ row ∈ (change round).pairings, row.Played) : (s.changed change).Sound := by
  refine ⟨⟨?_, ?_, ?_, ?_⟩, sound.registrations, ?_, ?_⟩
  · change (s.data.rounds.map change).map RoundRow.number =
      List.range' 1 (s.data.rounds.map change).length
    rw [List.map_map, List.length_map, ← sound.structured.numbers]
    exact List.map_congr_left fun round _ => keeps.number round
  · intro round listed lower
    obtain ⟨before, old, rfl⟩ := List.mem_map.mp listed
    change _ < (s.data.rounds.map change).length at lower
    rw [List.length_map, keeps.number] at lower
    exact keeps.completed before (sound.structured.below before old lower)
  · intro round listed completed
    obtain ⟨before, old, rfl⟩ := List.mem_map.mp listed
    exact results before old completed
  · intro round listed
    obtain ⟨before, old, rfl⟩ := List.mem_map.mp listed
    rw [keeps.players]
    exact sound.structured.once before old
  · change ((s.data.rounds.map change).map RoundRow.id).Nodup
    have same : (s.data.rounds.map change).map RoundRow.id = s.data.rounds.map RoundRow.id := by
      rw [List.map_map]
      exact List.map_congr_left fun round _ => keeps.id round
    rw [same]
    exact sound.roundIds
  · intro round listed
    obtain ⟨before, old, rfl⟩ := List.mem_map.mp listed
    rw [keeps.id]
    exact sound.fresh before old

theorem changed_reached {number : Nat} (known : s.Reached number) :
    (s.changed change).Reached number where
  positive := known.positive
  bound := by
    change number ≤ (s.data.rounds.map change).length + 1
    rw [List.length_map]
    exact known.bound
  before := by
    intro round listed lower
    obtain ⟨before, old, rfl⟩ := List.mem_map.mp listed
    rw [keeps.number] at lower
    exact keeps.completed before (known.before before old lower)

theorem changed_settles {roundId : Nat} {read : List PairingRow} (known : s.Settles roundId read) :
    (s.changed change).Settles roundId read where
  known := known.known
  played := by
    intro each round listed same
    obtain ⟨before, old, rfl⟩ := List.mem_map.mp listed
    rw [keeps.id] at same
    exact keeps.played before (known.played each before old same)

end Changed

theorem setResult_keeps (call : ResultCall) : Keeps fun round =>
    { round with pairings := round.pairings.map fun p =>
        if p.id = call.pairingId then { p with result := call.result } else p } where
  id _ := rfl
  number _ := rfl
  completed _ done := done
  played round each row listed := by
    obtain ⟨before, old, rfl⟩ := List.mem_map.mp listed
    split
    · exact call.enterable
    · exact each before old
  players round := by
    rw [List.flatMap_map]
    congr 1
    funext row
    split <;> rfl

theorem setCompleted_keeps (roundId : Nat) : Keeps fun round =>
    if round.id = roundId then { round with status := .completed } else round where
  id round := by split <;> rfl
  number round := by split <;> rfl
  completed round done := by
    split
    · rfl
    · exact done
  played round each row listed := by
    split at listed
    · exact each row listed
    · exact each row listed
  players round := by split <;> rfl

/-- What a request in flight has found stays true under every effect. -/
structure Stays (s t : ArbiterDb) : Prop where
  reached : ∀ number, s.Reached number → t.Reached number
  settles : ∀ roundId read, s.Settles roundId read → t.Settles roundId read

theorem Stays.sound {t : ArbiterDb} (stays : Stays s t) {call : ArbiterCall}
    (sound : call.Sound s) : call.Sound t := by
  cases call with
  | activeRegistrations | assignNumbers | participants => exact stays.reached _ sound
  | pair | createRound => exact ⟨stays.reached _ sound.1, sound.2⟩
  | checkRound | writeCompleted => exact stays.settles _ _ sound
  | generateRound | latestRound | enterResult | checkResult | writeResult | completeRound
  | recompute | computeRows | upsert => trivial

theorem stays_same {t : ArbiterDb} (rounds : t.data.rounds = s.data.rounds)
    (nextId : t.data.nextId = s.data.nextId) : Stays s t where
  reached number known := ⟨known.positive, by rw [rounds]; exact known.bound,
    by rw [rounds]; exact known.before⟩
  settles roundId read known := ⟨by rw [nextId]; exact known.known,
    by rw [rounds]; exact known.played⟩

theorem effect_sound {call : ArbiterCall} {t : ArbiterDb} (sound : s.Sound)
    (own : call.Sound s) (effect : ArbiterEffect s call t) : t.Sound ∧ Stays s t := by
  cases effect with
  | idle | upserted =>
      refine ⟨⟨⟨sound.structured.numbers, sound.structured.below, sound.structured.results,
        sound.structured.once⟩, sound.registrations, sound.roundIds, sound.fresh⟩,
        stays_same rfl rfl⟩
  | numbered number data assigned done =>
      obtain ⟨rounds, nextId, registrations⟩ := assignNumbers_keeps done
      refine ⟨⟨⟨?_, ?_, ?_, ?_⟩, ?_, ?_, ?_⟩, stays_same rounds nextId⟩
      · change data.rounds.map RoundRow.number = List.range' 1 data.rounds.length
        rw [rounds]
        exact sound.structured.numbers
      · change ∀ round ∈ data.rounds, round.number < data.rounds.length → _
        rw [rounds]
        exact sound.structured.below
      · change ∀ round ∈ data.rounds, _
        rw [rounds]
        exact sound.structured.results
      · change ∀ round ∈ data.rounds, _
        rw [rounds]
        exact sound.structured.once
      · change (data.registrations.map Registration.id).Nodup
        rw [registrations]
        exact sound.registrations
      · change Table.Unique RoundRow.id data.rounds
        rw [rounds]
        exact sound.roundIds
      · change ∀ round ∈ data.rounds, round.id < data.nextId
        rw [rounds, nextId]
        exact sound.fresh
  | created number assigned result free =>
      have next := next_number sound.structured own.1 free
      exact ⟨created_sound free sound own.1 own.2,
        ⟨fun _ known => created_reached known next, fun _ _ known => created_settles known⟩⟩
  | entered call pairing found =>
      have keeps := setResult_keeps call
      exact ⟨changed_sound keeps sound fun round listed done =>
        keeps.played round (sound.structured.results round listed done),
        ⟨fun _ known => changed_reached keeps known, fun _ _ known => changed_settles keeps known⟩⟩
  | completed roundId status round found =>
      have keeps := setCompleted_keeps roundId
      have changed : (s.changed _).Sound := changed_sound keeps sound fun round listed done => by
        by_cases same : round.id = roundId
        · exact keeps.played round
            (own.played (fun _ none => by cases none) round listed same)
        · rw [if_neg same] at done ⊢
          exact sound.structured.results round listed done
      refine ⟨⟨⟨changed.structured.numbers, changed.structured.below, changed.structured.results,
        changed.structured.once⟩, changed.registrations, changed.roundIds, changed.fresh⟩,
        ⟨fun number known => ?_, fun roundId read known => ?_⟩⟩
      · have reached := changed_reached keeps known
        exact ⟨reached.positive, reached.bound, reached.before⟩
      · have settles := changed_settles keeps known
        exact ⟨settles.known, settles.played⟩

theorem fold_laterRound_mem (rounds : List RoundRow) (start latest : RoundRow)
    (found : rounds.foldl laterRound (some start) = some latest) :
    latest = start ∨ latest ∈ rounds := by
  induction rounds generalizing start with
  | nil => exact .inl (Option.some.inj found).symm
  | cons round rounds ih =>
      rw [List.foldl_cons, laterRound] at found
      split at found
      · rcases ih round found with same | later
        · exact .inr (same ▸ List.mem_cons_self)
        · exact .inr (List.mem_cons_of_mem round later)
      · rcases ih start found with same | later
        · exact .inl same
        · exact .inr (List.mem_cons_of_mem round later)

theorem latestRound_mem {data : Section} {latest : RoundRow}
    (found : data.latestRound = some latest) : latest ∈ data.rounds := by
  unfold Section.latestRound at found
  cases rounds : data.rounds with
  | nil =>
      rw [rounds] at found
      cases found
  | cons first others =>
      rw [rounds, List.foldl_cons] at found
      rcases fold_laterRound_mem others first latest found with same | later
      · exact same ▸ List.mem_cons_self
      · exact List.mem_cons_of_mem first later

/-- After a completed round its successor may come. -/
theorem latest_reached (sound : s.Sound) {latest : RoundRow}
    (found : s.data.latestRound = some latest) (completed : latest.status = .completed) :
    s.Reached (latest.number + 1) where
  positive := by omega
  bound := by
    have range := number_range sound.structured (latestRound_mem found)
    omega
  before := by
    intro round listed lower
    have range := number_range sound.structured (latestRound_mem found)
    by_cases last : round.number = s.data.rounds.length
    · have same : round = latest := by
        have numbers : (s.data.rounds.map RoundRow.number).Nodup := by
          rw [sound.structured.numbers]
          exact List.nodup_range'
        exact List.inj_on_of_nodup_map numbers listed (latestRound_mem found) (by omega)
      rw [same]
      exact completed
    · have bound := number_range sound.structured listed
      exact sound.structured.below round listed (by omega)

theorem first_reached (none : s.data.latestRound = none) : s.Reached 1 where
  positive := le_refl 1
  bound := by omega
  before := by
    intro round listed
    rw [latestRound_none none] at listed
    cases listed

theorem numberedRegistrations_nodup {data : Section}
    (distinct : (data.registrations.map Registration.id).Nodup) :
    (data.numberedRegistrations.map Registration.id).Nodup := by
  unfold Section.numberedRegistrations
  rw [((List.perm_insertionSort _ _).map Registration.id).nodup_iff]
  exact distinct.sublist (List.filter_sublist.map _)

theorem found_settles (sound : s.Sound) {roundId : Nat} {round : RoundRow}
    (found : s.data.findRound roundId = some round) : s.Settles round.id round.pairings where
  known := sound.fresh round (List.mem_of_find?_eq_some found)
  played := by
    intro each stored listed same
    have equal := List.inj_on_of_nodup_map sound.roundIds listed
      (List.mem_of_find?_eq_some found) same
    rw [equal]
    exact each

theorem checkRound_played {data : Section} {allowed : Bool} {round : RoundRow}
    (passed : data.checkRound allowed round = .ok ()) : ∀ row ∈ round.pairings, row.Played := by
  unfold Section.checkRound at passed
  split at passed
  · cases passed
  split at passed
  · cases passed
  split at passed
  · cases passed
  dsimp only at passed
  split at passed
  · cases passed
  · rename_i none
    intro row listed unplayed
    push Not at none
    have inside : row ∈ round.pairings.filter fun p => p.result = .unplayed :=
      List.mem_filter.mpr ⟨listed, decide_eq_true unplayed⟩
    rw [none] at inside
    cases inside

/-- What a request goes on with holds of what it leaves. -/
theorem advance_sound {call rest : ArbiterCall} (sound : s.Sound) (own : call.Sound s)
    (left : (s.advance call).2 = some rest) : rest.Sound (s.advance call).1 := by
  have stays := (effect_sound sound own (arbiter_effect call)).2
  cases call with
  | generateRound allowed =>
      rw [ArbiterDb.advance] at left
      split at left
      · cases left
      · cases left
        trivial
  | latestRound =>
      rw [ArbiterDb.advance] at left ⊢
      split at left
      · rename_i none
        cases left
        exact first_reached none
      · rename_i latest found
        split at left
        · cases left
        · rename_i completed
          cases left
          rw [if_neg completed]
          exact latest_reached sound found (not_not.mp completed)
  | activeRegistrations number =>
      rw [ArbiterDb.advance] at left ⊢
      split at left
      · cases left
        split <;> exact own
      · cases left
        split <;> exact own
  | assignNumbers number =>
      have reached : (s.advance (.assignNumbers number)).1.Reached number := stays.reached _ own
      rw [ArbiterDb.advance] at left
      split at left
      · cases left
      · cases left
        exact reached
  | participants number assigned =>
      cases left
      exact ⟨own, numberedRegistrations_nodup sound.registrations⟩
  | pair number assigned read =>
      rw [ArbiterDb.advance] at left ⊢
      split at left
      · cases left
      · rename_i result paired
        cases left
        exact ⟨own.1, (pair_players paired).2 own.2⟩
  | createRound | writeResult | recompute =>
      rw [ArbiterDb.advance] at left
      split at left
      · cases left
      · cases left
        trivial
  | enterResult =>
      obtain ⟨pairing, _, rfl⟩ := Option.map_eq_some_iff.mp left
      trivial
  | checkResult call pairing =>
      rw [ArbiterDb.advance] at left
      split at left
      · cases left
      · cases left
        trivial
  | completeRound allowed roundId =>
      obtain ⟨round, found, rfl⟩ := Option.map_eq_some_iff.mp left
      exact found_settles sound found
  | checkRound allowed round =>
      rw [ArbiterDb.advance] at left ⊢
      split at left
      · cases left
      · rename_i passed
        cases left
        have played := own.played (checkRound_played passed)
        exact ⟨own.known, fun _ => played⟩
  | writeCompleted roundId status =>
      rw [ArbiterDb.advance] at left
      split at left
      · cases left
      · cases left
        trivial
  | computeRows read =>
      rw [ArbiterDb.advance] at left
      split at left
      · cases left
      · cases left
        trivial
  | upsert => cases left

theorem ArbiterDb.Initial.sound (initial : s.Initial) : s.Sound := by
  have none := initial.start.rounds
  refine ⟨⟨?_, ?_, ?_, ?_⟩, initial.start.distinct, ?_, ?_⟩
  · rw [none]
    rfl
  · simp [none]
  · simp [none]
  · simp [none]
  · rw [none]
    exact List.nodup_nil
  · simp [none]

theorem arbiterRequests_outline : Outline arbiterRequests (fun _ _ => True) ArbiterDb.Sound
    (fun s call => call.Sound s) where
  starts _ initial := initial.sound
  enters s call _ arrives := by
    cases call with
    | generateRound | enterResult | completeRound => trivial
    | latestRound | activeRegistrations | assignNumbers | participants | pair | createRound
    | checkResult | writeResult | checkRound | writeCompleted | recompute | computeRows
    | upsert => cases arrives
  acts s call sound own _ := (effect_sound sound own (arbiter_effect call)).1
  continues s call rest sound own _ left := advance_sound sound own left
  stable s call other sound own _ known :=
    (effect_sound sound own (arbiter_effect call)).2.sound known
  events s event t sound happened := by
    cases event with
    | setInProgress inProgress =>
        cases happened
        have stays : Stays s (s.withData { s.data with inProgress }) := stays_same rfl rfl
        exact ⟨⟨⟨sound.structured.numbers, sound.structured.below, sound.structured.results,
          sound.structured.once⟩, sound.registrations, sound.roundIds, sound.fresh⟩,
          fun _ known => stays.sound known⟩

end Invariant

/-- Whatever the arbiters do at the same time, the rounds are numbered 1 to k, all but the last
are completed, a completed round has all its results, and nobody plays twice in one round. -/
theorem round_structure (pool : Pool ArbiterDb ArbiterCall)
    (reached : arbiterRequests.system.Reachable pool) : pool.shared.RoundStructure :=
  (arbiterRequests_outline.always reached).1.structured

section Runs

/-- Two players, who are to play each other twice. -/
def twoPlayers : ArbiterDb where
  data := {
    id := "open"
    inProgress := true
    totalRounds := 2
    registrations := [⟨1, true, false, none, some 1800, 0, none⟩,
      ⟨2, true, false, none, some 1700, 0, none⟩]
    rounds := []
    nextId := 10 }
  pairingSystem := .doubleRoundRobin
  tieBreakOrder := []
  standings _ := none
  outbox := []

theorem twoPlayers_initial : arbiterRequests.system.initial ⟨twoPlayers, []⟩ :=
  ⟨⟨⟨rfl, by decide⟩, by decide, fun _ => rfl, rfl⟩, rfl⟩

/-- A request that is alone, up to its last await. -/
def request (call : ArbiterCall) (awaits : Nat) : List (Label ArbiterCall ArbiterEvent) :=
  .arrive call :: List.replicate awaits (.advance 0)

theorem draw_enterable : PairingResultValue.draw ≠ .unplayed := by decide

def drawn (pairingId : Nat) : ResultCall := ⟨true, pairingId, .draw, draw_enterable, none⟩

/-- The first round is paired, and its game is drawn. -/
def firstDraw : List (Label ArbiterCall ArbiterEvent) :=
  request (.generateRound true) 10 ++ request (.enterResult (drawn 11)) 6

/-- Two requests pair the second round at the same time, and the unique key stops one of them. -/
def bothPair : List (Label ArbiterCall ArbiterEvent) :=
  firstDraw ++ request (.completeRound true 10) 6 ++
    [.arrive (.generateRound true), .arrive (.generateRound true)] ++
      List.replicate 15 (.advance 0)

theorem bothPair_structure : ∃ pool, arbiterRequests.system.run ⟨twoPlayers, []⟩ bothPair =
    some pool ∧ pool.shared.data.rounds.length = 2 ∧ pool.shared.RoundStructure := by
  have two : (arbiterRequests.system.run ⟨twoPlayers, []⟩ bothPair).map
      (fun pool => pool.shared.data.rounds.length) = some 2 := by decide +kernel
  obtain ⟨pool, ran, length⟩ := Option.map_eq_some_iff.mp two
  exact ⟨pool, ran, length, round_structure pool
    (System.run_reachable _ _ bothPair twoPlayers_initial ran)⟩

end Runs

end Farzin.Arbiter
