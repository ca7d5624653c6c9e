import Farzin.ArbiterHistory
import Farzin.SwissSound
import Farzin.Table

set_option autoImplicit false

/- What the states of a section say about its entries: the colours of the games that were
played, everyone a player was paired with, and who has won without playing. -/
namespace Farzin.Arbiter

open Swiss

/-- The colour that an entry adds to the history of a player. -/
def colorOf (id : PlayerId) (entry : PairingHistoryEntry) : Option Color :=
  (sideOf entry id).bind fun side =>
    (outcomeFor entry.result side).bind fun outcome =>
      if outcome.playedOverBoard then some side.color else none

def colorsOf (id : PlayerId) (entries : List PairingHistoryEntry) : List Color :=
  entries.filterMap (colorOf id)

/-- The opponent that an entry gives to a player, whatever its result. -/
def opponentOf (id : PlayerId) (entry : PairingHistoryEntry) : Option PlayerId :=
  (sideOf entry id).bind fun side =>
    entry.blackRegistrationId.map fun black =>
      if side = .white then black else entry.whiteRegistrationId

/-- A full point without a game: a bye or a forfeit. -/
def UnplayedWin (id : PlayerId) (entry : PairingHistoryEntry) : Prop :=
  match entry.blackRegistrationId with
  | none => sideOf entry id = some .white ∧ entry.result = .byeFull
  | some _ => sideOf entry id = some .white ∧ entry.result = .whiteWinForfeit ∨
      sideOf entry id = some .black ∧ entry.result = .blackWinForfeit

/-- The players of an entry. -/
def entryIds (entry : PairingHistoryEntry) : List PlayerId :=
  entry.whiteRegistrationId :: entry.blackRegistrationId.toList

section Entries

variable {id : PlayerId} {entry : PairingHistoryEntry}

theorem sideOf_mem {side : Side} (here : sideOf entry id = some side) : id ∈ entryIds entry := by
  unfold sideOf at here
  split at here
  · rename_i white
    rw [← white]
    exact List.mem_cons_self
  · split at here
    · rename_i black
      apply List.mem_cons_of_mem
      rw [black]
      exact List.mem_cons_self
    · cases here

theorem colorOf_mem {color : Color} (played : colorOf id entry = some color) :
    id ∈ entryIds entry := by
  obtain ⟨side, here, _⟩ := Option.bind_eq_some_iff.mp played
  exact sideOf_mem here

theorem opponentOf_mem {other : PlayerId} (met : opponentOf id entry = some other) :
    id ∈ entryIds entry := by
  obtain ⟨side, here, _⟩ := Option.bind_eq_some_iff.mp met
  exact sideOf_mem here

end Entries

section Records

variable (id : PlayerId) (entries : List PairingHistoryEntry) (record : Record)

theorem add_colorHistory (entry : PairingHistoryEntry) :
    (Record.add id record entry).colorHistory =
      record.colorHistory ++ (colorOf id entry).toList := by
  have kept : ∀ side, (record.meet entry side).colorHistory = record.colorHistory := by
    intro side
    unfold Record.meet
    split
    · split
      · rfl
      · rfl
    · dsimp only
      split
      · rfl
      · rfl
  unfold Record.add colorOf
  cases here : sideOf entry id with
  | none => simp
  | some side =>
      dsimp only [Option.bind_some]
      cases outcome : outcomeFor entry.result side with
      | none => simp [kept]
      | some outcome =>
          dsimp only [Option.bind_some, Record.score]
          rw [kept]
          split
          · rfl
          · simp

theorem add_opponentIds (entry : PairingHistoryEntry) (other : PlayerId) :
    other ∈ (Record.add id record entry).opponentIds ↔
      other ∈ record.opponentIds ∨ opponentOf id entry = some other := by
  have scored : ∀ (record : Record) side outcome,
      (Record.score record side outcome).opponentIds = record.opponentIds := fun _ _ _ => rfl
  have met : ∀ side, other ∈ (record.meet entry side).opponentIds ↔
      other ∈ record.opponentIds ∨
        (entry.blackRegistrationId.map fun black =>
          if side = .white then black else entry.whiteRegistrationId) = some other := by
    intro side
    unfold Record.meet
    cases entry.blackRegistrationId with
    | none =>
        dsimp only
        split
        · simp
        · simp
    | some black =>
        rw [Option.map_some, Option.some_inj]
        dsimp only
        generalize (if side = Side.white then black else entry.whiteRegistrationId) = opponent
        have grown : other ∈ (if opponent ∈ record.opponentIds then record.opponentIds
            else record.opponentIds ++ [opponent]) ↔
            other ∈ record.opponentIds ∨ opponent = other := by
          rw [Table.mem_addOnce, eq_comm]
        split
        · exact grown
        · exact grown
  unfold Record.add opponentOf
  cases here : sideOf entry id with
  | none => simp
  | some side =>
      dsimp only [Option.bind_some]
      cases outcome : outcomeFor entry.result side with
      | none => exact met side
      | some outcome =>
          dsimp only
          rw [scored]
          exact met side

theorem add_hasReceivedBye (entry : PairingHistoryEntry) :
    (Record.add id record entry).hasReceivedBye = true ↔
      record.hasReceivedBye = true ∨ UnplayedWin id entry := by
  have scored : ∀ (record : Record) side outcome,
      (Record.score record side outcome).hasReceivedBye = record.hasReceivedBye :=
    fun _ _ _ => rfl
  have met : ∀ side, sideOf entry id = some side →
      ((record.meet entry side).hasReceivedBye = true ↔
        record.hasReceivedBye = true ∨ UnplayedWin id entry) := by
    intro side here
    unfold Record.meet UnplayedWin
    cases black : entry.blackRegistrationId with
    | none =>
        have white : side = .white := by
          unfold sideOf at here
          rw [black] at here
          split at here
          · exact (Option.some.inj here).symm
          · cases here
        rw [here, white]
        dsimp only
        split
        · simp [*]
        · simp [*]
    | some black =>
        rw [here]
        dsimp only
        split
        · rename_i won
          simp [won]
        · rename_i other
          simp only [Option.some_inj]
          constructor
          · exact .inl
          · rintro (before | now)
            · exact before
            · exact absurd now other
  unfold Record.add
  cases here : sideOf entry id with
  | none =>
      have never : ¬UnplayedWin id entry := by
        unfold UnplayedWin
        rw [here]
        split
        · simp
        · simp
      simp [never]
  | some side =>
      dsimp only
      cases outcome : outcomeFor entry.result side with
      | none => exact met side here
      | some outcome =>
          dsimp only
          rw [scored]
          exact met side here

theorem fold_colorHistory :
    (entries.foldl (Record.add id) record).colorHistory =
      record.colorHistory ++ colorsOf id entries := by
  induction entries generalizing record with
  | nil => exact (List.append_nil _).symm
  | cons entry entries ih =>
      rw [List.foldl_cons, ih, add_colorHistory, List.append_assoc]
      congr 1
      unfold colorsOf
      cases here : colorOf id entry with
      | none => rw [List.filterMap_cons_none here]; rfl
      | some color => rw [List.filterMap_cons_some here]; rfl

theorem fold_opponentIds (other : PlayerId) :
    other ∈ (entries.foldl (Record.add id) record).opponentIds ↔
      other ∈ record.opponentIds ∨ ∃ entry ∈ entries, opponentOf id entry = some other := by
  induction entries generalizing record with
  | nil => simp
  | cons entry entries ih =>
      rw [List.foldl_cons, ih, add_opponentIds, or_assoc]
      simp

theorem fold_hasReceivedBye :
    (entries.foldl (Record.add id) record).hasReceivedBye = true ↔
      record.hasReceivedBye = true ∨ ∃ entry ∈ entries, UnplayedWin id entry := by
  induction entries generalizing record with
  | nil => simp
  | cons entry entries ih =>
      rw [List.foldl_cons, ih, add_hasReceivedBye, or_assoc]
      simp

theorem recordOf_colorHistory : (recordOf entries id).colorHistory = colorsOf id entries :=
  fold_colorHistory id entries ⟨0, false, [], []⟩

theorem recordOf_opponentIds (other : PlayerId) : other ∈ (recordOf entries id).opponentIds ↔
    ∃ entry ∈ entries, opponentOf id entry = some other := by
  unfold recordOf
  rw [fold_opponentIds]
  simp

theorem recordOf_hasReceivedBye : (recordOf entries id).hasReceivedBye = true ↔
    ∃ entry ∈ entries, UnplayedWin id entry := by
  unfold recordOf
  rw [fold_hasReceivedBye]
  simp

end Records

section States

variable {history : List PairingHistoryEntry} {participants : List ParticipantSeed}

theorem mem_sortEntries {entry : PairingHistoryEntry} :
    entry ∈ sortEntries history ↔ entry ∈ history := (List.perm_insertionSort _ _).mem_iff

theorem sortEntries_ordered
    (ordered : history.Pairwise fun a b => a.roundNumber ≤ b.roundNumber) :
    sortEntries history = history := ordered.insertionSort_eq

/-- What a state says about the entries of its player. -/
structure StateOf (history : List PairingHistoryEntry) (p : PlayerPairingState) : Prop where
  colors : p.colorHistory = colorsOf p.playerId (sortEntries history)
  opponents : ∀ other, other ∈ p.opponentIds ↔
    ∃ entry ∈ history, opponentOf p.playerId entry = some other
  bye : p.hasReceivedBye = true ↔ ∃ entry ∈ history, UnplayedWin p.playerId entry

theorem buildPairingStates_state {p : PlayerPairingState}
    (listed : p ∈ buildPairingStates participants history) : StateOf history p := by
  obtain ⟨participant, _, same⟩ := List.mem_map.mp listed
  rw [← same]
  refine ⟨recordOf_colorHistory _ _, fun other => ?_, ?_⟩
  · change other ∈ (recordOf _ _).opponentIds ↔ _
    rw [recordOf_opponentIds]
    simp only [mem_sortEntries]
    rfl
  · change (recordOf _ _).hasReceivedBye = true ↔ _
    rw [recordOf_hasReceivedBye]
    simp only [mem_sortEntries]
    rfl

theorem buildPairingStates_ids (participants : List ParticipantSeed)
    (history : List PairingHistoryEntry) :
    (buildPairingStates participants history).map PlayerPairingState.playerId =
      participants.map ParticipantSeed.registrationId := by
  unfold buildPairingStates
  rw [List.map_map]
  rfl

/-- An entry makes its two players opponents of each other. -/
theorem opponentOf_symm {p q : PlayerId} {entry : PairingHistoryEntry}
    (met : opponentOf p entry = some q) : opponentOf q entry = some p := by
  unfold opponentOf sideOf at met ⊢
  by_cases white : entry.whiteRegistrationId = p
  · rw [if_pos white, Option.bind_some] at met
    obtain ⟨black, found, same⟩ := Option.map_eq_some_iff.mp met
    rw [if_pos rfl] at same
    subst same
    by_cases own : entry.whiteRegistrationId = black
    · rw [if_pos own, Option.bind_some, found, Option.map_some, if_pos rfl, ← own, white]
    · rw [if_neg own, if_pos found, Option.bind_some, found, Option.map_some,
        if_neg (by decide), white]
  · rw [if_neg white] at met
    by_cases black : entry.blackRegistrationId = some p
    · rw [if_pos black, Option.bind_some, black, Option.map_some, if_neg (by decide)] at met
      rw [if_pos (Option.some.inj met), Option.bind_some, black, Option.map_some, if_pos rfl]
    · rw [if_neg black] at met
      cases met

/-- States are consistent when their registrations are known apart and everyone has a colour
left. -/
theorem buildPairingStates_consistent
    (distinct : (participants.map ParticipantSeed.registrationId).Nodup)
    (playable : ∀ id, Playable (colorsOf id (sortEntries history))) :
    Consistent (buildPairingStates participants history) where
  distinct := by
    rw [buildPairingStates_ids]
    exact distinct
  mutually p hereP q hereQ met := by
    obtain ⟨entry, listed, opponent⟩ := ((buildPairingStates_state hereP).opponents _).mp met
    exact ((buildPairingStates_state hereQ).opponents _).mpr
      ⟨entry, listed, opponentOf_symm opponent⟩
  playable p here := by
    rw [(buildPairingStates_state here).colors]
    exact playable p.playerId

end States

end Farzin.Arbiter
