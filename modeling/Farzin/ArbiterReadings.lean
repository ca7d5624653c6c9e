import Farzin.ArbiterStandings
import Mathlib.Data.List.Sort

set_option autoImplicit false

/- The two readings of a section's entries, for the pairing of the next round and for the
standings, agree with each other and do not depend on the order of the entries. -/
namespace Farzin.Arbiter

open TieBreak (GameRecord)

/-- Two entries that are not of one round, or have no player in common. -/
def Separate (a b : PairingHistoryEntry) : Prop :=
  a.roundNumber = b.roundNumber → (entryIds a).Disjoint (entryIds b)

/-- Rounds count from one, nobody plays against himself, and two entries of one round have no
player in common. -/
structure OncePerRound (history : List PairingHistoryEntry) : Prop where
  numbered : ∀ entry ∈ history, 1 ≤ entry.roundNumber
  apart : ∀ entry ∈ history, entry.blackRegistrationId ≠ some entry.whiteRegistrationId
  once : history.Pairwise Separate

/-- The entries of one player. -/
def ownEntries (id : PlayerId) (entries : List PairingHistoryEntry) : List PairingHistoryEntry :=
  entries.filter fun entry => decide (id ∈ entryIds entry)

/-- The entry of a player in a round. -/
def ownEntry (history : List PairingHistoryEntry) (id : PlayerId) (round : Nat) :
    Option PairingHistoryEntry :=
  history.find? fun entry => decide (entry.roundNumber = round ∧ id ∈ entryIds entry)

/-- The points that an entry gives to a player. -/
def pointsIn (id : PlayerId) (entry : PairingHistoryEntry) : Rat :=
  ((gameOf id entry).map GameRecord.result).getD 0

theorem Separate.symm {a b : PairingHistoryEntry} (separate : Separate a b) : Separate b a :=
  fun equal => (separate equal.symm).symm

theorem sortEntries_perm (history : List PairingHistoryEntry) :
    (sortEntries history).Perm history := List.perm_insertionSort _ _

theorem sideOf_none {id : PlayerId} {entry : PairingHistoryEntry}
    (absent : id ∉ entryIds entry) : sideOf entry id = none := by
  cases here : sideOf entry id with
  | none => rfl
  | some side => exact absurd (sideOf_mem here) absent

section Order

variable {history other : List PairingHistoryEntry} {id : PlayerId}

theorem OncePerRound.perm (once : OncePerRound history) (same : other.Perm history) :
    OncePerRound other where
  numbered entry listed := once.numbered entry (same.mem_iff.mp listed)
  apart entry listed := once.apart entry (same.mem_iff.mp listed)
  once := (same.pairwise_iff Separate.symm).mpr once.once

theorem OncePerRound.sorted (once : OncePerRound history) : OncePerRound (sortEntries history) :=
  once.perm (sortEntries_perm history)

theorem OncePerRound.filter (once : OncePerRound history) (p : PairingHistoryEntry → Bool) :
    OncePerRound (history.filter p) where
  numbered entry listed := once.numbered entry (List.mem_of_mem_filter listed)
  apart entry listed := once.apart entry (List.mem_of_mem_filter listed)
  once := once.once.filter p

theorem sortEntries_pairwise (history : List PairingHistoryEntry) :
    (sortEntries history).Pairwise fun a b => a.roundNumber ≤ b.roundNumber := by
  have total : Std.Total fun a b : PairingHistoryEntry => a.roundNumber ≤ b.roundNumber :=
    ⟨fun a b => Nat.le_total a.roundNumber b.roundNumber⟩
  have trans : IsTrans PairingHistoryEntry fun a b => a.roundNumber ≤ b.roundNumber :=
    ⟨fun _ _ _ => Nat.le_trans⟩
  exact List.pairwise_insertionSort _ _

/-- A player's entries stand in the order of their rounds, and no two in one round. -/
theorem ownEntries_strict (once : OncePerRound history) (id : PlayerId) :
    (ownEntries id (sortEntries history)).Pairwise fun a b => a.roundNumber < b.roundNumber := by
  have both := (sortEntries_pairwise history).and once.sorted.once
  refine (both.filter _).imp_of_mem ?_
  intro a b listedA listedB ordered
  have ownA : id ∈ entryIds a := by simpa using (List.mem_filter.mp listedA).2
  have ownB : id ∈ entryIds b := by simpa using (List.mem_filter.mp listedB).2
  rcases Nat.lt_or_eq_of_le ordered.1 with before | equal
  · exact before
  · exact absurd ownB (ordered.2 equal ownA)

theorem ownEntries_perm (once : OncePerRound history) (same : other.Perm history) :
    ownEntries id (sortEntries other) = ownEntries id (sortEntries history) := by
  have sorted : (sortEntries other).Perm (sortEntries history) :=
    ((sortEntries_perm other).trans same).trans (sortEntries_perm history).symm
  refine (sorted.filter _).eq_of_pairwise ?_ (ownEntries_strict (once.perm same) id)
    (ownEntries_strict once id)
  intro a b _ _ before after
  omega

theorem ownEntry_iff (once : OncePerRound history) {round : Nat}
    {entry : PairingHistoryEntry} : ownEntry history id round = some entry ↔
      entry ∈ history ∧ entry.roundNumber = round ∧ id ∈ entryIds entry := by
  constructor
  · intro found
    have holds := List.find?_some found
    exact ⟨List.mem_of_find?_eq_some found, by simpa using holds⟩
  · intro own
    obtain ⟨listed, numbered, inside⟩ := own
    cases found : ownEntry history id round with
    | none =>
        have never := List.find?_eq_none.mp found entry listed
        simp [numbered, inside] at never
    | some first =>
        have holds := List.find?_some found
        simp only [decide_eq_true_eq] at holds
        by_contra different
        have symmetric : Std.Symm Separate := ⟨fun _ _ => Separate.symm⟩
        have apart := once.once.forall (List.mem_of_find?_eq_some found) listed
          (fun same => different (congrArg some same))
        exact apart (holds.1.trans numbered.symm) holds.2 inside

theorem ownEntry_perm (once : OncePerRound history) (same : other.Perm history)
    (id : PlayerId) (round : Nat) : ownEntry other id round = ownEntry history id round := by
  refine Option.ext fun entry => ?_
  rw [ownEntry_iff (once.perm same), ownEntry_iff once,
    same.mem_iff]

theorem le_maxRound (entries : List PairingHistoryEntry) :
    ∀ entry ∈ entries, entry.roundNumber ≤ maxRound entries := by
  have grows : ∀ (rest : List PairingHistoryEntry) (least : Nat),
      least ≤ rest.foldl (fun acc entry => max acc entry.roundNumber) least ∧
        ∀ entry ∈ rest, entry.roundNumber ≤
          rest.foldl (fun acc entry => max acc entry.roundNumber) least := by
    intro rest
    induction rest with
    | nil => exact fun least => ⟨Nat.le_refl _, fun entry listed => by cases listed⟩
    | cons first rest ih =>
        intro least
        obtain ⟨start, each⟩ := ih (max least first.roundNumber)
        rw [List.foldl_cons]
        refine ⟨by omega, fun entry listed => ?_⟩
        rcases List.mem_cons.mp listed with same | later
        · subst same
          omega
        · exact each entry later
  exact (grows entries 0).2

theorem maxRound_perm (same : other.Perm history) : maxRound other = maxRound history := by
  refine same.foldl_eq' (fun a _ b _ acc => ?_) 0
  omega

/-- A player's entries are those of the rounds, one after the other. -/
theorem ownEntries_rounds (once : OncePerRound history) (id : PlayerId) :
    ownEntries id (sortEntries history) =
      (List.range' 1 (maxRound history)).filterMap (ownEntry history id) := by
  have left := ownEntries_strict once id
  have right : ((List.range' 1 (maxRound history)).filterMap (ownEntry history id)).Pairwise
      fun a b => a.roundNumber < b.roundNumber := by
    refine List.Pairwise.filterMap _ ?_ List.pairwise_lt_range'
    intro a b before entryA foundA entryB foundB
    rw [((ownEntry_iff once).mp foundA).2.1, ((ownEntry_iff once).mp foundB).2.1]
    exact before
  have distinct : ∀ {entries : List PairingHistoryEntry},
      (entries.Pairwise fun a b => a.roundNumber < b.roundNumber) → entries.Nodup := by
    intro entries strict
    refine strict.imp ?_
    intro a b before same
    rw [same] at before
    exact absurd before (Nat.lt_irrefl _)
  have members : (ownEntries id (sortEntries history)).Perm
      ((List.range' 1 (maxRound history)).filterMap (ownEntry history id)) := by
    refine (List.perm_ext_iff_of_nodup (distinct left) (distinct right)).mpr fun entry => ?_
    rw [ownEntries, List.mem_filter, mem_sortEntries, List.mem_filterMap, decide_eq_true_eq]
    constructor
    · intro own
      have least := once.numbered entry own.1
      have most := le_maxRound history entry own.1
      refine ⟨entry.roundNumber, by rw [List.mem_range'_1]; omega, ?_⟩
      exact (ownEntry_iff once).mpr ⟨own.1, rfl, own.2⟩
    · intro given
      obtain ⟨round, -, found⟩ := given
      have own := (ownEntry_iff once).mp found
      exact ⟨own.1, own.2.2⟩
  refine members.eq_of_pairwise (fun a b _ _ before after => ?_) left right
  omega

end Order

section Folds

variable (id : PlayerId)

theorem pointsIn_of_absent {entry : PairingHistoryEntry} (absent : id ∉ entryIds entry) :
    pointsIn id entry = 0 := by
  rw [pointsIn, gameOf, sideOf_none absent]
  rfl

theorem add_points (record : Record) (entry : PairingHistoryEntry) :
    (Record.add id record entry).points = record.points + pointsIn id entry := by
  have kept : ∀ side, (record.meet entry side).points = record.points := by
    intro side
    unfold Record.meet
    split
    · split
      · rfl
      · rfl
    · dsimp only
      split
      · rfl
      · rfl
  unfold Record.add pointsIn gameOf
  cases here : sideOf entry id with
  | none => simp
  | some side =>
      dsimp only [Option.bind_some]
      cases outcome : outcomeFor entry.result side with
      | none => simp [kept]
      | some outcome => simp [kept, Record.score, gameRecord]

theorem recordOf_points (entries : List PairingHistoryEntry) :
    (recordOf entries id).points = (entries.map (pointsIn id)).sum := by
  have fold : ∀ (record : Record), (entries.foldl (Record.add id) record).points =
      record.points + (entries.map (pointsIn id)).sum := by
    induction entries with
    | nil => simp
    | cons entry entries ih =>
        intro record
        rw [List.foldl_cons, ih, add_points, List.map_cons, List.sum_cons, add_assoc]
  rw [recordOf, fold, zero_add]

theorem games_points (entries : List PairingHistoryEntry) :
    ((entries.filterMap (gameOf id)).map GameRecord.result).sum =
      (entries.map (pointsIn id)).sum := by
  induction entries with
  | nil => rfl
  | cons entry entries ih =>
      rw [List.map_cons, List.sum_cons, ← ih]
      cases played : gameOf id entry with
      | none => simp [pointsIn, played]
      | some game => simp [pointsIn, played]

/-- The standings give as many points as the pairing does. -/
theorem points_agree (entries : List PairingHistoryEntry) :
    (recordOf entries id).points = (buildScoreView entries id).points := by
  rw [recordOf_points, buildScoreView_points, buildScoreView_games, games_points]

theorem add_registrationId (view : ParticipantScoreView) (entry : PairingHistoryEntry) :
    (view.add entry).registrationId = view.registrationId := by
  rcases add_cases view entry with none | some
  · rw [none.2]
  · obtain ⟨side, outcome, -, -, scored⟩ := some
    rw [scored]
    rfl

theorem buildScoreView_colors (entries : List PairingHistoryEntry) :
    (buildScoreView entries id).colorHistory.map Side.color = colorsOf id entries := by
  have fold : ∀ (view : ParticipantScoreView), view.registrationId = id →
      (entries.foldl ParticipantScoreView.add view).colorHistory.map Side.color =
        view.colorHistory.map Side.color ++ colorsOf id entries := by
    induction entries with
    | nil => simp [colorsOf]
    | cons entry entries ih =>
        intro view named
        have same : (view.add entry).registrationId = id :=
          (add_registrationId view entry).trans named
        have added : (view.add entry).colorHistory.map Side.color =
            view.colorHistory.map Side.color ++ (colorOf id entry).toList := by
          unfold ParticipantScoreView.add colorOf
          rw [named]
          cases sideOf entry id with
          | none => simp
          | some side =>
              dsimp only [Option.bind_some]
              cases outcomeFor entry.result side with
              | none => simp
              | some outcome =>
                  dsimp only [Option.bind_some, ParticipantScoreView.score]
                  split
                  · simp
                  · simp
        rw [List.foldl_cons, ih _ same, added, List.append_assoc]
        congr 1
        unfold colorsOf
        cases here : colorOf id entry with
        | none => rw [List.filterMap_cons_none here]; rfl
        | some color => rw [List.filterMap_cons_some here]; rfl
  exact fold ⟨id, 0, 0, 0, 0, [], []⟩ rfl

/-- Entries without the player change nothing. -/
theorem foldl_ownEntries {β : Type} (step : β → PairingHistoryEntry → β)
    (idle : ∀ b entry, id ∉ entryIds entry → step b entry = b)
    (entries : List PairingHistoryEntry) (b : β) :
    entries.foldl step b = (ownEntries id entries).foldl step b := by
  induction entries generalizing b with
  | nil => rfl
  | cons entry entries ih =>
      by_cases own : id ∈ entryIds entry
      · have kept : ownEntries id (entry :: entries) = entry :: ownEntries id entries := by
          simp [ownEntries, own]
        rw [kept, List.foldl_cons, List.foldl_cons, ih]
      · have left : ownEntries id (entry :: entries) = ownEntries id entries := by
          simp [ownEntries, own]
        rw [left, List.foldl_cons, idle b entry own, ih]

theorem recordOf_own (entries : List PairingHistoryEntry) :
    recordOf entries id = recordOf (ownEntries id entries) id := by
  refine foldl_ownEntries id _ (fun record entry absent => ?_) entries _
  rw [Record.add, sideOf_none absent]

theorem buildScoreView_own (entries : List PairingHistoryEntry) :
    buildScoreView entries id = buildScoreView (ownEntries id entries) id := by
  have fold : ∀ (view : ParticipantScoreView), view.registrationId = id →
      entries.foldl ParticipantScoreView.add view =
        (ownEntries id entries).foldl ParticipantScoreView.add view := by
    induction entries with
    | nil => exact fun view _ => rfl
    | cons entry entries ih =>
        intro view named
        by_cases own : id ∈ entryIds entry
        · have kept : ownEntries id (entry :: entries) = entry :: ownEntries id entries := by
            simp [ownEntries, own]
          have same : (view.add entry).registrationId = id :=
            (add_registrationId view entry).trans named
          rw [kept, List.foldl_cons, List.foldl_cons, ih _ same]
        · have left : ownEntries id (entry :: entries) = ownEntries id entries := by
            simp [ownEntries, own]
          have idle : view.add entry = view := by
            rw [ParticipantScoreView.add, named, sideOf_none own]
          rw [left, List.foldl_cons, idle, ih view named]
  exact fold ⟨id, 0, 0, 0, 0, [], []⟩ rfl

end Folds

section Floats

/-- The points of the standings over the rounds before a round. -/
def pointsBefore (history : List PairingHistoryEntry) (round : Nat) (id : PlayerId) : Rat :=
  (buildScoreView (sortEntries (history.filter fun entry => decide (entry.roundNumber < round)))
    id).points

/-- The last of some floats that is for the player, or else the one before them. -/
def lastFloat (id : PlayerId) (start : FloatDirection)
    (floats : List (PlayerId × FloatDirection)) : FloatDirection :=
  floats.foldl (fun found float => if float.1 = id then float.2 else found) start

/-- The float of a player from its own entry of a round and the points before the round. -/
def ownFloat (pointsOf : PlayerId → Rat) (id : PlayerId) :
    Option PairingHistoryEntry → FloatDirection
  | none => .none
  | some entry => lastFloat id .none (floatsOf pointsOf entry)

theorem floatsOf_ids {pointsOf : PlayerId → Rat} {entry : PairingHistoryEntry}
    {float : PlayerId × FloatDirection} (set : float ∈ floatsOf pointsOf entry) :
    float.1 ∈ entryIds entry := by
  have white : entry.whiteRegistrationId ∈ entryIds entry := List.mem_cons_self
  unfold floatsOf at set
  cases opponent : entry.blackRegistrationId with
  | none =>
      rw [opponent] at set
      dsimp only at set
      split at set
      · rw [List.mem_singleton.mp set]
        exact white
      · cases set
  | some black =>
      have other : black ∈ entryIds entry := by
        rw [entryIds, opponent]
        exact List.mem_cons_of_mem _ List.mem_cons_self
      rw [opponent] at set
      grind

theorem lastFloat_absent {id : PlayerId} {floats : List (PlayerId × FloatDirection)}
    (absent : ∀ float ∈ floats, float.1 ≠ id) (start : FloatDirection) :
    lastFloat id start floats = start := by
  induction floats generalizing start with
  | nil => rfl
  | cons float floats ih =>
      rw [lastFloat, List.foldl_cons, if_neg (absent float List.mem_cons_self)]
      exact ih (fun other listed => absent other (List.mem_cons_of_mem _ listed)) start

/-- Among entries without a common player only the player's own one sets its float. -/
theorem lastFloat_entries (pointsOf : PlayerId → Rat) (id : PlayerId)
    (entries : List PairingHistoryEntry)
    (apart : entries.Pairwise fun a b => (entryIds a).Disjoint (entryIds b)) :
    lastFloat id .none (entries.flatMap (floatsOf pointsOf)) =
      ownFloat pointsOf id (entries.find? fun entry => decide (id ∈ entryIds entry)) := by
  induction entries with
  | nil => rfl
  | cons entry entries ih =>
      obtain ⟨first, rest⟩ := List.pairwise_cons.mp apart
      rw [List.flatMap_cons, lastFloat, List.foldl_append]
      by_cases own : id ∈ entryIds entry
      · have later : ∀ float ∈ entries.flatMap (floatsOf pointsOf), float.1 ≠ id := by
          intro float set same
          obtain ⟨other, listed, inside⟩ := List.mem_flatMap.mp set
          have there := floatsOf_ids inside
          rw [same] at there
          exact first other listed own there
        rw [List.find?_cons_of_pos (by simpa using own)]
        exact lastFloat_absent later _
      · have unset : ∀ float ∈ floatsOf pointsOf entry, float.1 ≠ id := by
          intro float set same
          have there := floatsOf_ids set
          rw [same] at there
          exact own there
        rw [List.find?_cons_of_neg (by simpa using own)]
        have skipped := lastFloat_absent unset .none
        rw [lastFloat] at skipped
        rw [skipped]
        exact ih rest

/-- The points that a side gets; without an outcome there are none. -/
def scoreFor (outcome : Option SideOutcome) : Rat := (outcome.map SideOutcome.score).getD 0

theorem pointsIn_of_side {id : PlayerId} {entry : PairingHistoryEntry} {side : Side}
    (here : sideOf entry id = some side) :
    pointsIn id entry = scoreFor (outcomeFor entry.result side) := by
  rw [pointsIn, gameOf, here, Option.bind_some, Option.map_map, scoreFor]
  rfl

theorem addSide_apply (pointsOf : PlayerId → Rat) (own id : PlayerId)
    (outcome : Option SideOutcome) :
    (match outcome with
      | some outcome => addPoints pointsOf own outcome.score
      | none => pointsOf) id = pointsOf id + if id = own then scoreFor outcome else 0 := by
  cases outcome with
  | none => simp [scoreFor]
  | some outcome =>
      by_cases same : id = own
      · simp [addPoints, scoreFor, same]
      · simp [addPoints, same]

/-- One entry of two different players adds to each what it gives to that player. -/
theorem addEntry_apply {entry : PairingHistoryEntry}
    (apart : entry.blackRegistrationId ≠ some entry.whiteRegistrationId)
    (pointsOf : PlayerId → Rat) (id : PlayerId) :
    addEntry pointsOf entry id = pointsOf id + pointsIn id entry := by
  have white := addSide_apply pointsOf entry.whiteRegistrationId id
    (outcomeFor entry.result .white)
  by_cases own : id = entry.whiteRegistrationId
  · have here : sideOf entry id = some .white := if_pos own.symm
    rw [if_pos own, ← pointsIn_of_side here] at white
    rw [← white, addEntry]
    cases opponent : entry.blackRegistrationId with
    | none => rfl
    | some black =>
        have other : id ≠ black := by
          intro same
          rw [opponent, ← same, own] at apart
          exact apart rfl
        cases outcomeFor entry.result .black with
        | none => rfl
        | some outcome => exact if_neg other
  · rw [if_neg own, add_zero] at white
    rw [addEntry]
    cases opponent : entry.blackRegistrationId with
    | none =>
        have absent : id ∉ entryIds entry := by simp [entryIds, opponent, own]
        rw [pointsIn_of_absent id absent, add_zero]
        exact white
    | some black =>
        have second := addSide_apply (match outcomeFor entry.result .white with
          | some outcome => addPoints pointsOf entry.whiteRegistrationId outcome.score
          | none => pointsOf) black id (outcomeFor entry.result .black)
        rw [white] at second
        have score : (if id = black then scoreFor (outcomeFor entry.result .black) else 0) =
            pointsIn id entry := by
          by_cases side : id = black
          · have here : sideOf entry id = some .black := by
              rw [sideOf, if_neg (Ne.symm own), if_pos (by rw [opponent, side])]
            rw [if_pos side, pointsIn_of_side here]
          · have absent : id ∉ entryIds entry := by simp [entryIds, opponent, own, side]
            rw [if_neg side, pointsIn_of_absent id absent]
        rw [score] at second
        rw [← second]
        cases outcomeFor entry.result .black <;> rfl

theorem addEntries_apply (entries : List PairingHistoryEntry)
    (apart : ∀ entry ∈ entries, entry.blackRegistrationId ≠ some entry.whiteRegistrationId)
    (pointsOf : PlayerId → Rat) (id : PlayerId) :
    entries.foldl addEntry pointsOf id = pointsOf id + (entries.map (pointsIn id)).sum := by
  induction entries generalizing pointsOf with
  | nil => simp
  | cons entry entries ih =>
      rw [List.foldl_cons, ih (fun other listed => apart other (List.mem_cons_of_mem _ listed)),
        addEntry_apply (apart entry List.mem_cons_self), List.map_cons, List.sum_cons, add_assoc]

theorem sum_filter_succ (id : PlayerId) (entries : List PairingHistoryEntry) (round : Nat) :
    ((entries.filter fun entry => decide (entry.roundNumber < round + 1)).map
        (pointsIn id)).sum =
      ((entries.filter fun entry => decide (entry.roundNumber < round)).map (pointsIn id)).sum +
        ((entriesOf entries round).map (pointsIn id)).sum := by
  induction entries with
  | nil => simp [entriesOf]
  | cons entry entries ih =>
      rw [entriesOf] at ih ⊢
      rcases Nat.lt_trichotomy entry.roundNumber round with before | now | after
      · have notNow : entry.roundNumber ≠ round := by omega
        have early : entry.roundNumber < round + 1 := by omega
        simp only [List.filter_cons, before, early, notNow, decide_true, decide_false, if_true,
          List.map_cons, List.sum_cons, ih, Bool.false_eq_true, if_false]
        ring
      · have notBefore : ¬ entry.roundNumber < round := by omega
        have early : entry.roundNumber < round + 1 := by omega
        simp only [List.filter_cons, notBefore, early, decide_true, decide_false, if_true,
          List.map_cons, List.sum_cons, ih, Bool.false_eq_true, if_false, decide_eq_true now]
        ring
      · have notBefore : ¬ entry.roundNumber < round := by omega
        have notNow : entry.roundNumber ≠ round := by omega
        have late : ¬ entry.roundNumber < round + 1 := by omega
        simp only [List.filter_cons, notBefore, notNow, late, decide_false, ih,
          Bool.false_eq_true, if_false]

/-- The points that the first pass keeps are those of the entries before the round. -/
theorem runningPoints_sum {sorted : List PairingHistoryEntry} (once : OncePerRound sorted)
    (id : PlayerId) (round : Nat) : runningPoints sorted round id =
      ((sorted.filter fun entry => decide (entry.roundNumber < round)).map (pointsIn id)).sum := by
  match round with
  | 0 => simp [runningPoints]
  | 1 =>
      have none : (sorted.filter fun entry => decide (entry.roundNumber < 1)) = [] := by
        refine List.filter_eq_nil_iff.mpr fun entry listed => ?_
        have numbered := once.numbered entry listed
        simp only [decide_eq_true_eq]
        omega
      rw [none]
      rfl
  | round + 2 =>
      have before := runningPoints_sum once id (round + 1)
      have apart : ∀ entry ∈ entriesOf sorted (round + 1),
          entry.blackRegistrationId ≠ some entry.whiteRegistrationId :=
        fun entry listed => once.apart entry (List.mem_of_mem_filter listed)
      rw [sum_filter_succ, runningPoints, addEntries_apply _ apart, before]

theorem pointsBefore_sum (history : List PairingHistoryEntry) (round : Nat) (id : PlayerId) :
    pointsBefore history round id =
      ((history.filter fun entry => decide (entry.roundNumber < round)).map
        (pointsIn id)).sum := by
  rw [pointsBefore, ← points_agree, recordOf_points]
  exact ((sortEntries_perm _).map _).sum_eq

/-- The first pass compares the points that the standings give over the rounds before. -/
theorem runningPoints_before {history : List PairingHistoryEntry} (once : OncePerRound history)
    (round : Nat) : runningPoints (sortEntries history) round = pointsBefore history round := by
  funext id
  rw [runningPoints_sum once.sorted, pointsBefore_sum]
  exact (((sortEntries_perm _).filter _).map _).sum_eq

theorem floatIn_own {history : List PairingHistoryEntry} (once : OncePerRound history)
    (round : Nat) (id : PlayerId) : floatIn (sortEntries history) round id =
      ownFloat (pointsBefore history round) id (ownEntry history id round) := by
  have apart : (entriesOf (sortEntries history) round).Pairwise
      fun a b => (entryIds a).Disjoint (entryIds b) := by
    refine (once.sorted.once.filter _).imp_of_mem ?_
    intro a b listedA listedB separate
    have roundA := (List.mem_filter.mp listedA).2
    have roundB := (List.mem_filter.mp listedB).2
    simp only [decide_eq_true_eq] at roundA roundB
    exact separate (roundA.trans roundB.symm)
  have found : (entriesOf (sortEntries history) round).find?
      (fun entry => decide (id ∈ entryIds entry)) = ownEntry history id round := by
    rw [← ownEntry_perm once (sortEntries_perm history), ownEntry, entriesOf,
      List.find?_filter]
    simp only [decide_eq_true_eq]
  rw [← found, ← runningPoints_before once]
  exact lastFloat_entries _ id _ apart

theorem floatHistory_own {history : List PairingHistoryEntry} (once : OncePerRound history)
    (id : PlayerId) : floatHistory (sortEntries history) id =
      (List.range' 1 (maxRound history)).map fun round =>
        ownFloat (pointsBefore history round) id (ownEntry history id round) := by
  rw [floatHistory, maxRound_perm (sortEntries_perm history)]
  exact List.map_congr_left fun round _ => floatIn_own once round id

end Floats

section Readings

/-- The entry pairs the two players, whatever its result. -/
def Opposes (entry : PairingHistoryEntry) (p q : PlayerId) : Prop :=
  (entry.whiteRegistrationId = p ∧ entry.blackRegistrationId = some q) ∨
    (entry.whiteRegistrationId = q ∧ entry.blackRegistrationId = some p)

theorem opponentOf_iff {p q : PlayerId} {entry : PairingHistoryEntry}
    (apart : entry.blackRegistrationId ≠ some entry.whiteRegistrationId) :
    opponentOf p entry = some q ↔ Opposes entry p q := by
  unfold opponentOf sideOf Opposes
  cases opponent : entry.blackRegistrationId with
  | none =>
      by_cases white : entry.whiteRegistrationId = p
      · simp [white]
      · simp [white]
  | some black =>
      rw [opponent] at apart
      by_cases white : entry.whiteRegistrationId = p
      · subst white
        have other : black ≠ entry.whiteRegistrationId := fun same => apart (congrArg some same)
        simp [other]
      · by_cases own : black = p
        · subst own
          simp [white]
        · simp [white, own]

/-- What the states for the next round and the views of the standings say of one player. -/
structure Reading (history : List PairingHistoryEntry) (state : PlayerPairingState)
    (view : ParticipantScoreView) : Prop where
  player : state.playerId = view.registrationId
  points : state.points = view.points
  rounds : state.floatHistory.length = maxRound history
  floats : state.floatHistory = (List.range' 1 (maxRound history)).map fun round =>
    ownFloat (pointsBefore history round) state.playerId
      (ownEntry history state.playerId round)
  opponents : ∀ other, other ∈ state.opponentIds ↔
    ∃ entry ∈ history, Opposes entry state.playerId other
  stateColors : state.colorHistory = (List.range' 1 (maxRound history)).filterMap fun round =>
    (ownEntry history state.playerId round).bind (colorOf state.playerId)
  viewColors : view.colorHistory.map Side.color = state.colorHistory

theorem colorsOf_own (id : PlayerId) (entries : List PairingHistoryEntry) :
    colorsOf id entries = colorsOf id (ownEntries id entries) := by
  rw [← recordOf_colorHistory, recordOf_own, recordOf_colorHistory]

theorem colorsOf_rounds {history : List PairingHistoryEntry} (once : OncePerRound history)
    (id : PlayerId) : colorsOf id (sortEntries history) =
      (List.range' 1 (maxRound history)).filterMap fun round =>
        (ownEntry history id round).bind (colorOf id) := by
  rw [colorsOf_own, ownEntries_rounds once, colorsOf, List.filterMap_filterMap]

theorem buildPairingState_reading {history : List PairingHistoryEntry}
    (once : OncePerRound history) (participant : ParticipantSeed) :
    Reading history (buildPairingState (sortEntries history) participant)
      (buildScoreView (sortEntries history) participant.registrationId) where
  player := (buildScoreView_registrationId _).symm
  points := points_agree _ _
  rounds := by
    change (floatHistory _ _).length = _
    rw [floatHistory_own once, List.length_map, List.length_range']
  floats := floatHistory_own once _
  opponents other := by
    change other ∈ (recordOf _ _).opponentIds ↔ _
    rw [recordOf_opponentIds]
    constructor
    · intro met
      obtain ⟨entry, listed, opponent⟩ := met
      have stored := mem_sortEntries.mp listed
      exact ⟨entry, stored, (opponentOf_iff (once.apart entry stored)).mp opponent⟩
    · intro met
      obtain ⟨entry, stored, paired⟩ := met
      exact ⟨entry, mem_sortEntries.mpr stored,
        (opponentOf_iff (once.apart entry stored)).mpr paired⟩
  stateColors := (recordOf_colorHistory _ _).trans (colorsOf_rounds once _)
  viewColors := (buildScoreView_colors _ _).trans (recordOf_colorHistory _ _).symm

theorem buildPairingStates_perm {history other : List PairingHistoryEntry}
    (once : OncePerRound history) (same : other.Perm history)
    (participants : List ParticipantSeed) :
    buildPairingStates participants other = buildPairingStates participants history := by
  refine List.map_congr_left fun participant _ => ?_
  have record : recordOf (sortEntries other) participant.registrationId =
      recordOf (sortEntries history) participant.registrationId := by
    rw [recordOf_own, ownEntries_perm once same, ← recordOf_own]
  have before : ∀ round, pointsBefore other round = pointsBefore history round := by
    intro round
    funext id
    rw [pointsBefore_sum, pointsBefore_sum]
    exact ((same.filter _).map _).sum_eq
  have floats : floatHistory (sortEntries other) participant.registrationId =
      floatHistory (sortEntries history) participant.registrationId := by
    rw [floatHistory_own once, floatHistory_own (once.perm same), maxRound_perm same]
    simp only [before, ownEntry_perm once same]
  rw [buildPairingState, buildPairingState, record, floats]

theorem buildScoreViews_perm {history other : List PairingHistoryEntry}
    (once : OncePerRound history) (same : other.Perm history) (ids : List PlayerId) :
    buildScoreViews ids other = buildScoreViews ids history := by
  refine List.map_congr_left fun id _ => ?_
  rw [buildScoreView_own, ownEntries_perm once same, ← buildScoreView_own]

/-- Both readings of one history agree player by player, being an opponent is mutual, and the
order of the entries does not matter. -/
theorem readings_agree {history : List PairingHistoryEntry} (once : OncePerRound history)
    (participants : List ParticipantSeed) :
    let ids := participants.map ParticipantSeed.registrationId
    List.Forall₂ (Reading history) (buildPairingStates participants history)
        (buildScoreViews ids history) ∧
      (∀ p ∈ buildPairingStates participants history,
        ∀ q ∈ buildPairingStates participants history,
          q.playerId ∈ p.opponentIds ↔ p.playerId ∈ q.opponentIds) ∧
      ∀ other : List PairingHistoryEntry, other.Perm history →
        buildPairingStates participants other = buildPairingStates participants history ∧
          buildScoreViews ids other = buildScoreViews ids history := by
  refine ⟨?_, fun p hereP q hereQ => ?_, fun other same =>
    ⟨buildPairingStates_perm once same participants, buildScoreViews_perm once same _⟩⟩
  · rw [buildPairingStates, buildScoreViews, List.map_map]
    refine List.forall₂_map_left_iff.mpr (List.forall₂_map_right_iff.mpr ?_)
    exact List.forall₂_same.mpr fun participant _ => buildPairingState_reading once participant
  · rw [(buildPairingStates_state hereP).opponents, (buildPairingStates_state hereQ).opponents]
    constructor
    · intro met
      obtain ⟨entry, listed, opponent⟩ := met
      exact ⟨entry, listed, opponentOf_symm opponent⟩
    · intro met
      obtain ⟨entry, listed, opponent⟩ := met
      exact ⟨entry, listed, opponentOf_symm opponent⟩

/-- Two rounds of three players: a game and a full-point bye, then a forfeit with one player
absent. -/
def forfeitHistory : List PairingHistoryEntry :=
  [⟨2, 3, some 1, .blackWinForfeit⟩, ⟨1, 1, some 2, .draw⟩, ⟨1, 3, none, .byeFull⟩]

theorem forfeitHistory_once : OncePerRound forfeitHistory where
  numbered := by decide
  apart := by decide
  once := by simp [forfeitHistory, Separate, entryIds]

theorem readings_agree_forfeit :
    let participants : List ParticipantSeed :=
      [⟨1, 1, false, none⟩, ⟨2, 2, false, none⟩, ⟨3, 3, false, none⟩]
    let ids := participants.map ParticipantSeed.registrationId
    List.Forall₂ (Reading forfeitHistory) (buildPairingStates participants forfeitHistory)
        (buildScoreViews ids forfeitHistory) ∧
      (∀ p ∈ buildPairingStates participants forfeitHistory,
        ∀ q ∈ buildPairingStates participants forfeitHistory,
          q.playerId ∈ p.opponentIds ↔ p.playerId ∈ q.opponentIds) ∧
      ∀ other : List PairingHistoryEntry, other.Perm forfeitHistory →
        buildPairingStates participants other = buildPairingStates participants forfeitHistory ∧
          buildScoreViews ids other = buildScoreViews ids forfeitHistory :=
  readings_agree forfeitHistory_once _

end Readings

end Farzin.Arbiter
