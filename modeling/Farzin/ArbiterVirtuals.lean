import Farzin.ArbiterReadings
import Mathlib.Order.Interval.Finset.Nat

set_option autoImplicit false

/- The virtual opponents of unplayed rounds (`buchholzContributions2` of
`core/tiebreak/tiebreak.calculator.ts`). The calculator counts the games of a player where the
rule counts rounds, and rounds without a result leave no game. -/
namespace Farzin.Arbiter

open TieBreak (GameRecord PlayerTieBreakInput TieBreakContext result2 metOpponent)

section Contributions

variable (ctx : TieBreakContext)

@[simp] theorem contributionsFrom_length (before2 : Rat) (round : Nat) (games : List GameRecord) :
    (ctx.contributionsFrom before2 round games).length = games.length := by
  induction games generalizing before2 round with
  | nil => rfl
  | cons game games ih => rw [TieBreakContext.contributionsFrom, List.length_cons, ih,
      List.length_cons]

/-- What an unplayed game contributes, from the games before it. -/
theorem contributionsFrom_unplayed (before2 : Rat) (round index : Nat) (games : List GameRecord)
    {game : GameRecord} (found : games[index]? = some game) (unplayed : metOpponent game = none) :
    (ctx.contributionsFrom before2 round games)[index]? =
      some (before2 + 2 * ((games.take index).map GameRecord.result).sum + (2 - result2 game) +
        ((ctx.totalRounds : Rat) - (round + index : Nat))) := by
  induction games generalizing before2 round index with
  | nil => cases found
  | cons first games ih =>
      rw [TieBreakContext.contributionsFrom]
      cases index with
      | zero =>
          rw [List.getElem?_cons_zero] at found ⊢
          cases found
          simp [unplayed]
      | succ index =>
          rw [List.getElem?_cons_succ] at found ⊢
          rw [ih _ _ _ found]
          simp only [List.take_succ_cons, List.map_cons, List.sum_cons, result2, Option.some.injEq]
          push_cast
          ring

end Contributions

section Positions

/-- The entries of a player that its games come from, in the order of the rounds. -/
def countedEntries (id : PlayerId) (history : List PairingHistoryEntry) :
    List PairingHistoryEntry :=
  (sortEntries history).filter fun entry => (gameOf id entry).isSome

/-- The score that Buchholz uses for an entry of a player. -/
def scoreUsed (ctx : TieBreakContext) (history : List PairingHistoryEntry)
    (p : PlayerTieBreakInput) (entry : PairingHistoryEntry) : Option Rat :=
  (((countedEntries p.playerId history).zip (ctx.buchholzContributions2 p)).lookup entry).map
    (· / 2)

/-- The rule: the points before the round, the opposite result, and a draw in every round from
there to the end. -/
def virtualScore (rounds : Nat) (history : List PairingHistoryEntry) (id : PlayerId)
    (entry : PairingHistoryEntry) (game : GameRecord) : Rat :=
  pointsBefore history entry.roundNumber id + (1 - game.result) +
    1 / 2 * ((rounds : Rat) - entry.roundNumber)

variable {history : List PairingHistoryEntry}

theorem gameOf_mem {id : PlayerId} {entry : PairingHistoryEntry}
    (played : (gameOf id entry).isSome) : id ∈ entryIds entry := by
  by_contra absent
  rw [gameOf, sideOf_none absent] at played
  cases played

theorem mem_countedEntries {id : PlayerId} {entry : PairingHistoryEntry} :
    entry ∈ countedEntries id history ↔ entry ∈ history ∧ (gameOf id entry).isSome := by
  rw [countedEntries, List.mem_filter, mem_sortEntries]

theorem countedEntries_strict (once : OncePerRound history) (id : PlayerId) :
    (countedEntries id history).Pairwise fun a b => a.roundNumber < b.roundNumber := by
  have same : countedEntries id history =
      (ownEntries id (sortEntries history)).filter fun entry => (gameOf id entry).isSome := by
    rw [countedEntries, ownEntries, List.filter_filter]
    refine List.filter_congr fun entry _ => ?_
    cases played : (gameOf id entry).isSome with
    | false => rfl
    | true => simp [gameOf_mem played]
  rw [same]
  exact (ownEntries_strict once id).filter _

theorem countedEntries_games (id : PlayerId) (history : List PairingHistoryEntry) :
    (buildScoreView (sortEntries history) id).games =
      (countedEntries id history).filterMap (gameOf id) := by
  rw [buildScoreView_games, countedEntries, List.filterMap_filter]
  refine List.filterMap_congr fun entry _ => ?_
  cases gameOf id entry with
  | none => rfl
  | some game => rfl

/-- In a list in the order of the rounds, the entries in front of one are those of the rounds
before it. -/
theorem take_strict {entries : List PairingHistoryEntry}
    (strict : entries.Pairwise fun a b => a.roundNumber < b.roundNumber) {index : Nat}
    {entry : PairingHistoryEntry} (found : entries[index]? = some entry) :
    entries.take index =
      entries.filter fun other => decide (other.roundNumber < entry.roundNumber) := by
  induction entries generalizing index with
  | nil => cases found
  | cons first entries ih =>
      obtain ⟨before, rest⟩ := List.pairwise_cons.mp strict
      cases index with
      | zero =>
          rw [List.getElem?_cons_zero] at found
          cases found
          have none : ((entry :: entries).filter fun other =>
              decide (other.roundNumber < entry.roundNumber)) = [] := by
            refine List.filter_eq_nil_iff.mpr fun other listed => ?_
            simp only [decide_eq_true_eq]
            rcases List.mem_cons.mp listed with same | later
            · rw [same]
              exact Nat.lt_irrefl _
            · have after := before other later
              omega
          rw [none, List.take_zero]
      | succ index =>
          rw [List.getElem?_cons_succ] at found
          have early := before entry (List.mem_of_getElem? found)
          rw [List.take_succ_cons, ih rest found, List.filter_cons_of_pos (by simpa using early)]

theorem lookup_zip {entries : List PairingHistoryEntry} (distinct : entries.Nodup)
    {values : List Rat} {index : Nat} {entry : PairingHistoryEntry}
    (found : entries[index]? = some entry) :
    (entries.zip values).lookup entry = values[index]? := by
  induction entries generalizing values index with
  | nil => cases found
  | cons first entries ih =>
      obtain ⟨absent, rest⟩ := List.nodup_cons.mp distinct
      cases values with
      | nil => simp
      | cons value values =>
          rw [List.zip_cons_cons, List.lookup_cons]
          cases index with
          | zero =>
              rw [List.getElem?_cons_zero] at found
              cases found
              simp
          | succ index =>
              rw [List.getElem?_cons_succ] at found
              have different : entry ≠ first := by
                intro same
                rw [← same] at absent
                exact absent (List.mem_of_getElem? found)
              rw [beq_false_of_ne different, List.getElem?_cons_succ]
              exact ih rest found

/-- As many entries before a round as there are rounds before it: one in each of them. -/
theorem counted_before_iff (once : OncePerRound history) (id : PlayerId) {round : Nat}
    (first : 1 ≤ round) :
    ((countedEntries id history).filter fun entry =>
        decide (entry.roundNumber < round)).length + 1 = round ↔
      ∀ earlier, 1 ≤ earlier → earlier < round →
        ∃ entry ∈ history, entry.roundNumber = earlier ∧ (gameOf id entry).isSome := by
  let before := (countedEntries id history).filter fun entry =>
    decide (entry.roundNumber < round)
  let rounds := (before.map PairingHistoryEntry.roundNumber).toFinset
  have distinct : (before.map PairingHistoryEntry.roundNumber).Nodup := by
    refine List.pairwise_map.mpr (((countedEntries_strict once id).filter _).imp ?_)
    intro a b less
    exact Nat.ne_of_lt less
  have card : rounds.card = before.length := by
    rw [List.toFinset_card_of_nodup distinct, List.length_map]
  have mem : ∀ number, number ∈ rounds ↔
      ∃ entry ∈ history, entry.roundNumber = number ∧ (gameOf id entry).isSome ∧
        number < round := by
    intro number
    rw [List.mem_toFinset, List.mem_map]
    constructor
    · intro given
      obtain ⟨entry, listed, same⟩ := given
      obtain ⟨counted, less⟩ := List.mem_filter.mp listed
      obtain ⟨stored, played⟩ := mem_countedEntries.mp counted
      simp only [decide_eq_true_eq] at less
      exact ⟨entry, stored, same, played, same ▸ less⟩
    · intro given
      obtain ⟨entry, stored, same, played, less⟩ := given
      refine ⟨entry, List.mem_filter.mpr ⟨mem_countedEntries.mpr ⟨stored, played⟩, ?_⟩, same⟩
      simpa [same] using less
  have inside : rounds ⊆ Finset.Ico 1 round := by
    intro number listed
    obtain ⟨entry, stored, same, -, less⟩ := (mem number).mp listed
    have least := once.numbered entry stored
    rw [Finset.mem_Ico]
    omega
  constructor
  · intro full earlier least less
    have all : rounds = Finset.Ico 1 round := by
      refine Finset.eq_of_subset_of_card_le inside ?_
      rw [card, Nat.card_Ico]
      change before.length + 1 = round at full
      omega
    have there : earlier ∈ rounds := by
      rw [all, Finset.mem_Ico]
      exact ⟨least, less⟩
    obtain ⟨entry, stored, same, played, -⟩ := (mem earlier).mp there
    exact ⟨entry, stored, same, played⟩
  · intro each
    have all : rounds = Finset.Ico 1 round := by
      refine Finset.Subset.antisymm inside fun number listed => ?_
      obtain ⟨least, less⟩ := Finset.mem_Ico.mp listed
      obtain ⟨entry, stored, same, played⟩ := each number least less
      exact (mem number).mpr ⟨entry, stored, same, played, less⟩
    have count := card
    rw [all, Nat.card_Ico] at count
    change before.length + 1 = round
    omega

/-- Entries that all have a game keep their places in the list of the games. -/
theorem games_at {id : PlayerId} {entries : List PairingHistoryEntry}
    (all : ∀ entry ∈ entries, (gameOf id entry).isSome) (index : Nat) :
    (entries.filterMap (gameOf id))[index]? = entries[index]?.bind (gameOf id) ∧
      (entries.filterMap (gameOf id)).take index =
        (entries.take index).filterMap (gameOf id) := by
  induction entries generalizing index with
  | nil => simp
  | cons first entries ih =>
      have rest := ih fun entry listed => all entry (List.mem_cons_of_mem _ listed)
      obtain ⟨game, played⟩ := Option.isSome_iff_exists.mp (all first List.mem_cons_self)
      rw [List.filterMap_cons_some played]
      cases index with
      | zero => simp [played]
      | succ index =>
          rw [List.getElem?_cons_succ, List.getElem?_cons_succ, List.take_succ_cons,
            List.take_succ_cons, List.filterMap_cons_some played, (rest index).2]
          exact ⟨(rest index).1, rfl⟩

theorem pointsBefore_counted (history : List PairingHistoryEntry) (id : PlayerId) (round : Nat) :
    (((countedEntries id history).filter fun entry => decide (entry.roundNumber < round)).map
      (pointsIn id)).sum = pointsBefore history round id := by
  have counted : ∀ entries : List PairingHistoryEntry,
      ((entries.filter fun entry => (gameOf id entry).isSome).map (pointsIn id)).sum =
        (entries.map (pointsIn id)).sum := by
    intro entries
    induction entries with
    | nil => rfl
    | cons entry entries ih =>
        cases played : gameOf id entry with
        | none => simp [played, ih, pointsIn]
        | some game => simp [played, ih]
  rw [pointsBefore_sum, countedEntries, List.filter_comm, counted]
  exact (((sortEntries_perm history).filter _).map _).sum_eq

/-- The score used for an unplayed round counts the games up to it where the rule counts the
rounds. -/
theorem scoreUsed_eq (once : OncePerRound history) (ctx : TieBreakContext)
    (p : PlayerTieBreakInput)
    (games : p.games = (buildScoreView (sortEntries history) p.playerId).games)
    {entry : PairingHistoryEntry} {game : GameRecord} (listed : entry ∈ history)
    (found : gameOf p.playerId entry = some game) (unplayed : game.playedOverBoard = false) :
    scoreUsed ctx history p entry = some (pointsBefore history entry.roundNumber p.playerId +
      (1 - game.result) + 1 / 2 * ((ctx.totalRounds : Rat) -
        (((countedEntries p.playerId history).filter fun other =>
          decide (other.roundNumber < entry.roundNumber)).length + 1 : Nat))) := by
  have strict := countedEntries_strict once p.playerId
  have distinct : (countedEntries p.playerId history).Nodup := by
    refine strict.imp ?_
    intro a b less same
    rw [same] at less
    exact absurd less (Nat.lt_irrefl _)
  have all : ∀ entry ∈ countedEntries p.playerId history, (gameOf p.playerId entry).isSome :=
    fun entry counted => (mem_countedEntries.mp counted).2
  have member : entry ∈ countedEntries p.playerId history :=
    mem_countedEntries.mpr ⟨listed, by rw [found]; rfl⟩
  obtain ⟨index, here⟩ := List.getElem?_of_mem member
  obtain ⟨there, taken⟩ := games_at all index
  have virtual : metOpponent game = none := by
    rw [metOpponent, unplayed]
    rfl
  rw [← countedEntries_games, ← games, here, Option.bind_some, found] at there
  rw [← countedEntries_games, ← games] at taken
  have value := contributionsFrom_unplayed ctx 0 1 index p.games there virtual
  have front := take_strict strict here
  have bound : index ≤ (countedEntries p.playerId history).length :=
    (List.getElem?_eq_some_iff.mp here).1.le
  have length : ((countedEntries p.playerId history).filter fun other =>
      decide (other.roundNumber < entry.roundNumber)).length = index := by
    rw [← front, List.length_take, Nat.min_eq_left bound]
  rw [scoreUsed, lookup_zip distinct here, TieBreakContext.buchholzContributions2, value, taken,
    games_points, front, pointsBefore_counted, length, Option.map_some, result2]
  congr 1
  push_cast
  ring

end Positions

section Rule

variable {participants : List Registration} {history : List PairingHistoryEntry}
  {ctx : TieBreakContext}

/-- The inputs of the calculator, one for each participant. -/
def inputsOf (participants : List Registration) (history : List PairingHistoryEntry) :
    List PlayerTieBreakInput :=
  (buildScoreViews (participants.map Registration.id) history).map (tieBreakInput participants)

theorem inputsOf_games {p : PlayerTieBreakInput} (listed : p ∈ inputsOf participants history) :
    p.games = (buildScoreView (sortEntries history) p.playerId).games := by
  obtain ⟨view, viewed, rfl⟩ := List.mem_map.mp listed
  obtain ⟨id, -, rfl⟩ := List.mem_map.mp viewed
  change _ = (buildScoreView _ (buildScoreView _ id).registrationId).games
  rw [buildScoreView_registrationId]
  rfl

/-- The length of the longest list of games. -/
def longest (players : List PlayerTieBreakInput) : Nat :=
  (players.map fun p => p.games.length).foldr max 0

theorem foldl_longest (players : List PlayerTieBreakInput) (least : Nat) :
    players.foldl (fun rounds p => max rounds p.games.length) least =
      max least (longest players) := by
  induction players generalizing least with
  | nil => exact (Nat.max_zero least).symm
  | cons p players ih =>
      rw [List.foldl_cons, ih]
      simp [longest, Nat.max_assoc]

theorem buildContext_totalRounds {players : List PlayerTieBreakInput}
    (built : TieBreak.buildContext players = .ok ctx) : ctx.totalRounds = longest players := by
  obtain ⟨points2, -, after⟩ := Checked.bind_ok built
  obtain ⟨done, -, last⟩ := Checked.bind_ok after
  have same := Except.ok.inj last
  rw [← same]
  exact (foldl_longest players 0).trans (Nat.zero_max _)

/-- The virtual opponent of an unplayed round has the score of the rule exactly when every
round before it counts a result of the player. -/
theorem virtualScore_iff (once : OncePerRound history)
    (built : TieBreak.buildContext (inputsOf participants history) = .ok ctx)
    {p : PlayerTieBreakInput} (member : p ∈ inputsOf participants history)
    {entry : PairingHistoryEntry} {game : GameRecord} (listed : entry ∈ history)
    (found : gameOf p.playerId entry = some game) (unplayed : game.playedOverBoard = false) :
    scoreUsed ctx history p entry =
        some (virtualScore (longest (inputsOf participants history)) history p.playerId entry
          game) ↔
      ∀ earlier, 1 ≤ earlier → earlier < entry.roundNumber →
        ∃ other ∈ history, other.roundNumber = earlier ∧ (gameOf p.playerId other).isSome := by
  have used := scoreUsed_eq once ctx p (inputsOf_games member) listed found unplayed
  have numbered := once.numbered entry listed
  rw [used, ← buildContext_totalRounds built, ← counted_before_iff once p.playerId numbered,
    virtualScore, Option.some_inj]
  constructor
  · intro same
    have cast : ((((countedEntries p.playerId history).filter fun other =>
        decide (other.roundNumber < entry.roundNumber)).length + 1 : Nat) : Rat) =
          entry.roundNumber := by linarith
    exact_mod_cast cast
  · intro same
    rw [same]

/-- One of two players is absent from the first round and has a bye in the second. -/
def lateBye : PairingHistoryEntry := ⟨2, 1, none, .byeFull⟩

def lateHistory : List PairingHistoryEntry :=
  [⟨1, 2, none, .byeFull⟩, lateBye, ⟨2, 2, none, .byeHalf⟩]

def lateParticipants : List Registration :=
  [⟨1, true, false, some 1, none, 0, some 2⟩, ⟨2, true, false, some 2, none, 0, none⟩]

theorem lateHistory_once : OncePerRound lateHistory where
  numbered := by decide
  apart := by decide
  once := by simp [lateHistory, lateBye, Separate, entryIds]

/-- The player who was absent from the first round. -/
def latePlayer : PlayerTieBreakInput := ⟨1, 1, none, [⟨none, none, 1, false⟩]⟩

def lateContext : TieBreakContext :=
  ⟨inputsOf lateParticipants lateHistory, [(1, 2), (2, 3)], 2⟩

theorem virtualScore_iff_late :
    scoreUsed lateContext lateHistory latePlayer lateBye =
        some (virtualScore (longest (inputsOf lateParticipants lateHistory)) lateHistory 1 lateBye
          ⟨none, none, 1, false⟩) ↔
      ∀ earlier, 1 ≤ earlier → earlier < 2 →
        ∃ other ∈ lateHistory, other.roundNumber = earlier ∧ (gameOf 1 other).isSome :=
  have built : TieBreak.buildContext (inputsOf lateParticipants lateHistory) = .ok lateContext := by
    decide +kernel
  have member : latePlayer ∈ inputsOf lateParticipants lateHistory := by decide +kernel
  virtualScore_iff lateHistory_once built member (by decide) (by decide +kernel) rfl

/-- The bye of the second and last round counts a draw in a round that there is not. -/
theorem lateBye_overcounts :
    TieBreak.buildContext (inputsOf lateParticipants lateHistory) = .ok lateContext ∧
      latePlayer ∈ inputsOf lateParticipants lateHistory ∧ lateBye ∈ lateHistory ∧
      gameOf latePlayer.playerId lateBye = some ⟨none, none, 1, false⟩ ∧
      scoreUsed lateContext lateHistory latePlayer lateBye = some (1 / 2) ∧
      virtualScore (longest (inputsOf lateParticipants lateHistory)) lateHistory
        latePlayer.playerId lateBye ⟨none, none, 1, false⟩ = 0 := by
  decide +kernel

end Rule

end Farzin.Arbiter
