import Farzin.RatingPeriods
import Mathlib.Algebra.BigOperators.Group.List.Basic
import Mathlib.Data.List.Perm.Basic
import Mathlib.Data.List.Sort
import Mathlib.Tactic.Ring

set_option autoImplicit false

/- The computation of a period over ids of any ordered type, with its maps and the warnings of
`clampWarningsFor` (`rating/period-computation.ts`), and what it does not depend on. The texts of
an id and of a number are handed in. -/
namespace Farzin.RatingOrder

open Rating (GameResult Glicko2Calculator MatchOutcome PrePeriodState RatingSnapshot
  defaultPrePeriodState isEstablished roundHalfUp scoreFor)

structure RatedGame (Id : Type) where
  pairingId : Id
  whitePlayerId : Id
  blackPlayerId : Id
  result : GameResult
  deriving DecidableEq, Repr

structure PerPlayerGame (Id : Type) where
  pairingId : Id
  opponentId : Id
  score : Rat
  deriving DecidableEq, Repr

structure InputGameEntry (Id : Type) where
  pairingId : Id
  opponentId : Id
  opponentRating : Rat
  opponentRd : Rat
  score : Rat
  deriving DecidableEq, Repr

structure PlayerPeriodResult (Id : Type) where
  playerId : Id
  before : RatingSnapshot
  after : RatingSnapshot
  gamesInPeriod : Nat
  gamesPlayedTotal : Nat
  isProvisional : Bool
  peakRating : Option Int
  peakChanged : Bool
  inputGames : List (InputGameEntry Id)
  clampWarnings : List String
  deriving DecidableEq, Repr

section Maps

variable {Key Value : Type} [DecidableEq Key]

/-- `Map.get`, on the entries in the order in which their keys came. -/
def get (entries : List (Key × Value)) (key : Key) : Option Value :=
  (entries.find? fun entry => entry.1 = key).map Prod.snd

@[simp] theorem get_nil (key : Key) : get ([] : List (Key × Value)) key = none :=
  rfl

theorem get_cons (entry : Key × Value) (entries : List (Key × Value)) (key : Key) :
    get (entry :: entries) key = if entry.1 = key then some entry.2 else get entries key := by
  unfold get
  rw [List.find?_cons]
  by_cases same : entry.1 = key
  · simp [same]
  · simp [same]

theorem get_concat (entries : List (Key × Value)) (entry : Key × Value) (key : Key) :
    get (entries ++ [entry]) key =
      (get entries key).or (if entry.1 = key then some entry.2 else none) := by
  induction entries with
  | nil => rw [List.nil_append, get_cons, get_nil, Option.none_or]
  | cons first entries ih =>
      rw [List.cons_append, get_cons, get_cons, ih]
      by_cases same : first.1 = key
      · simp [same]
      · simp [same]

theorem get_map_at (entries : List (Key × Value)) (f : Value → Value) (at' key : Key) :
    get (entries.map fun entry => if entry.1 = at' then (entry.1, f entry.2) else entry) key =
      (get entries key).map fun value => if at' = key then f value else value := by
  induction entries with
  | nil => rfl
  | cons entry entries ih =>
      rw [List.map_cons, get_cons, get_cons, ih]
      by_cases here : entry.1 = at'
      · subst here
        by_cases same : entry.1 = key
        · simp [same]
        · simp [same]
      · by_cases same : entry.1 = key
        · subst same
          simp [here, Ne.symm here]
        · simp [here, same]

theorem get_map_values {Other : Type} (entries : List (Key × Value)) (f : Value → Other)
    (key : Key) :
    get (entries.map fun entry => (entry.1, f entry.2)) key = (get entries key).map f := by
  induction entries with
  | nil => rfl
  | cons entry entries ih =>
      rw [List.map_cons, get_cons, get_cons, ih]
      split
      · rfl
      · rfl

theorem get_eq_some_iff {entries : List (Key × Value)} (once : (entries.map Prod.fst).Nodup)
    {key : Key} {value : Value} : get entries key = some value ↔ (key, value) ∈ entries := by
  induction entries with
  | nil => simp
  | cons entry entries ih =>
      rw [List.map_cons, List.nodup_cons] at once
      rw [get_cons, List.mem_cons]
      by_cases same : entry.1 = key
      · subst same
        rw [if_pos rfl, Option.some_inj]
        constructor
        · rintro rfl
          exact Or.inl rfl
        · rintro (whole | later)
          · rw [← whole]
          · exact absurd (List.mem_map_of_mem later) once.1
      · rw [if_neg same, ih once.2]
        constructor
        · exact Or.inr
        · rintro (whole | later)
          · exact absurd (congrArg Prod.fst whole).symm same
          · exact later

theorem get_perm {entries others : List (Key × Value)} (once : (entries.map Prod.fst).Nodup)
    (perm : entries.Perm others) (key : Key) : get others key = get entries key := by
  ext value
  rw [get_eq_some_iff once, get_eq_some_iff ((perm.map _).nodup_iff.mp once), perm.mem_iff]

end Maps

/-- The states by player, one entry for each. -/
structure StateMap (Id : Type) where
  entries : List (Id × PrePeriodState)
  once : (entries.map Prod.fst).Nodup

variable {Id : Type} [LinearOrder Id]

def StateMap.keys (states : StateMap Id) : List Id :=
  states.entries.map Prod.fst

section Grouping

abbrev GamesByPlayer (Id : Type) := List (Id × List (PerPlayerGame Id))

def push (byPlayer : GamesByPlayer Id) (playerId : Id) (game : PerPlayerGame Id) :
    GamesByPlayer Id :=
  match get byPlayer playerId with
  | none => byPlayer ++ [(playerId, [game])]
  | some _ => byPlayer.map fun entry =>
      if entry.1 = playerId then (entry.1, entry.2 ++ [game]) else entry

/-- One pass of the loop over the games. -/
def pushGame (byPlayer : GamesByPlayer Id) (g : RatedGame Id) : GamesByPlayer Id :=
  push
    (push byPlayer g.whitePlayerId ⟨g.pairingId, g.blackPlayerId, scoreFor g.result true⟩)
    g.blackPlayerId ⟨g.pairingId, g.whitePlayerId, scoreFor g.result false⟩

/-- The sort is stable, as that of the source. -/
def sortGames (list : List (PerPlayerGame Id)) : List (PerPlayerGame Id) :=
  list.insertionSort fun a b => a.pairingId ≤ b.pairingId

def groupGamesByPlayer (games : List (RatedGame Id)) : GamesByPlayer Id :=
  (games.foldl pushGame []).map fun entry => (entry.1, sortGames entry.2)

end Grouping

section Computation

def minRating : Rat := 100
def minVolatility : Rat := 1 / 100
def maxVolatility : Rat := 1 / 10

variable (idText : Id → String) (numberText : Rat → String)

def clampWarningsFor (playerId : Id) (after : RatingSnapshot) (gamesInPeriod : Nat) :
    List String :=
  (if after.volatility ≤ minVolatility ∨ after.volatility ≥ maxVolatility then
    ["volatility clamp: player=" ++ idText playerId ++ " sigma=" ++ numberText after.volatility]
    else []) ++
  (if after.rating ≤ minRating then
    ["rating floor clamp: player=" ++ idText playerId ++ " rating=" ++ numberText after.rating]
    else []) ++
  (if gamesInPeriod > 0 ∧ after.deviation ≥ 350 then
    ["deviation ceiling clamp: player=" ++ idText playerId ++ " RD=" ++ numberText after.deviation]
    else [])

variable (calculator : Glicko2Calculator)

def stateOf (states : StateMap Id) (playerId : Id) : PrePeriodState :=
  (get states.entries playerId).getD defaultPrePeriodState

def inputGame (states : StateMap Id) (g : PerPlayerGame Id) : InputGameEntry Id :=
  let opponent := stateOf states g.opponentId
  { pairingId := g.pairingId
    opponentId := g.opponentId
    opponentRating := opponent.rating
    opponentRd := opponent.deviation
    score := g.score }

def InputGameEntry.outcome (g : InputGameEntry Id) : MatchOutcome :=
  ⟨⟨g.opponentRating, g.opponentRd, 6 / 100⟩, g.score⟩

/-- The body of the map over the players; `none` when the calculator throws. -/
def computeResult (byPlayer : GamesByPlayer Id) (states : StateMap Id) (playerId : Id) :
    Option (PlayerPeriodResult Id) :=
  let state := stateOf states playerId
  let playerGames := (get byPlayer playerId).getD []
  let inputGames := playerGames.map (inputGame states)
  let outcomes := inputGames.map InputGameEntry.outcome
  let before := state.toRatingSnapshot
  (calculator before outcomes).map fun after =>
    let gamesPlayedTotal := state.gamesPlayed + playerGames.length
    let provisionalAfter :=
      if state.isProvisional then !isEstablished gamesPlayedTotal after.deviation else false
    let candidate := roundHalfUp after.rating
    let peakChanged := !provisionalAfter &&
      (match state.peakRating with
        | none => true
        | some peak => decide (candidate > peak))
    { playerId := playerId
      before := before
      after := after
      gamesInPeriod := playerGames.length
      gamesPlayedTotal := gamesPlayedTotal
      isProvisional := provisionalAfter
      peakRating := if peakChanged then some candidate else state.peakRating
      peakChanged := peakChanged
      inputGames := inputGames
      clampWarnings := clampWarningsFor idText numberText playerId after playerGames.length }

def playerIds (byPlayer : GamesByPlayer Id) (states : StateMap Id) : List Id :=
  (states.keys ++ byPlayer.map Prod.fst).dedup.insertionSort fun a b => a ≤ b

def computePeriodResults (games : List (RatedGame Id)) (states : StateMap Id) :
    Option (List (PlayerPeriodResult Id)) :=
  let byPlayer := groupGamesByPlayer games
  (playerIds byPlayer states).mapM
    (computeResult idText numberText calculator byPlayer states)

end Computation

section Grouped

/-- What a game adds to the list of a player. A game against oneself adds two entries. -/
def sidesOf (playerId : Id) (g : RatedGame Id) : List (PerPlayerGame Id) :=
  (if g.whitePlayerId = playerId then
    [⟨g.pairingId, g.blackPlayerId, scoreFor g.result true⟩] else []) ++
  (if g.blackPlayerId = playerId then
    [⟨g.pairingId, g.whitePlayerId, scoreFor g.result false⟩] else [])

theorem get_push (byPlayer : GamesByPlayer Id) (playerId key : Id) (game : PerPlayerGame Id) :
    (get (push byPlayer playerId game) key).getD [] =
      (get byPlayer key).getD [] ++ if playerId = key then [game] else [] := by
  unfold push
  cases present : get byPlayer playerId with
  | none =>
      dsimp only
      rw [get_concat]
      by_cases same : playerId = key
      · subst same
        simp [present]
      · simp [same]
  | some list =>
      dsimp only
      rw [get_map_at byPlayer (fun list => list ++ [game])]
      by_cases same : playerId = key
      · subst same
        simp [present]
      · simp [same]

theorem get_pushGame (byPlayer : GamesByPlayer Id) (g : RatedGame Id) (key : Id) :
    (get (pushGame byPlayer g) key).getD [] = (get byPlayer key).getD [] ++ sidesOf key g := by
  unfold pushGame sidesOf
  rw [get_push, get_push, List.append_assoc]

theorem get_foldl_pushGame (games : List (RatedGame Id)) (byPlayer : GamesByPlayer Id)
    (key : Id) : (get (games.foldl pushGame byPlayer) key).getD [] =
      (get byPlayer key).getD [] ++ games.flatMap (sidesOf key) := by
  induction games generalizing byPlayer with
  | nil => rw [List.foldl_nil, List.flatMap_nil, List.append_nil]
  | cons g games ih =>
      rw [List.foldl_cons, ih, get_pushGame, List.flatMap_cons, List.append_assoc]

/-- The list of a player: the sides of the games, sorted. -/
theorem get_groupGamesByPlayer (games : List (RatedGame Id)) (key : Id) :
    (get (groupGamesByPlayer games) key).getD [] = sortGames (games.flatMap (sidesOf key)) := by
  have grouped := get_foldl_pushGame games [] key
  rw [get_nil, Option.getD_none, List.nil_append] at grouped
  rw [← grouped]
  unfold groupGamesByPlayer
  rw [get_map_values]
  cases get (games.foldl pushGame []) key with
  | none => rfl
  | some list => rfl

theorem mem_keys_push (byPlayer : GamesByPlayer Id) (playerId key : Id)
    (game : PerPlayerGame Id) : key ∈ (push byPlayer playerId game).map Prod.fst ↔
      key ∈ byPlayer.map Prod.fst ∨ key = playerId := by
  unfold push
  cases present : get byPlayer playerId with
  | none =>
      dsimp only
      rw [List.map_append, List.mem_append, List.map_singleton, List.mem_singleton]
  | some list =>
      have keys : (byPlayer.map fun entry =>
          if entry.1 = playerId then (entry.1, entry.2 ++ [game]) else entry).map Prod.fst =
            byPlayer.map Prod.fst := by
        rw [List.map_map]
        refine List.map_congr_left fun entry _ => ?_
        rw [Function.comp_apply]
        split
        · rfl
        · rfl
      have listed : playerId ∈ byPlayer.map Prod.fst := by
        obtain ⟨entry, found, -⟩ := Option.map_eq_some_iff.mp present
        have same : entry.1 = playerId := by simpa using List.find?_some found
        exact same ▸ List.mem_map_of_mem (List.mem_of_find?_eq_some found)
      dsimp only
      rw [keys]
      constructor
      · exact Or.inl
      · rintro (before | rfl)
        · exact before
        · exact listed

theorem mem_keys_foldl (games : List (RatedGame Id)) (byPlayer : GamesByPlayer Id) (key : Id) :
    key ∈ (games.foldl pushGame byPlayer).map Prod.fst ↔ key ∈ byPlayer.map Prod.fst ∨
      ∃ g ∈ games, key = g.whitePlayerId ∨ key = g.blackPlayerId := by
  induction games generalizing byPlayer with
  | nil => simp
  | cons g games ih =>
      rw [List.foldl_cons, ih]
      unfold pushGame
      rw [mem_keys_push, mem_keys_push]
      simp only [List.mem_cons, exists_eq_or_imp, or_assoc]

theorem mem_keys_group (games : List (RatedGame Id)) (key : Id) :
    key ∈ (groupGamesByPlayer games).map Prod.fst ↔
      ∃ g ∈ games, key = g.whitePlayerId ∨ key = g.blackPlayerId := by
  have keys : (groupGamesByPlayer games).map Prod.fst =
      (games.foldl pushGame []).map Prod.fst := by
    unfold groupGamesByPlayer
    rw [List.map_map]
    rfl
  rw [keys, mem_keys_foldl]
  simp

end Grouped

section Order

/-- Two insertions with distinct keys may come in either order. -/
theorem orderedInsert_comm {a b : PerPlayerGame Id} (distinct : a.pairingId ≠ b.pairingId)
    (list : List (PerPlayerGame Id)) :
    List.orderedInsert (fun a b => a.pairingId ≤ b.pairingId) a
        (List.orderedInsert (fun a b => a.pairingId ≤ b.pairingId) b list) =
      List.orderedInsert (fun a b => a.pairingId ≤ b.pairingId) b
        (List.orderedInsert (fun a b => a.pairingId ≤ b.pairingId) a list) := by
  wlog le : a.pairingId < b.pairingId generalizing a b with symm
  · exact (symm distinct.symm (lt_of_le_of_ne (not_lt.mp le) distinct.symm)).symm
  induction list with
  | nil => simp [List.orderedInsert, le.le, not_le.mpr le]
  | cons c list ih =>
      by_cases first : a.pairingId ≤ c.pairingId
      · by_cases second : b.pairingId ≤ c.pairingId
        · simp [List.orderedInsert, first, second, le.le, not_le.mpr le]
        · simp [List.orderedInsert, first, second, not_le.mpr le]
      · have second : ¬ b.pairingId ≤ c.pairingId := by
          rw [not_le] at first ⊢
          exact first.trans le
        simp [List.orderedInsert, first, second, ih]

theorem pairingId_of_mem_sidesOf {playerId : Id} {g : RatedGame Id} {side : PerPlayerGame Id}
    (inside : side ∈ sidesOf playerId g) : side.pairingId = g.pairingId := by
  unfold sidesOf at inside
  rw [List.mem_append] at inside
  obtain white | black := inside
  · split at white
    · rw [List.mem_singleton.mp white]
    · cases white
  · split at black
    · rw [List.mem_singleton.mp black]
    · cases black

/-- The insertion of the sides of one game. -/
def insertSides (playerId : Id) (g : RatedGame Id) (list : List (PerPlayerGame Id)) :
    List (PerPlayerGame Id) :=
  (sidesOf playerId g).foldr (List.orderedInsert fun a b => a.pairingId ≤ b.pairingId) list

theorem foldr_orderedInsert_comm {a : PerPlayerGame Id} {sides : List (PerPlayerGame Id)}
    (distinct : ∀ b ∈ sides, a.pairingId ≠ b.pairingId) (list : List (PerPlayerGame Id)) :
    List.orderedInsert (fun a b => a.pairingId ≤ b.pairingId) a
        (sides.foldr (List.orderedInsert fun a b => a.pairingId ≤ b.pairingId) list) =
      sides.foldr (List.orderedInsert fun a b => a.pairingId ≤ b.pairingId)
        (List.orderedInsert (fun a b => a.pairingId ≤ b.pairingId) a list) := by
  induction sides with
  | nil => rfl
  | cons b sides ih =>
      rw [List.foldr_cons, List.foldr_cons, orderedInsert_comm (distinct b List.mem_cons_self),
        ih fun c inside => distinct c (List.mem_cons_of_mem b inside)]

theorem insertSides_comm (playerId : Id) {g h : RatedGame Id}
    (distinct : g.pairingId ≠ h.pairingId) (list : List (PerPlayerGame Id)) :
    insertSides playerId g (insertSides playerId h list) =
      insertSides playerId h (insertSides playerId g list) := by
  have apart : ∀ a ∈ sidesOf playerId g, ∀ b ∈ sidesOf playerId h, a.pairingId ≠ b.pairingId := by
    intro a left b right
    rw [pairingId_of_mem_sidesOf left, pairingId_of_mem_sidesOf right]
    exact distinct
  have comm : ∀ sides : List (PerPlayerGame Id),
      (∀ a ∈ sides, ∀ b ∈ sidesOf playerId h, a.pairingId ≠ b.pairingId) →
      sides.foldr (List.orderedInsert fun a b => a.pairingId ≤ b.pairingId)
          (insertSides playerId h list) =
        insertSides playerId h
          (sides.foldr (List.orderedInsert fun a b => a.pairingId ≤ b.pairingId) list) := by
    intro sides apart
    induction sides with
    | nil => rfl
    | cons a sides ih =>
        rw [List.foldr_cons, List.foldr_cons,
          ih fun c inside => apart c (List.mem_cons_of_mem a inside)]
        exact foldr_orderedInsert_comm (apart a List.mem_cons_self) _
  exact comm _ apart

theorem sortGames_flatMap (games : List (RatedGame Id)) (playerId : Id) :
    sortGames (games.flatMap (sidesOf playerId)) = games.foldr (insertSides playerId) [] := by
  unfold sortGames List.insertionSort
  rw [List.foldr_flatMap]
  rfl

/-- The sorted list of a player is the same for every order of games with distinct pairings. -/
theorem sortGames_flatMap_perm {games others : List (RatedGame Id)} (perm : games.Perm others)
    (distinct : (games.map RatedGame.pairingId).Nodup) (playerId : Id) :
    sortGames (others.flatMap (sidesOf playerId)) =
      sortGames (games.flatMap (sidesOf playerId)) := by
  rw [sortGames_flatMap, sortGames_flatMap]
  refine (perm.foldr_eq' (fun g left h right list => ?_) []).symm
  by_cases same : g = h
  · rw [same]
  · exact insertSides_comm playerId
      (fun keys => same (List.inj_on_of_nodup_map distinct right left keys).symm) list

theorem stateOf_perm {states others : StateMap Id} (perm : states.entries.Perm others.entries)
    (playerId : Id) : stateOf others playerId = stateOf states playerId := by
  unfold stateOf
  rw [get_perm states.once perm]

theorem computeResult_congr {byPlayer byPlayer' : GamesByPlayer Id} {states states' : StateMap Id}
    (idText : Id → String) (numberText : Rat → String) (calculator : Glicko2Calculator)
    {playerId : Id}
    (games : (get byPlayer' playerId).getD [] = (get byPlayer playerId).getD [])
    (known : ∀ player, stateOf states' player = stateOf states player) :
    computeResult idText numberText calculator byPlayer' states' playerId =
      computeResult idText numberText calculator byPlayer states playerId := by
  have inputs : inputGame states' = inputGame states := by
    funext g
    unfold inputGame
    rw [known]
  unfold computeResult
  rw [games, inputs, known]

theorem mem_playerIds (games : List (RatedGame Id)) (states : StateMap Id) (playerId : Id) :
    playerId ∈ playerIds (groupGamesByPlayer games) states ↔ playerId ∈ states.keys ∨
      ∃ g ∈ games, playerId = g.whitePlayerId ∨ playerId = g.blackPlayerId := by
  unfold playerIds
  rw [List.mem_insertionSort, List.mem_dedup, List.mem_append, mem_keys_group]

theorem playerIds_nodup (byPlayer : GamesByPlayer Id) (states : StateMap Id) :
    (playerIds byPlayer states).Nodup :=
  (List.perm_insertionSort _ _).nodup_iff.mpr (List.nodup_dedup _)

theorem playerIds_perm {games others : List (RatedGame Id)} {states states' : StateMap Id}
    (perm : games.Perm others) (known : states.entries.Perm states'.entries) :
    playerIds (groupGamesByPlayer others) states' =
      playerIds (groupGamesByPlayer games) states := by
  have same : (playerIds (groupGamesByPlayer others) states').Perm
      (playerIds (groupGamesByPlayer games) states) := by
    rw [List.perm_ext_iff_of_nodup (playerIds_nodup _ _) (playerIds_nodup _ _)]
    intro playerId
    have keys : playerId ∈ states'.keys ↔ playerId ∈ states.keys := ((known.map _).mem_iff).symm
    simp only [mem_playerIds, keys, perm.mem_iff]
  exact same.eq_of_pairwise' (List.pairwise_insertionSort _ _) (List.pairwise_insertionSort _ _)

end Order

section Scores

variable (idText : Id → String) (numberText : Rat → String) (calculator : Glicko2Calculator)

theorem scoreFor_sides (result : GameResult) :
    scoreFor result true + scoreFor result false = 1 := by
  cases result with
  | whiteWin => exact add_zero 1
  | blackWin => exact zero_add 1
  | draw =>
      show (1 / 2 : Rat) + 1 / 2 = 1
      ring

theorem sum_scores_sidesOf (playerId : Id) (g : RatedGame Id) :
    ((sidesOf playerId g).map PerPlayerGame.score).sum =
      (if g.whitePlayerId = playerId then scoreFor g.result true else 0) +
        (if g.blackPlayerId = playerId then scoreFor g.result false else 0) := by
  unfold sidesOf
  rw [List.map_append, List.sum_append]
  congr 1
  · split
    · exact List.sum_singleton
    · rfl
  · split
    · exact List.sum_singleton
    · rfl

/-- A player of the list is met once. -/
theorem sum_at {players : List Id} (once : players.Nodup) {player : Id}
    (inside : player ∈ players) (x : Rat) :
    (players.map fun p => if player = p then x else 0).sum = x := by
  induction players with
  | nil => cases inside
  | cons p players ih =>
      rw [List.nodup_cons] at once
      rw [List.map_cons, List.sum_cons]
      by_cases same : player = p
      · subst same
        have rest : (players.map fun p => if player = p then x else 0).sum = 0 := by
          refine List.sum_eq_zero fun y listed => ?_
          obtain ⟨p, later, rfl⟩ := List.mem_map.mp listed
          refine if_neg fun same => once.1 ?_
          rw [same]
          exact later
        rw [if_pos rfl, rest, add_zero]
      · rw [if_neg same, zero_add]
        exact ih once.2 ((List.mem_cons.mp inside).resolve_left same)

/-- Every game gives its players one point together. -/
theorem sum_scores {players : List Id} (once : players.Nodup) (games : List (RatedGame Id))
    (listed : ∀ g ∈ games, g.whitePlayerId ∈ players ∧ g.blackPlayerId ∈ players) :
    (players.map fun p => ((games.flatMap (sidesOf p)).map PerPlayerGame.score).sum).sum =
      games.length := by
  induction games with
  | nil => simp
  | cons g games ih =>
      have here := listed g List.mem_cons_self
      have step : (players.map fun p =>
          (((g :: games).flatMap (sidesOf p)).map PerPlayerGame.score).sum) =
          players.map fun p => ((if g.whitePlayerId = p then scoreFor g.result true else 0) +
            (if g.blackPlayerId = p then scoreFor g.result false else 0)) +
              ((games.flatMap (sidesOf p)).map PerPlayerGame.score).sum := by
        refine List.map_congr_left fun p _ => ?_
        rw [List.flatMap_cons, List.map_append, List.sum_append, sum_scores_sidesOf]
      rw [step, List.sum_map_add, List.sum_map_add, sum_at once here.1, sum_at once here.2,
        scoreFor_sides, ih fun h later => listed h (List.mem_cons_of_mem g later),
        List.length_cons, Nat.cast_add, Nat.cast_one, add_comm]

end Scores

section Results

variable {idText : Id → String} {numberText : Rat → String} {calculator : Glicko2Calculator}
  {games : List (RatedGame Id)} {byPlayer : GamesByPlayer Id} {states : StateMap Id}

/-- What a result of `computeResult` consists of. -/
theorem computeResult_some {playerId : Id} {result : PlayerPeriodResult Id}
    (computed : computeResult idText numberText calculator byPlayer states playerId =
      some result) :
    result.playerId = playerId ∧
      result.before = (stateOf states playerId).toRatingSnapshot ∧
      result.inputGames = ((get byPlayer playerId).getD []).map (inputGame states) ∧
      calculator result.before (result.inputGames.map InputGameEntry.outcome) =
        some result.after := by
  unfold computeResult at computed
  obtain ⟨after, calculated, rfl⟩ := Option.map_eq_some_iff.mp computed
  exact ⟨rfl, rfl, rfl, calculated⟩

theorem mapM_computeResult {players : List Id} {results : List (PlayerPeriodResult Id)}
    (computed : players.mapM (computeResult idText numberText calculator byPlayer states) =
      some results) :
    results.map PlayerPeriodResult.playerId = players ∧ ∀ r ∈ results,
      computeResult idText numberText calculator byPlayer states r.playerId = some r := by
  induction players generalizing results with
  | nil =>
      cases computed
      exact ⟨rfl, fun _ inside => absurd inside List.not_mem_nil⟩
  | cons playerId players ih =>
      simp only [List.mapM_cons, Option.pure_def, Option.bind_eq_bind,
        Option.bind_eq_some_iff] at computed
      obtain ⟨result, first, rest, others, eq⟩ := computed
      cases eq
      obtain ⟨listed, each⟩ := ih others
      have same := (computeResult_some first).1
      refine ⟨by rw [List.map_cons, listed, same], fun r inside => ?_⟩
      rcases List.mem_cons.mp inside with rfl | later
      · rw [same]
        exact first
      · exact each r later

theorem mapM_computeResult_total (total : ∀ before outcomes, calculator before outcomes ≠ none)
    (players : List Id) : ∃ results,
      players.mapM (computeResult idText numberText calculator byPlayer states) = some results := by
  induction players with
  | nil => exact ⟨[], rfl⟩
  | cons playerId players ih =>
      obtain ⟨results, computed⟩ := ih
      have returned : ∃ result,
          computeResult idText numberText calculator byPlayer states playerId = some result := by
        unfold computeResult
        obtain ⟨after, calculated⟩ := Option.ne_none_iff_exists'.mp (total
          (stateOf states playerId).toRatingSnapshot
          ((((get byPlayer playerId).getD []).map (inputGame states)).map InputGameEntry.outcome))
        exact ⟨_, Option.map_eq_some_iff.mpr ⟨after, calculated, rfl⟩⟩
      obtain ⟨result, first⟩ := returned
      refine ⟨result :: results, ?_⟩
      rw [List.mapM_cons, first, computed]
      rfl

theorem computePeriodResults_perm {others : List (RatedGame Id)} {states' : StateMap Id}
    (perm : games.Perm others) (known : states.entries.Perm states'.entries)
    (distinct : (games.map RatedGame.pairingId).Nodup) :
    computePeriodResults idText numberText calculator others states' =
      computePeriodResults idText numberText calculator games states := by
  unfold computePeriodResults
  dsimp only
  rw [playerIds_perm perm known]
  congr 1
  funext playerId
  refine computeResult_congr idText numberText calculator ?_ (stateOf_perm known)
  rw [get_groupGamesByPlayer, get_groupGamesByPlayer, sortGames_flatMap_perm perm distinct]

/-- The games of a result are those of the player, each from the player's side. -/
theorem inputGames_perm {result : PlayerPeriodResult Id}
    (computed : computeResult idText numberText calculator (groupGamesByPlayer games) states
      result.playerId = some result) :
    result.inputGames.Perm ((games.flatMap (sidesOf result.playerId)).map (inputGame states)) := by
  rw [(computeResult_some computed).2.2.1, get_groupGamesByPlayer]
  exact (List.perm_insertionSort _ _).map _

theorem sum_scores_results {results : List (PlayerPeriodResult Id)}
    (computed : computePeriodResults idText numberText calculator games states = some results) :
    (results.map fun r =>
      ((r.inputGames.map InputGameEntry.outcome).map MatchOutcome.score).sum).sum =
        games.length := by
  obtain ⟨players, each⟩ := mapM_computeResult computed
  have scores : (results.map fun r =>
      ((r.inputGames.map InputGameEntry.outcome).map MatchOutcome.score).sum) =
      (results.map PlayerPeriodResult.playerId).map fun p =>
        ((games.flatMap (sidesOf p)).map PerPlayerGame.score).sum := by
    rw [List.map_map]
    refine List.map_congr_left fun r inside => ?_
    rw [Function.comp_apply, (((inputGames_perm (each r inside)).map _).map _).sum_eq,
      List.map_map, List.map_map]
    rfl
  rw [scores, players]
  refine sum_scores (playerIds_nodup _ _) games fun g inside => ?_
  simp only [mem_playerIds]
  exact ⟨Or.inr ⟨g, inside, Or.inl rfl⟩, Or.inr ⟨g, inside, Or.inr rfl⟩⟩

end Results

section Agreement

def RatedGame.toRating (g : RatedGame Nat) : Rating.RatedGame :=
  ⟨g.pairingId, g.whitePlayerId, g.blackPlayerId, g.result⟩

def PerPlayerGame.toRating (g : PerPlayerGame Nat) : Rating.PerPlayerGame :=
  ⟨g.pairingId, g.opponentId, g.score⟩

def InputGameEntry.toRating (g : InputGameEntry Nat) : Rating.InputGameEntry :=
  ⟨g.pairingId, g.opponentId, g.opponentRating, g.opponentRd, g.score⟩

/-- A result without its warnings. -/
def PlayerPeriodResult.toRating (r : PlayerPeriodResult Nat) : Rating.PlayerPeriodResult where
  playerId := r.playerId
  before := r.before
  after := r.after
  gamesInPeriod := r.gamesInPeriod
  gamesPlayedTotal := r.gamesPlayedTotal
  isProvisional := r.isProvisional
  peakRating := r.peakRating
  peakChanged := r.peakChanged
  inputGames := r.inputGames.map InputGameEntry.toRating

variable (idText : Nat → String) (numberText : Rat → String) (calculator : Glicko2Calculator)
  (games : List (RatedGame Nat)) (states : StateMap Nat)

theorem gamesOf_toRating (playerId : Nat) :
    Rating.gamesOf (games.map RatedGame.toRating) playerId =
      (sortGames (games.flatMap (sidesOf playerId))).map PerPlayerGame.toRating := by
  have sides : (games.flatMap (sidesOf playerId)).map PerPlayerGame.toRating =
      (games.map RatedGame.toRating).flatMap fun g =>
        (if g.whitePlayerId = playerId then
          [⟨g.pairingId, g.blackPlayerId, scoreFor g.result true⟩] else []) ++
        (if g.blackPlayerId = playerId then
          [⟨g.pairingId, g.whitePlayerId, scoreFor g.result false⟩] else []) := by
    rw [List.map_flatMap, List.flatMap_map]
    congr 1
    funext g
    unfold sidesOf
    rw [List.map_append, apply_ite (List.map _), apply_ite (List.map _)]
    rfl
  unfold sortGames Rating.gamesOf
  rw [← sides]
  exact (List.map_insertionSort (fun a b : PerPlayerGame Nat => a.pairingId ≤ b.pairingId)
    (fun a b : Rating.PerPlayerGame => a.pairingId ≤ b.pairingId) PerPlayerGame.toRating _
    fun a _ b _ => Iff.rfl).symm

theorem inputGamesOf_toRating (playerId : Nat) :
    Rating.inputGamesOf (games.map RatedGame.toRating) (get states.entries) playerId =
      (((get (groupGamesByPlayer games) playerId).getD []).map (inputGame states)).map
        InputGameEntry.toRating := by
  unfold Rating.inputGamesOf
  rw [gamesOf_toRating, get_groupGamesByPlayer, List.map_map, List.map_map]
  rfl

theorem computeResult_toRating (playerId : Nat) :
    Rating.computeResult calculator (games.map RatedGame.toRating) (get states.entries) playerId =
      (computeResult idText numberText calculator (groupGamesByPlayer games) states
        playerId).map PlayerPeriodResult.toRating := by
  have count : (Rating.gamesOf (games.map RatedGame.toRating) playerId).length =
      ((get (groupGamesByPlayer games) playerId).getD []).length := by
    rw [gamesOf_toRating, get_groupGamesByPlayer, List.length_map]
  unfold Rating.computeResult computeResult
  dsimp only
  rw [Option.map_map, inputGamesOf_toRating, count]
  rw [List.map_map (l := List.map _ _)]
  rfl

theorem playerIds_toRating :
    ((states.keys ++ Rating.gamePlayerIds (games.map RatedGame.toRating)).dedup.insertionSort
      fun a b => a ≤ b) = playerIds (groupGamesByPlayer games) states := by
  have same : ((states.keys ++ Rating.gamePlayerIds
      (games.map RatedGame.toRating)).dedup.insertionSort fun a b => a ≤ b).Perm
      (playerIds (groupGamesByPlayer games) states) := by
    rw [List.perm_ext_iff_of_nodup
      ((List.perm_insertionSort _ _).nodup_iff.mpr (List.nodup_dedup _)) (playerIds_nodup _ _)]
    intro playerId
    rw [mem_playerIds, List.mem_insertionSort, List.mem_dedup, List.mem_append]
    unfold Rating.gamePlayerIds
    rw [List.mem_dedup, List.mem_flatMap]
    simp [RatedGame.toRating]
  exact same.eq_of_pairwise' (List.pairwise_insertionSort _ _) (List.pairwise_insertionSort _ _)

/-- The computation of the periods, where ids stand for their numbers. -/
theorem computePeriodResults_toRating :
    Rating.computePeriodResults calculator (games.map RatedGame.toRating) (get states.entries)
        states.keys =
      (computePeriodResults idText numberText calculator games states).map
        fun results => results.map PlayerPeriodResult.toRating := by
  have mapped : ∀ players : List Nat,
      players.mapM (Rating.computeResult calculator (games.map RatedGame.toRating)
        (get states.entries)) =
      (players.mapM (computeResult idText numberText calculator (groupGamesByPlayer games)
        states)).map fun results => results.map PlayerPeriodResult.toRating := by
    intro players
    induction players with
    | nil => rfl
    | cons playerId players ih =>
        rw [List.mapM_cons, List.mapM_cons, ih,
          computeResult_toRating idText numberText calculator games states]
        cases computeResult idText numberText calculator (groupGamesByPlayer games) states
          playerId with
        | none => rfl
        | some result =>
            cases players.mapM (computeResult idText numberText calculator
              (groupGamesByPlayer games) states) with
            | none => rfl
            | some results => rfl
  unfold Rating.computePeriodResults computePeriodResults
  rw [playerIds_toRating, mapped]

end Agreement

/-- The order of the games and of the states does not matter. When the calculator returns, each
player of the states and of the games has one result; the calculator was given the player's state
and games before the period, with the states of the opponents before it, and the scores sum to the
number of games. -/
theorem computePeriodResults_order (idText : Id → String) (numberText : Rat → String)
    (calculator : Glicko2Calculator) (games : List (RatedGame Id)) (states : StateMap Id)
    (distinct : (games.map RatedGame.pairingId).Nodup) :
    (∀ others states', games.Perm others → states.entries.Perm states'.entries →
      computePeriodResults idText numberText calculator others states' =
        computePeriodResults idText numberText calculator games states) ∧
    ((∀ before outcomes, calculator before outcomes ≠ none) → ∃ results,
      computePeriodResults idText numberText calculator games states = some results) ∧
    (∀ results, computePeriodResults idText numberText calculator games states = some results →
      (results.map PlayerPeriodResult.playerId).Nodup ∧
      (∀ playerId, playerId ∈ results.map PlayerPeriodResult.playerId ↔
        playerId ∈ states.keys ∨
          ∃ g ∈ games, playerId = g.whitePlayerId ∨ playerId = g.blackPlayerId) ∧
      (results.map fun r =>
        ((r.inputGames.map InputGameEntry.outcome).map MatchOutcome.score).sum).sum =
          games.length ∧
      ∀ r ∈ results,
        r.before = (stateOf states r.playerId).toRatingSnapshot ∧
        calculator r.before (r.inputGames.map InputGameEntry.outcome) = some r.after ∧
        r.inputGames.Perm ((games.flatMap (sidesOf r.playerId)).map (inputGame states))) := by
  refine ⟨fun others states' perm known => computePeriodResults_perm perm known distinct,
    fun total => mapM_computeResult_total total _, fun results computed => ?_⟩
  obtain ⟨players, each⟩ := mapM_computeResult computed
  refine ⟨?_, fun playerId => ?_, sum_scores_results computed, fun r inside => ?_⟩
  · rw [players]
    exact playerIds_nodup _ _
  · rw [players, mem_playerIds]
  · obtain ⟨-, before, -, calculated⟩ := computeResult_some (each r inside)
    exact ⟨before, calculated, inputGames_perm (each r inside)⟩

/-- Two games of three players, of whom one has a state, given in both orders. -/
theorem computePeriodResults_order_two_games :
    let calculator : Glicko2Calculator := fun before outcomes =>
      some { before with rating := before.rating + 10 * (outcomes.map MatchOutcome.score).sum }
    let states : StateMap Nat :=
      ⟨[(3, { defaultPrePeriodState with rating := 1600 })], List.nodup_singleton 3⟩
    let games : List (RatedGame Nat) := [⟨2, 1, 2, .draw⟩, ⟨1, 3, 1, .blackWin⟩]
    computePeriodResults (fun _ => "id") (fun _ => "x") calculator games.reverse states =
        computePeriodResults (fun _ => "id") (fun _ => "x") calculator games states ∧
      ∃ results,
        computePeriodResults (fun _ => "id") (fun _ => "x") calculator games states =
          some results ∧
        (results.map PlayerPeriodResult.playerId).Nodup ∧
        (results.map fun r =>
          ((r.inputGames.map InputGameEntry.outcome).map MatchOutcome.score).sum).sum = 2 := by
  intro calculator states games
  have order := computePeriodResults_order (fun _ => "id") (fun _ => "x") calculator games states
    (by decide)
  obtain ⟨same, returns, each⟩ := order
  obtain ⟨results, computed⟩ := returns fun before outcomes => Option.some_ne_none _
  obtain ⟨once, -, scores, -⟩ := each results computed
  exact ⟨same games.reverse states (List.reverse_perm games).symm (List.Perm.refl _), results,
    computed, once, scores⟩

end Farzin.RatingOrder
