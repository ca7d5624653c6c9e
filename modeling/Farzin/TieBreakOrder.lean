import Farzin.Comparators
import Farzin.Table
import Farzin.TieBreaks

set_option autoImplicit false

/- The ranking of the tie-break calculator (`rank` of `core/tiebreak/tiebreak.calculator.ts`) is
a strict total order of the players. Direct encounter is the one key that may not apply, and it
does so for everyone with as many points at once. -/
namespace Farzin.TieBreak

open Comparators

section Context

/-- What the calculator keeps of sound players. -/
def contextOf (players : List PlayerTieBreakInput) : TieBreakContext where
  players := players
  points2 := players.map fun p => (p.playerId, p.points * 2)
  totalRounds := players.foldl (fun rounds p => max rounds p.games.length) 0

variable {players other : List PlayerTieBreakInput} {ctx : TieBreakContext}

theorem addPlayers_inv (points2 after : List (PlayerId × Rat))
    (ran : players.foldlM addPlayer points2 = .ok after) :
    (players.map PlayerTieBreakInput.playerId).Nodup ∧
      (∀ p ∈ players, p.playerId ∉ points2.map Prod.fst ∧ (p.points * 2).den = 1) ∧
      after = points2 ++ players.map fun p => (p.playerId, p.points * 2) := by
  induction players generalizing points2 with
  | nil =>
      cases ran
      refine ⟨List.nodup_nil, fun p listed => ?_, (List.append_nil _).symm⟩
      cases listed
  | cons p players ih =>
      rw [List.foldlM_cons] at ran
      obtain ⟨added, first, rest⟩ := Checked.bind_ok ran
      rw [addPlayer] at first
      split at first
      · cases first
      · rename_i new
        obtain ⟨own, half, last⟩ := Checked.bind_ok first
        rw [toHalfPoints] at half
        split at half
        · rename_i whole
          cases half
          cases last
          obtain ⟨distinct, each, same⟩ := ih _ rest
          refine ⟨List.nodup_cons.mpr ⟨fun seen => ?_, distinct⟩, fun q listed => ?_, ?_⟩
          · obtain ⟨q, inside, equal⟩ := List.mem_map.mp seen
            have unseen := (each q inside).1
            rw [equal] at unseen
            exact unseen (by simp)
          · rcases List.mem_cons.mp listed with here | later
            · rw [here]
              exact ⟨new, whole⟩
            · refine ⟨fun seen => (each q later).1 ?_, (each q later).2⟩
              rw [List.map_append]
              exact List.mem_append_left _ seen
          · rw [same, List.append_assoc]
            rfl
        · cases half

/-- The players that the calculator accepts are sound, and what it keeps of them. -/
theorem buildContext_sound (built : buildContext players = .ok ctx) :
    Sound players ∧ ctx = contextOf players := by
  obtain ⟨points2, points, rest⟩ := Checked.bind_ok built
  obtain ⟨done, games, last⟩ := Checked.bind_ok rest
  obtain ⟨distinct, each, same⟩ := addPlayers_inv [] points2 points
  rw [List.nil_append] at same
  have ids : points2.map Prod.fst = players.map PlayerTieBreakInput.playerId := by
    rw [same, List.map_map]
    rfl
  have checked : ∀ p ∈ players, ∀ game ∈ p.games,
      checkGame (players.map PlayerTieBreakInput.playerId) p.playerId game = .ok () := by
    intro p listed game inside
    rw [← ids]
    exact Checked.forM_each (Checked.forM_each games listed) inside
  refine ⟨⟨distinct, fun p listed => (each p listed).2, ?_, ?_⟩, ?_⟩
  · intro p listed game inside opponentId met
    have passed := checked p listed game inside
    rw [checkGame, met] at passed
    dsimp only at passed
    split at passed
    · rename_i known
      exact known
    · cases passed
  · intro p listed game inside board
    have passed := checked p listed game inside
    cases opponent : game.opponentId with
    | some _ => rfl
    | none =>
        rw [checkGame, opponent] at passed
        dsimp only at passed
        rw [if_pos board] at passed
        cases passed
  · rw [← Except.ok.inj last, same]
    rfl

theorem Sound.buildContext_ok (sound : Sound players) :
    buildContext players = .ok (contextOf players) := by
  obtain ⟨ctx, built⟩ := sound.context
  rw [built, (buildContext_sound built).2]

theorem Sound.perm (sound : Sound players) (same : other.Perm players) : Sound other where
  distinct := (same.map _).nodup_iff.mpr sound.distinct
  halves p listed := sound.halves p (same.mem_iff.mp listed)
  opponents p listed game inside opponentId met :=
    (same.map _).mem_iff.mpr (sound.opponents p (same.mem_iff.mp listed) game inside opponentId met)
  board p listed := sound.board p (same.mem_iff.mp listed)

theorem pointsOf_contextOf (distinct : (players.map PlayerTieBreakInput.playerId).Nodup)
    {p : PlayerTieBreakInput} (listed : p ∈ players) :
    (contextOf players).pointsOf p.playerId = p.points * 2 := by
  unfold TieBreakContext.pointsOf contextOf
  induction players with
  | nil => cases listed
  | cons q players ih =>
      obtain ⟨absent, rest⟩ := List.nodup_cons.mp distinct
      rw [List.map_cons, List.lookup_cons]
      rcases List.mem_cons.mp listed with here | later
      · rw [here, beq_self_eq_true]
        rfl
      · have different : p.playerId ≠ q.playerId := fun same =>
          absent (same ▸ List.mem_map_of_mem later)
        rw [beq_false_of_ne different]
        exact ih rest later

theorem pointsOf_absent {id : PlayerId}
    (absent : id ∉ players.map PlayerTieBreakInput.playerId) :
    (contextOf players).pointsOf id = 0 := by
  unfold TieBreakContext.pointsOf contextOf
  have none : (players.map fun p => (p.playerId, p.points * 2)).lookup id = none := by
    refine List.lookup_eq_none_iff.mpr fun pair listed => ?_
    obtain ⟨p, inside, rfl⟩ := List.mem_map.mp listed
    refine bne_iff_ne.mpr fun same => ?_
    rw [same] at absent
    exact absent (List.mem_map_of_mem inside)
  rw [none]
  rfl

end Context

section Values

variable {players other : List PlayerTieBreakInput}

theorem pointsOf_perm (sound : Sound players) (same : other.Perm players) :
    (contextOf other).pointsOf = (contextOf players).pointsOf := by
  funext id
  have ids := same.map PlayerTieBreakInput.playerId
  by_cases known : id ∈ players.map PlayerTieBreakInput.playerId
  · obtain ⟨p, listed, rfl⟩ := List.mem_map.mp known
    rw [pointsOf_contextOf sound.distinct listed,
      pointsOf_contextOf (sound.perm same).distinct (same.mem_iff.mpr listed)]
  · rw [pointsOf_absent known, pointsOf_absent fun listed => known (ids.mem_iff.mp listed)]

theorem totalRounds_perm (same : other.Perm players) :
    (contextOf other).totalRounds = (contextOf players).totalRounds := by
  refine same.foldl_eq' (fun p _ q _ rounds => ?_) 0
  omega

theorem contributionsFrom_congr {ctx ctx' : TieBreakContext}
    (points : ctx'.pointsOf = ctx.pointsOf) (rounds : ctx'.totalRounds = ctx.totalRounds)
    (before2 : Rat) (round : Nat) (games : List GameRecord) :
    ctx'.contributionsFrom before2 round games = ctx.contributionsFrom before2 round games := by
  induction games generalizing before2 round with
  | nil => rfl
  | cons game games ih =>
      rw [TieBreakContext.contributionsFrom, TieBreakContext.contributionsFrom, ih, points, rounds]

theorem group_perm (sound : Sound players) (same : other.Perm players)
    (p : PlayerTieBreakInput) : ((contextOf other).group p).Perm ((contextOf players).group p) := by
  unfold TieBreakContext.group
  rw [pointsOf_perm sound same]
  exact same.filter _

theorem directEncounter2_perm (sound : Sound players) (same : other.Perm players)
    (p : PlayerTieBreakInput) :
    (contextOf other).directEncounter2 p = (contextOf players).directEncounter2 p := by
  have members : ∀ q id, id ∈ ((contextOf other).group q).map PlayerTieBreakInput.playerId ↔
      id ∈ ((contextOf players).group q).map PlayerTieBreakInput.playerId :=
    fun q id => ((group_perm sound same q).map _).mem_iff
  have met : ∀ q, (contextOf other).metInGroup q = (contextOf players).metInGroup q := by
    intro q
    simp only [TieBreakContext.metInGroup, members]
  unfold TieBreakContext.directEncounter2
  simp only [met, members, (group_perm sound same p).length_eq,
    (group_perm sound same p).all_eq]

theorem aro_perm (sound : Sound players) (same : other.Perm players)
    (options : TieBreakOptions) (p : PlayerTieBreakInput) :
    (contextOf other).aro options p = (contextOf players).aro options p := by
  have unique : Table.Unique PlayerTieBreakInput.playerId players := sound.distinct
  have find : ∀ id, (other.find? fun q => decide (q.playerId = id)) =
      players.find? fun q => decide (q.playerId = id) := unique.find_perm same
  unfold TieBreakContext.aro contextOf
  simp only [find]

/-- No value depends on the order of the players. -/
theorem computeInternal_perm (sound : Sound players) (same : other.Perm players)
    (options : TieBreakOptions) (key : TieBreakKey) :
    computeInternal options key (contextOf other) =
      computeInternal options key (contextOf players) := by
  funext p
  have points := pointsOf_perm sound same
  have rounds := totalRounds_perm same
  have buchholz : (contextOf other).buchholzContributions2 p =
      (contextOf players).buchholzContributions2 p :=
    contributionsFrom_congr points rounds 0 1 p.games
  cases key with
  | buchholz | buchholzCut1 | medianBuchholz => rw [computeInternal, computeInternal, buchholz]
  | sonnebornBerger =>
      simp only [computeInternal, TieBreakContext.sonnebornBerger4, points]
  | directEncounter => exact directEncounter2_perm sound same p
  | aro => exact congrArg some (aro_perm sound same options p)
  | koya => simp only [computeInternal, TieBreakContext.koya2, points, rounds]
  | cumulative | wins | blackGames => rfl

end Values

section Order

variable (options : TieBreakOptions) (ctx : TieBreakContext)

theorem comparePlayerId_le (x y : PlayerId) : comparePlayerId x y ≤ 0 ↔ x ≤ y := by
  unfold comparePlayerId
  split_ifs with less greater
  · exact iff_of_true (by norm_num) less.le
  · exact iff_of_false (by norm_num) (Nat.not_le.mpr greater)
  · exact iff_of_true (le_refl 0) (Nat.not_lt.mp greater)

theorem comparePlayerId_coherent (S : PlayerTieBreakInput → Prop) :
    Coherent S fun a b => comparePlayerId a.playerId b.playerId where
  odd a b := by
    unfold comparePlayerId
    rcases Nat.lt_trichotomy a.playerId b.playerId with less | equal | greater
    · rw [if_pos less, if_neg (Nat.lt_asymm less), if_pos less, neg_neg]
    · simp [equal]
    · rw [if_pos greater, if_neg (Nat.lt_asymm greater), if_pos greater]
  trans {a b d} _ _ _ first second := by
    rw [comparePlayerId_le] at first second ⊢
    exact Nat.le_trans first second

theorem compareKeys_cons (key : TieBreakKey) (rest : List TieBreakKey)
    (a b : PlayerTieBreakInput) : compareKeys options ctx a b (key :: rest) =
      byKey (computeInternal options key ctx) (fun a b => compareKeys options ctx a b rest) a b :=
  rfl

theorem comparePlayers_eq (keys : List TieBreakKey) (a b : PlayerTieBreakInput) :
    comparePlayers options ctx keys a b = byValue (fun p => ctx.pointsOf p.playerId)
      (fun a b => compareKeys options ctx a b keys) a b := rfl

/-- Direct encounter applies to everyone with some points or to no one of them. -/
theorem computeInternal_uniform (key : TieBreakKey) (points : Rat) :
    Uniform (fun p => ctx.pointsOf p.playerId = points) (computeInternal options key ctx) := by
  intro a b hereA hereB
  cases key with
  | directEncounter =>
      have group : ctx.group a = ctx.group b := by
        unfold TieBreakContext.group
        rw [hereA, hereB]
      change (ctx.directEncounter2 a).isSome = (ctx.directEncounter2 b).isSome
      unfold TieBreakContext.directEncounter2
      rw [group]
      dsimp only
      split
      · rfl
      · rfl
  | _ => rfl

theorem compareKeys_coherent (points : Rat) (keys : List TieBreakKey) :
    Coherent (fun p => ctx.pointsOf p.playerId = points)
      fun a b => compareKeys options ctx a b keys := by
  induction keys with
  | nil => exact comparePlayerId_coherent _
  | cons key rest ih =>
      exact byKey_coherent ih (computeInternal_uniform options ctx key points)

theorem comparePlayers_total (keys : List TieBreakKey) :
    Total (comparePlayers options ctx keys) := by
  refine byValue_coherent fun points => ?_
  have coherent := compareKeys_coherent options ctx points keys
  exact ⟨coherent.odd, fun inA inB inD => coherent.trans inA.2 inB.2 inD.2⟩

/-- Only a player and itself are tied to the end. -/
theorem comparePlayers_zero {keys : List TieBreakKey} {a b : PlayerTieBreakInput}
    (tied : comparePlayers options ctx keys a b = 0) : a.playerId = b.playerId := by
  have last : ∀ keys, compareKeys options ctx a b keys = 0 → a.playerId = b.playerId := by
    intro keys
    induction keys with
    | nil =>
        intro zero
        change comparePlayerId a.playerId b.playerId = 0 at zero
        have odd := (comparePlayerId_coherent fun _ => True).odd a b
        have front := (comparePlayerId_le _ _).mp zero.le
        have back := (comparePlayerId_le b.playerId a.playerId).mp (by rw [odd, zero, neg_zero])
        exact Nat.le_antisymm front back
    | cons key rest ih =>
        intro zero
        rw [compareKeys_cons] at zero
        exact ih (byKey_zero zero)
  rw [comparePlayers_eq] at tied
  exact last keys (byValue_zero tied).2

end Order

section Ranking

variable {players : List PlayerTieBreakInput} {ctx : TieBreakContext}

/-- What a ranking is: the players in a strict total order, and no other. -/
structure Ranked (options : TieBreakOptions) (order : List TieBreakKey)
    (players : List PlayerTieBreakInput) (before : PlayerTieBreakInput → PlayerTieBreakInput → Prop)
    (sorted : List PlayerTieBreakInput) : Prop where
  perm : sorted.Perm players
  ordered : sorted.Pairwise before
  points : sorted.Pairwise fun a b => b.points ≤ a.points
  rank : ∀ other : List PlayerTieBreakInput, other.Perm players →
    TieBreak.rank options other order = .ok (sorted.map PlayerTieBreakInput.playerId)

/-- The comparator of the ranking is a strict total order of the players, and the ranking is
the players in this order, whatever order they are given in. -/
theorem rank_strict_total (options : TieBreakOptions) (order : List TieBreakKey)
    (built : buildContext players = .ok ctx) :
    let compare := comparePlayers options ctx (dedupe order)
    (∀ a ∈ players, ¬ compare a a < 0) ∧
      (∀ a ∈ players, ∀ b ∈ players, ∀ d ∈ players,
        compare a b < 0 → compare b d < 0 → compare a d < 0) ∧
      (∀ a ∈ players, ∀ b ∈ players, a ≠ b → compare a b < 0 ∨ compare b a < 0) ∧
      (∀ a ∈ players, ∀ b ∈ players, 0 < compare a b ↔ compare b a < 0) ∧
      ∃ sorted, Ranked options order players (fun a b => compare a b < 0) sorted := by
  obtain ⟨sound, rfl⟩ := buildContext_sound built
  intro compare
  have total : Total compare := comparePlayers_total options _ _
  have apart : ∀ a ∈ players, ∀ b ∈ players, compare a b = 0 → a = b :=
    fun a hereA b hereB tied =>
      List.inj_on_of_nodup_map sound.distinct hereA hereB (comparePlayers_zero options _ tied)
  have connected : ∀ a ∈ players, ∀ b ∈ players, a ≠ b → compare a b < 0 ∨ compare b a < 0 :=
    fun a hereA b hereB different =>
      total.connected fun tied => different (apart a hereA b hereB tied)
  refine ⟨fun a _ => total.irrefl a, fun a _ b _ d _ => total.lt_trans, connected, ?_, ?_⟩
  · intro a _ b _
    rw [total.odd a b, neg_lt_zero]
  · let sorted := players.insertionSort fun a b => compare a b ≤ 0
    have perm : sorted.Perm players := List.perm_insertionSort _ _
    have distinct : sorted.Nodup := perm.nodup_iff.mpr (List.Nodup.of_map _ sound.distinct)
    have ordered : sorted.Pairwise fun a b => compare a b < 0 := by
      refine ((total.sorted players).and distinct).imp_of_mem ?_
      intro a b hereA hereB both
      refine lt_of_le_of_ne both.1 fun tied => both.2 ?_
      exact apart a (perm.mem_iff.mp hereA) b (perm.mem_iff.mp hereB) tied
    refine ⟨sorted, perm, ordered, ordered.imp_of_mem ?_, fun other same => ?_⟩
    · intro a b hereA hereB before
      have less : compare a b ≤ 0 := before.le
      rw [show compare a b = _ from comparePlayers_eq options _ _ a b, byValue_le] at less
      rw [pointsOf_contextOf sound.distinct (perm.mem_iff.mp hereA),
        pointsOf_contextOf sound.distinct (perm.mem_iff.mp hereB)] at less
      rcases less with higher | equal
      · linarith
      · linarith [equal.1]
    · have values : comparePlayers options (contextOf other) (dedupe order) = compare := by
        have keys : ∀ keys a b, compareKeys options (contextOf other) a b keys =
            compareKeys options (contextOf players) a b keys := by
          intro keys a b
          induction keys with
          | nil => rfl
          | cons key rest ih =>
              rw [compareKeys, compareKeys, computeInternal_perm sound same, ih]
        funext a b
        rw [comparePlayers, pointsOf_perm sound same, keys]
        rfl
      have same' := total.sort_perm same apart
      rw [TieBreak.rank, (sound.perm same).buildContext_ok, Checked.ok_bind]
      dsimp only
      rw [values, same']
      rfl

/-- Two players with a point from byes, who have not met, and one who has lost to none. -/
def byePlayers : List PlayerTieBreakInput :=
  [⟨2, 1, some 2100, [⟨none, none, 1, false⟩]⟩, ⟨3, 1 / 2, none, [⟨none, none, 1 / 2, false⟩]⟩,
    ⟨1, 1, some 1900, [⟨none, none, 1, false⟩]⟩]

theorem rank_strict_total_byes :
    let compare := comparePlayers ⟨none⟩ (contextOf byePlayers) (dedupe [.directEncounter, .wins])
    (∀ a ∈ byePlayers, ¬ compare a a < 0) ∧
      (∀ a ∈ byePlayers, ∀ b ∈ byePlayers, ∀ d ∈ byePlayers,
        compare a b < 0 → compare b d < 0 → compare a d < 0) ∧
      (∀ a ∈ byePlayers, ∀ b ∈ byePlayers, a ≠ b → compare a b < 0 ∨ compare b a < 0) ∧
      (∀ a ∈ byePlayers, ∀ b ∈ byePlayers, 0 < compare a b ↔ compare b a < 0) ∧
      ∃ sorted, Ranked ⟨none⟩ [.directEncounter, .wins] byePlayers
        (fun a b => compare a b < 0) sorted :=
  rank_strict_total ⟨none⟩ [.directEncounter, .wins] (by decide +kernel)

end Ranking

end Farzin.TieBreak
