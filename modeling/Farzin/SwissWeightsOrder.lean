import Farzin.MixedRadix
import Farzin.SwissWeights

set_option autoImplicit false

/- The weights of a bracket, read as signed digits over the levels of the header comment
of `bracket-weights.ts`. -/
namespace Farzin.Swiss

/-- The levels, from the highest to the lowest. -/
inductive Level where
  | pair
  | c5
  | c7
  | sd
  | c9
  | c10
  | c11
  | c12
  | c13
  | c14
  | c15
  | c16
  | c17
  | c18
  | c19
  | c20
  | c21
  | tb
  deriving DecidableEq, Repr

def Level.all : List Level :=
  [.pair, .c5, .c7, .sd, .c9, .c10, .c11, .c12, .c13, .c14, .c15, .c16, .c17, .c18, .c19, .c20,
    .c21, .tb]

def LevelBases.unit (bases : LevelBases) : Level → Int
  | .pair => bases.basePair
  | .c5 => bases.baseC5
  | .c7 => bases.baseC7
  | .sd => bases.baseSD
  | .c9 => bases.baseC9
  | .c10 => bases.baseC10
  | .c11 => bases.baseC11
  | .c12 => bases.baseC12
  | .c13 => bases.baseC13
  | .c14 => bases.baseC14
  | .c15 => bases.baseC15
  | .c16 => bases.baseC16
  | .c17 => bases.baseC17
  | .c18 => bases.baseC18
  | .c19 => bases.baseC19
  | .c20 => bases.baseC20
  | .c21 => bases.baseC21
  | .tb => bases.baseTB

/-- An edge of a bracket's graph; a dummy edge gives the bye. -/
inductive BracketEdge where
  | real (u v : BracketSlot)
  | dummy (u : BracketSlot)
  deriving DecidableEq, Repr

def BracketEdge.ends : BracketEdge → List BracketSlot
  | .real u v => [u, v]
  | .dummy u => [u]

def BracketEdge.isDummy : BracketEdge → Bool
  | .real _ _ => false
  | .dummy _ => true

def edgeWeight (scheme : WeightScheme) (split : Int) : BracketEdge → Except PairingError Int
  | .real u v => scheme.realEdgeWeight u v split
  | .dummy u => .ok (scheme.dummyEdgeWeight u)

def matchingWeight (scheme : WeightScheme) (split : Int) (edges : List BracketEdge) :
    Except PairingError Int := do
  let weights ← edges.mapM (edgeWeight scheme split)
  return weights.sum

def flag (p : Prop) [Decidable p] : Int := if p then 1 else 0

/-- V(e) of the header comment. -/
def power (params : WeightSchemeParams) (e : Int) : Int := ((params.n : Int) + 1) ^ e.toNat

def tbPower (params : WeightSchemeParams) (e : Int) : Int := (2 * (params.n : Int) + 3) ^ e.toNat

section Digits

variable (params : WeightSchemeParams) (split : Int)

def scoreGap (u v : BracketSlot) : Int := (u.player.scoreX2 - v.player.scoreX2).natAbs

/-- The side that floats down in a pair with different scores. -/
def downSide (u v : BracketSlot) : SwissPlayer :=
  if v.player.scoreX2 < u.player.scoreX2 then u.player else v.player

def upSide (u v : BracketSlot) : SwissPlayer :=
  if v.player.scoreX2 < u.player.scoreX2 then v.player else u.player

def residentDown (slot : BracketSlot) (float : FloatDirection) : Int :=
  flag (slot.carried = false ∧ float = .down)

def partnerRank (hi : Nat) : Int := if split ≤ hi then hi else 2 * params.n - hi

def orderDigit (lo hi : Nat) : Int :=
  tbPower params (params.n - 1 - lo) * (2 * params.n + 2) +
    tbPower params (params.n - 1 - hi) * (2 * params.n + 2) -
      tbPower params (params.n - 1 - lo) * partnerRank params split hi

/-- What an edge adds to each level: bonuses counted up, penalties counted down. -/
def contribution : BracketEdge → Level → Int
  | .real u v, level =>
      let gap := scoreGap u v
      let pens := colorPenaltiesFor u.player v.player params.initialColor
      let down := downSide u v
      let up := upSide u v
      match level with
      | .pair => 1
      | .c7 => power params (u.player.scoreX2 - params.minScoreX2) +
          power params (v.player.scoreX2 - params.minScoreX2)
      | .sd => -(flag (0 < gap) * power params gap)
      | .c10 => -pens.c10
      | .c11 => -pens.c11
      | .c12 => -pens.c12
      | .c13 => -pens.c13
      | .c14 => residentDown u u.player.floatPrev + residentDown v v.player.floatPrev
      | .c15 => -(flag (0 < gap) * flag (up.floatPrev = .up))
      | .c16 => residentDown u u.player.floatPrevPrev + residentDown v v.player.floatPrevPrev
      | .c17 => -(flag (0 < gap) * flag (up.floatPrevPrev = .up))
      | .c18 => -(flag (0 < gap) * flag (down.floatPrev = .down) * power params gap)
      | .c19 => -(flag (0 < gap) * flag (up.floatPrev = .up) * power params gap)
      | .c20 => -(flag (0 < gap) * flag (down.floatPrevPrev = .down) * power params gap)
      | .c21 => -(flag (0 < gap) * flag (up.floatPrevPrev = .up) * power params gap)
      | .tb => orderDigit params split (min u.bsn v.bsn) (max u.bsn v.bsn)
      | .c5 | .c9 => 0
  | .dummy u, level =>
      match level with
      | .pair => 1
      | .c5 => params.maxScoreX2 - u.player.scoreX2
      | .c9 => max 0 ((params.maxUnplayed : Int) - u.player.unplayedCount)
      | _ => 0

/-- The signed total of a level over a set of edges. -/
def total (edges : List BracketEdge) (level : Level) : Int :=
  (edges.map fun edge => contribution params split edge level).sum

/-- All totals, from the highest level to the lowest. -/
def totals (edges : List BracketEdge) : List Int := Level.all.map (total params split edges)

end Digits

/-- A bracket that the scheme was made for: its slots are numbered by position, and their
players lie within the ranges of the parameters. -/
structure BracketFits (params : WeightSchemeParams) (slots : List BracketSlot) : Prop where
  size : slots.length ≤ params.n
  range : params.minScoreX2 ≤ params.maxScoreX2
  scores : ∀ slot ∈ slots, params.minScoreX2 ≤ slot.player.scoreX2 ∧
    slot.player.scoreX2 ≤ params.maxScoreX2
  unplayed : ∀ slot ∈ slots, slot.player.unplayedCount ≤ params.maxUnplayed
  positions : slots.map BracketSlot.bsn = List.range slots.length

/-- Edges between slots of the bracket, no slot twice, and at most one bye. -/
structure BracketMatching (slots : List BracketSlot) (edges : List BracketEdge) : Prop where
  inside : ∀ edge ∈ edges, ∀ slot ∈ edge.ends, slot ∈ slots
  disjoint : ((edges.flatMap BracketEdge.ends).map BracketSlot.bsn).Nodup
  oneBye : edges.countP BracketEdge.isDummy ≤ 1

theorem BracketFits.bsn_lt {params : WeightSchemeParams} {slots : List BracketSlot}
    (fits : BracketFits params slots) {slot : BracketSlot} (inside : slot ∈ slots) :
    slot.bsn < params.n := by
  have listed : slot.bsn ∈ slots.map BracketSlot.bsn := List.mem_map.mpr ⟨slot, inside, rfl⟩
  rw [fits.positions, List.mem_range] at listed
  exact listed.trans_le fits.size

section Lookups

theorem bpow_eq (base : Int) (e : Nat) : bpow base e = base ^ e := by
  unfold bpow
  rw [Int.toNat_natCast]
  induction e with
  | zero => rw [pow_zero, List.range_zero, List.foldl_nil]
  | succ e ih => rw [List.range_succ, List.foldl_append, ih, List.foldl_cons, List.foldl_nil, pow_succ]

theorem readAt_range (count : Nat) (f : Nat → Int) (index : Int) (low : 0 ≤ index)
    (high : index < count) :
    readAt ((List.range count).map f) index = some (f index.toNat) := by
  have inside : index.toNat < count := by omega
  rw [readAt, if_pos low, List.getElem?_map, List.getElem?_range inside, Option.map_some]

variable {params : WeightSchemeParams}

theorem vp_ok (e : Int) (what : String) (low : 0 ≤ e)
    (high : e ≤ params.maxScoreX2 - params.minScoreX2 + 2) :
    (weightScheme params).vp e what = .ok (power params e) := by
  have found := readAt_range (params.maxScoreX2 - params.minScoreX2 + 3).toNat
    (fun e => bpow ((params.n : Int) + 1) e) e low (by omega)
  rw [bpow_eq] at found
  simp only [WeightScheme.vp, weightScheme, found, power]

theorem tb_ok (e : Int) (low : 0 ≤ e) (high : e ≤ params.n) :
    (weightScheme params).tb e = .ok (tbPower params e) := by
  have found := readAt_range (params.n + 1) (fun e => bpow (2 * (params.n : Int) + 3) e) e low
    (by omega)
  rw [bpow_eq] at found
  simp only [WeightScheme.tb, weightScheme, found, tbPower]

theorem vpIf_ok (applies : Prop) [Decidable applies] (e : Int) (what : String) (low : 0 ≤ e)
    (high : e ≤ params.maxScoreX2 - params.minScoreX2 + 2) :
    (weightScheme params).vpIf applies e what = .ok (flag applies * power params e) := by
  unfold WeightScheme.vpIf flag
  by_cases holds : applies
  · rw [if_pos holds, if_pos holds, vp_ok e what low high, one_mul]
  · rw [if_neg holds, if_neg holds, zero_mul]
    rfl

end Lookups

section Weights

variable {params : WeightSchemeParams} {slots : List BracketSlot}

theorem scoreGap_le (fits : BracketFits params slots) {u v : BracketSlot} (left : u ∈ slots)
    (right : v ∈ slots) :
    0 ≤ scoreGap u v ∧ scoreGap u v ≤ params.maxScoreX2 - params.minScoreX2 := by
  have first := fits.scores u left
  have second := fits.scores v right
  unfold scoreGap
  omega

theorem ite_flag (p : Prop) [Decidable p] (x : Int) : (if p then x else 0) = flag p * x := by
  unfold flag
  by_cases holds : p
  · rw [if_pos holds, if_pos holds, one_mul]
  · rw [if_neg holds, if_neg holds, zero_mul]

theorem floatPenalty_ok (down up : SwissPlayer) (gap : Int) (low : 0 ≤ gap)
    (high : gap ≤ params.maxScoreX2 - params.minScoreX2 + 2) :
    (weightScheme params).floatPenalty down up gap =
      .ok (flag (up.floatPrev = .up) * (weightScheme params).bases.baseC15 +
        (weightScheme params).bases.baseC19 * (flag (up.floatPrev = .up) * power params gap) +
        flag (up.floatPrevPrev = .up) * (weightScheme params).bases.baseC17 +
        (weightScheme params).bases.baseC21 * (flag (up.floatPrevPrev = .up) * power params gap) +
        (weightScheme params).bases.baseC18 * (flag (down.floatPrev = .down) * power params gap) +
        (weightScheme params).bases.baseC20 *
          (flag (down.floatPrevPrev = .down) * power params gap)) := by
  unfold WeightScheme.floatPenalty
  simp only [vpIf_ok _ gap _ low high, bind, Except.bind, pure, Except.pure, ite_flag]

theorem orderBonus_ok (fits : BracketFits params slots) (split : Int) {u v : BracketSlot}
    (left : u ∈ slots) (right : v ∈ slots) :
    (weightScheme params).orderBonus u v split =
      .ok (orderDigit params split (min u.bsn v.bsn) (max u.bsn v.bsn)) := by
  have first := fits.bsn_lt left
  have second := fits.bsn_lt right
  have named : (weightScheme params).params = params := rfl
  unfold WeightScheme.orderBonus
  rw [named]
  by_cases below : u.bsn < v.bsn
  · simp only [below, if_true]
    rw [tb_ok _ (by omega) (by omega), tb_ok _ (by omega) (by omega),
      min_eq_left below.le, max_eq_right below.le]
    rfl
  · simp only [below, if_false]
    rw [tb_ok _ (by omega) (by omega), tb_ok _ (by omega) (by omega),
      min_eq_right (by omega), max_eq_left (by omega)]
    rfl

/-- The float penalties of a pair, level by level. -/
def floatDigits (params : WeightSchemeParams) (bases : LevelBases) (u v : BracketSlot) : Int :=
  bases.baseC15 * contribution params 0 (.real u v) .c15 +
    bases.baseC17 * contribution params 0 (.real u v) .c17 +
    bases.baseC18 * contribution params 0 (.real u v) .c18 +
    bases.baseC19 * contribution params 0 (.real u v) .c19 +
    bases.baseC20 * contribution params 0 (.real u v) .c20 +
    bases.baseC21 * contribution params 0 (.real u v) .c21

theorem mixedPenalty_ok (fits : BracketFits params slots) {u v : BracketSlot} (left : u ∈ slots)
    (right : v ∈ slots) :
    (weightScheme params).mixedPenalty u.player v.player (scoreGap u v) =
      .ok (-floatDigits params (weightScheme params).bases u v) := by
  have gap := scoreGap_le fits left right
  unfold WeightScheme.mixedPenalty
  rw [floatPenalty_ok _ _ _ gap.1 (by omega), floatPenalty_ok _ _ _ gap.1 (by omega)]
  by_cases positive : 0 < scoreGap u v
  · have on : flag (0 < scoreGap u v) = 1 := by rw [flag, if_pos positive]
    rw [if_pos positive]
    simp only [floatDigits, contribution, on]
    by_cases higher : v.player.scoreX2 < u.player.scoreX2
    · rw [if_pos higher, downSide, upSide, if_pos higher, if_pos higher, Except.ok.injEq]
      ring
    · rw [if_neg higher, downSide, upSide, if_neg higher, if_neg higher, Except.ok.injEq]
      ring
  · have off : flag (0 < scoreGap u v) = 0 := by rw [flag, if_neg positive]
    rw [if_neg positive]
    simp only [floatDigits, contribution, off]
    simp [pure, Except.pure]

theorem residentBonus_eq (slot : BracketSlot) :
    (weightScheme params).residentBonus slot =
      (weightScheme params).bases.baseC14 * residentDown slot slot.player.floatPrev +
        (weightScheme params).bases.baseC16 * residentDown slot slot.player.floatPrevPrev := by
  simp only [WeightScheme.residentBonus, residentDown, ite_flag]
  ring

/-- The weight of an edge is the value of its digits; no lookup fails. -/
theorem edgeWeight_ok (fits : BracketFits params slots) (split : Int) (edge : BracketEdge)
    (inside : ∀ slot ∈ edge.ends, slot ∈ slots) :
    edgeWeight (weightScheme params) split edge =
      .ok (MixedRadix.value (weightScheme params).bases.unit Level.all
        (contribution params split edge)) := by
  cases edge with
  | dummy u =>
      simp only [edgeWeight, WeightScheme.dummyEdgeWeight, MixedRadix.value, Level.all,
        List.map_cons, List.map_nil, List.sum_cons, List.sum_nil, contribution, LevelBases.unit,
        Except.ok.injEq]
      have named : (weightScheme params).params = params := rfl
      rw [named]
      ring
  | real u v =>
      have left : u ∈ slots := inside u (by simp [BracketEdge.ends])
      have right : v ∈ slots := inside v (by simp [BracketEdge.ends])
      have first := fits.scores u left
      have second := fits.scores v right
      have gap := scoreGap_le fits left right
      have named : (weightScheme params).params = params := rfl
      have gapIs : ((u.player.scoreX2 - v.player.scoreX2).natAbs : Int) = scoreGap u v := rfl
      simp only [edgeWeight, WeightScheme.realEdgeWeight, named, gapIs]
      rw [vp_ok _ _ (by omega) (by omega), vp_ok _ _ (by omega) (by omega),
        vpIf_ok _ _ _ gap.1 (by omega), mixedPenalty_ok fits left right,
        orderBonus_ok fits split left right]
      simp only [bind, Except.bind, pure, Except.pure, residentBonus_eq, floatDigits,
        MixedRadix.value, Level.all, List.map_cons, List.map_nil, List.sum_cons, List.sum_nil,
        contribution, LevelBases.unit, Except.ok.injEq]
      have unitTB : (weightScheme params).bases.baseTB = 1 := rfl
      rw [unitTB]
      ring

end Weights

end Farzin.Swiss
