import Farzin.FairPlayCases
import Mathlib.Algebra.BigOperators.Group.List.Basic
import Mathlib.Algebra.Order.BigOperators.Group.List
import Mathlib.Data.List.Induction
import Mathlib.Data.List.Perm.Subperm
import Mathlib.Tactic.Linarith
import Mathlib.Tactic.NormNum

set_option autoImplicit false

/- The score of the signals against a player, loop by loop
(`core/fairplay/suspicion-aggregation.ts`), and its laws. -/
namespace Farzin.SuspicionAggregation

open FairPlay (SignalType clamp01 maxByKind signalTypes)

abbrev SuspicionSignal := SignalType × Rat

/-- One pass of the first loop. The map holds its kinds in the order in which they came, and a
stronger signal takes the place of the one of its kind. -/
def noteSignal (strongest : List SuspicionSignal) (s : SuspicionSignal) : List SuspicionSignal :=
  let strength := clamp01 s.2
  match strongest.find? (fun entry => entry.1 = s.1) with
  | none => strongest ++ [(s.1, strength)]
  | some current =>
      if current.2 < strength then
        strongest.map fun entry => if entry.1 = s.1 then (s.1, strength) else entry
      else strongest

/-- One pass of the second loop: the sum of the weights and the weighted sum. -/
def addWeighted (sums : Rat × Rat) (entry : SuspicionSignal) : Rat × Rat :=
  if entry.1.weight ≤ 0 then sums
  else (sums.1 + entry.1.weight, sums.2 + entry.1.weight * entry.2)

def aggregateSuspicion (signals : List SuspicionSignal) : Option Rat :=
  let sums := (signals.foldl noteSignal []).foldl addWeighted (0, 0)
  if sums.1 = 0 then none else some (clamp01 (sums.2 / sums.1))

section Loops

theorem max?_concat (l : List Rat) (a : Rat) :
    (l ++ [a]).max? = some (l.max?.elim a fun b => max b a) := by
  cases l with
  | nil => rfl
  | cons b l =>
      rw [List.cons_append, List.max?_cons', List.max?_cons', List.foldl_append]
      rfl

theorem maxByKind_concat (signals : List SuspicionSignal) (s : SuspicionSignal)
    (kind : SignalType) : maxByKind (signals ++ [s]) kind =
      if s.1 = kind then
        some ((maxByKind signals kind).elim (clamp01 s.2) fun strength =>
          max strength (clamp01 s.2))
      else maxByKind signals kind := by
  unfold maxByKind
  rw [List.filter_append, List.map_append]
  by_cases same : s.1 = kind
  · rw [if_pos same, List.filter_cons_of_pos (by simp [same]), List.filter_nil]
    exact max?_concat _ _
  · rw [if_neg same, List.filter_cons_of_neg (by simp [same]), List.filter_nil, List.map_nil,
      List.append_nil]

/-- The map of the first loop: one entry for each kind that has come, with its strongest signal. -/
structure Holds (signals strongest : List SuspicionSignal) : Prop where
  once : (strongest.map Prod.fst).Nodup
  mem : ∀ kind strength, (kind, strength) ∈ strongest ↔ maxByKind signals kind = some strength

variable {signals strongest : List SuspicionSignal} {s : SuspicionSignal}

/-- A kind that comes for the first time. -/
theorem Holds.first (holds : Holds signals strongest)
    (absent : ∀ entry ∈ strongest, entry.1 ≠ s.1) :
    Holds (signals ++ [s]) (strongest ++ [(s.1, clamp01 s.2)]) := by
  have none : maxByKind signals s.1 = none := by
    cases found : maxByKind signals s.1 with
    | none => rfl
    | some strength =>
        exact (absent (s.1, strength) ((holds.mem s.1 strength).mpr found) rfl).elim
  refine ⟨?_, fun kind strength => ?_⟩
  · rw [List.map_append, List.map_singleton, List.nodup_append]
    refine ⟨holds.once, List.nodup_singleton _, fun kind listed other same => ?_⟩
    obtain ⟨entry, inside, rfl⟩ := List.mem_map.mp listed
    rw [List.mem_singleton.mp same]
    exact absent entry inside
  · rw [List.mem_append, List.mem_singleton, maxByKind_concat, Prod.mk.injEq, holds.mem]
    by_cases same : s.1 = kind
    · subst same
      rw [if_pos rfl, none, Option.elim_none, Option.some_inj]
      simp [eq_comm]
    · rw [if_neg same]
      simp [Ne.symm same]

/-- A kind that has come before keeps the stronger of its two signals. -/
theorem Holds.again (holds : Holds signals strongest) {current : Rat}
    (present : (s.1, current) ∈ strongest) :
    Holds (signals ++ [s])
      (strongest.map fun entry =>
        if entry.1 = s.1 then (s.1, max current (clamp01 s.2)) else entry) := by
  have known := (holds.mem s.1 current).mp present
  have kinds : (strongest.map fun entry =>
      if entry.1 = s.1 then (s.1, max current (clamp01 s.2)) else entry).map Prod.fst =
        strongest.map Prod.fst := by
    rw [List.map_map]
    refine List.map_congr_left fun entry _ => ?_
    by_cases same : entry.1 = s.1
    · simp [same]
    · simp [same]
  refine ⟨kinds ▸ holds.once, fun kind strength => ?_⟩
  rw [List.mem_map, maxByKind_concat]
  by_cases same : s.1 = kind
  · subst same
    rw [if_pos rfl, known, Option.elim_some, Option.some_inj]
    constructor
    · rintro ⟨entry, -, made⟩
      by_cases own : entry.1 = s.1
      · rw [if_pos own] at made
        exact congrArg Prod.snd made
      · rw [if_neg own] at made
        exact absurd (congrArg Prod.fst made) own
    · rintro rfl
      exact ⟨(s.1, current), present, if_pos rfl⟩
  · rw [if_neg same, ← holds.mem]
    constructor
    · rintro ⟨entry, inside, made⟩
      by_cases own : entry.1 = s.1
      · rw [if_pos own] at made
        exact absurd (congrArg Prod.fst made) same
      · rw [if_neg own] at made
        exact made ▸ inside
    · intro inside
      exact ⟨(kind, strength), inside, if_neg (Ne.symm same)⟩

theorem noteSignal_holds (holds : Holds signals strongest) (s : SuspicionSignal) :
    Holds (signals ++ [s]) (noteSignal strongest s) := by
  unfold noteSignal
  dsimp only
  cases found : strongest.find? fun entry => entry.1 = s.1 with
  | none =>
      apply holds.first
      intro entry inside
      simpa using List.find?_eq_none.mp found entry inside
  | some current =>
      have present : (s.1, current.2) ∈ strongest := by
        have kind : current.1 = s.1 := by simpa using List.find?_some found
        rw [← kind]
        exact List.mem_of_find?_eq_some found
      have again := holds.again present
      dsimp only
      by_cases stronger : current.2 < clamp01 s.2
      · rw [if_pos stronger]
        rw [max_eq_right stronger.le] at again
        exact again
      · rw [if_neg stronger]
        rw [max_eq_left (not_lt.mp stronger)] at again
        -- Writing the strength that is there already changes no entry.
        have same : strongest.map (fun entry =>
            if entry.1 = s.1 then (s.1, current.2) else entry) = strongest := by
          refine (List.map_congr_left fun entry inside => ?_).trans (List.map_id _)
          by_cases own : entry.1 = s.1
          · rw [if_pos own]
            exact (List.inj_on_of_nodup_map holds.once inside present own).symm
          · exact if_neg own
        rw [same] at again
        exact again

theorem foldl_holds (signals : List SuspicionSignal) :
    Holds signals (signals.foldl noteSignal []) := by
  induction signals using List.reverseRecOn with
  | nil => exact ⟨List.nodup_nil, fun kind strength => by simp [maxByKind]⟩
  | append_singleton signals s ih =>
      rw [List.foldl_append]
      exact noteSignal_holds ih s

theorem foldl_addWeighted (strongest : List SuspicionSignal) (sums : Rat × Rat) :
    strongest.foldl addWeighted sums =
      (sums.1 + ((strongest.filter fun entry => 0 < entry.1.weight).map (·.1.weight)).sum,
        sums.2 + ((strongest.filter fun entry => 0 < entry.1.weight).map
          fun entry => entry.1.weight * entry.2).sum) := by
  induction strongest generalizing sums with
  | nil => simp
  | cons entry strongest ih =>
      rw [List.foldl_cons, ih]
      unfold addWeighted
      by_cases weighted : 0 < entry.1.weight
      · rw [if_neg (not_le.mpr weighted), List.filter_cons_of_pos (by simp [weighted])]
        simp only [List.map_cons, List.sum_cons]
        rw [add_assoc, add_assoc]
      · rw [if_pos (not_lt.mp weighted), List.filter_cons_of_neg (by simp [weighted])]

end Loops

section Counted

/-- The kinds of a list that have a weight and a signal, with their strongest signals. -/
def countedKinds (signals : List SuspicionSignal) (kinds : List SignalType) :
    List SuspicionSignal :=
  kinds.filterMap fun kind =>
    if kind.weight ≤ 0 then none else (maxByKind signals kind).map fun strength => (kind, strength)

theorem mem_countedKinds (signals : List SuspicionSignal) (kinds : List SignalType)
    (entry : SuspicionSignal) : entry ∈ countedKinds signals kinds ↔
      entry.1 ∈ kinds ∧ 0 < entry.1.weight ∧ maxByKind signals entry.1 = some entry.2 := by
  unfold countedKinds
  rw [List.mem_filterMap]
  constructor
  · rintro ⟨kind, inside, made⟩
    split at made
    · cases made
    · next weighted =>
        obtain ⟨strength, found, rfl⟩ := Option.map_eq_some_iff.mp made
        exact ⟨inside, not_le.mp weighted, found⟩
  · rintro ⟨inside, weighted, found⟩
    refine ⟨entry.1, inside, ?_⟩
    rw [if_neg (not_le.mpr weighted), found]
    rfl

theorem countedKinds_nodup (signals : List SuspicionSignal) {kinds : List SignalType}
    (once : kinds.Nodup) : (countedKinds signals kinds).Nodup := by
  refine once.filterMap fun kind other entry made also => ?_
  split at made
  · cases made
  split at also
  · cases also
  obtain ⟨strength, -, rfl⟩ := Option.map_eq_some_iff.mp made
  obtain ⟨strength', -, same⟩ := Option.map_eq_some_iff.mp also
  exact (congrArg Prod.fst same).symm

theorem mem_signalTypes (kind : SignalType) : kind ∈ signalTypes := by
  cases kind <;> decide

/-- The entries of the map that have a weight, in the order of the table. -/
theorem Holds.perm {signals strongest : List SuspicionSignal} (holds : Holds signals strongest) :
    (strongest.filter fun entry => 0 < entry.1.weight).Perm (countedKinds signals signalTypes) := by
  have once : strongest.Nodup := List.Nodup.of_map _ holds.once
  rw [List.perm_ext_iff_of_nodup (once.filter _) (countedKinds_nodup signals (by decide))]
  intro entry
  rw [List.mem_filter, mem_countedKinds, decide_eq_true_iff, ← holds.mem]
  exact ⟨fun h => ⟨mem_signalTypes _, h.2, h.1⟩, fun h => ⟨h.2.2, h.2.1⟩⟩

theorem counted_eq (signals : List SuspicionSignal) (kinds : List SignalType) :
    (kinds.filterMap fun kind =>
      if kind.weight ≤ 0 then none
      else (maxByKind signals kind).map fun strength => (kind.weight, strength)) =
    (countedKinds signals kinds).map fun entry => (entry.1.weight, entry.2) := by
  unfold countedKinds
  rw [List.map_filterMap]
  congr 1
  funext kind
  split
  · rfl
  · rw [Option.map_map]
    rfl

/-- The loops compute the weighted mean of the strongest signals. -/
theorem aggregateSuspicion_eq (signals : List SuspicionSignal) :
    aggregateSuspicion signals = FairPlay.aggregateSuspicion signals := by
  have perm := (foldl_holds signals).perm
  unfold aggregateSuspicion FairPlay.aggregateSuspicion
  rw [foldl_addWeighted, counted_eq, (perm.map _).sum_eq, (perm.map _).sum_eq, zero_add, zero_add]
  dsimp only
  rw [List.map_map, List.map_map]
  rfl

theorem aggregateSuspicion_of_counted (signals : List SuspicionSignal) :
    aggregateSuspicion signals =
      let counted := countedKinds signals signalTypes
      if (counted.map (·.1.weight)).sum = 0 then none
      else some (clamp01 ((counted.map fun entry => entry.1.weight * entry.2).sum /
        (counted.map (·.1.weight)).sum)) := by
  rw [aggregateSuspicion_eq]
  unfold FairPlay.aggregateSuspicion
  rw [counted_eq]
  dsimp only
  rw [List.map_map, List.map_map]
  rfl

theorem countedKinds_weight_pos (signals : List SuspicionSignal) (kinds : List SignalType) :
    ∀ weight ∈ (countedKinds signals kinds).map (·.1.weight), 0 < weight := by
  intro weight inside
  obtain ⟨entry, listed, rfl⟩ := List.mem_map.mp inside
  exact ((mem_countedKinds signals kinds entry).mp listed).2.1

/-- The weights sum to zero only when there are none. -/
theorem sum_eq_zero_iff_of_pos {weights : List Rat} (positive : ∀ weight ∈ weights, 0 < weight) :
    weights.sum = 0 ↔ weights = [] := by
  constructor
  · intro zero
    by_contra some
    exact (List.sum_pos weights positive some).ne' zero
  · rintro rfl
    rfl

end Counted

section Laws

variable {signals others : List SuspicionSignal}

theorem maxByKind_eq_some_iff {kind : SignalType} {strength : Rat} :
    maxByKind signals kind = some strength ↔
      (∃ x, (kind, x) ∈ signals ∧ clamp01 x = strength) ∧
        ∀ x, (kind, x) ∈ signals → clamp01 x ≤ strength := by
  unfold maxByKind
  rw [List.max?_eq_some_iff, List.mem_map]
  constructor
  · rintro ⟨⟨s, inside, rfl⟩, greatest⟩
    obtain ⟨listed, same⟩ := List.mem_filter.mp inside
    rw [decide_eq_true_iff] at same
    subst same
    refine ⟨⟨s.2, listed, rfl⟩, fun x given => greatest _ ?_⟩
    exact List.mem_map.mpr ⟨(s.1, x), List.mem_filter.mpr ⟨given, by simp⟩, rfl⟩
  · rintro ⟨⟨x, listed, rfl⟩, greatest⟩
    refine ⟨⟨(kind, x), List.mem_filter.mpr ⟨listed, by simp⟩, rfl⟩, fun y given => ?_⟩
    obtain ⟨s, inside, rfl⟩ := List.mem_map.mp given
    obtain ⟨present, same⟩ := List.mem_filter.mp inside
    rw [decide_eq_true_iff] at same
    subst same
    exact greatest s.2 present

theorem maxByKind_eq_none_iff {kind : SignalType} :
    maxByKind signals kind = none ↔ ∀ s ∈ signals, s.1 ≠ kind := by
  unfold maxByKind
  rw [List.max?_eq_none_iff, List.map_eq_nil_iff, List.filter_eq_nil_iff]
  simp

/-- The strongest signal depends on which signals of the kind there are. -/
theorem maxByKind_congr {kind : SignalType}
    (same : ∀ x, (kind, x) ∈ signals ↔ (kind, x) ∈ others) :
    maxByKind signals kind = maxByKind others kind := by
  ext strength
  rw [maxByKind_eq_some_iff, maxByKind_eq_some_iff]
  simp only [same]

/-- The score depends on which signals of the weighted kinds there are. -/
theorem aggregateSuspicion_congr
    (same : ∀ s : SuspicionSignal, 0 < s.1.weight → (s ∈ signals ↔ s ∈ others)) :
    aggregateSuspicion signals = aggregateSuspicion others := by
  have counted : countedKinds signals signalTypes = countedKinds others signalTypes := by
    unfold countedKinds
    refine List.filterMap_congr fun kind _ => ?_
    by_cases weighted : 0 < kind.weight
    · rw [maxByKind_congr fun x => same (kind, x) weighted]
    · rw [if_pos (not_lt.mp weighted), if_pos (not_lt.mp weighted)]
  rw [aggregateSuspicion_of_counted, aggregateSuspicion_of_counted, counted]

theorem aggregateSuspicion_none_iff_counted :
    aggregateSuspicion signals = none ↔ countedKinds signals signalTypes = [] := by
  rw [← List.map_eq_nil_iff, ← sum_eq_zero_iff_of_pos (countedKinds_weight_pos signals signalTypes),
    aggregateSuspicion_of_counted]
  dsimp only
  split
  · next zero => exact ⟨fun _ => zero, fun _ => rfl⟩
  · next nonzero => exact ⟨fun none => (by cases none), fun zero => absurd zero nonzero⟩

theorem aggregateSuspicion_eq_none_iff :
    aggregateSuspicion signals = none ↔ ∀ s ∈ signals, ¬ 0 < s.1.weight := by
  rw [aggregateSuspicion_none_iff_counted, List.eq_nil_iff_forall_not_mem]
  constructor
  · intro empty s listed weighted
    cases found : maxByKind signals s.1 with
    | none => exact maxByKind_eq_none_iff.mp found s listed rfl
    | some strength =>
        exact empty (s.1, strength)
          ((mem_countedKinds _ _ _).mpr ⟨mem_signalTypes _, weighted, found⟩)
  · intro unweighted entry inside
    obtain ⟨-, weighted, found⟩ := (mem_countedKinds _ _ _).mp inside
    obtain ⟨⟨x, listed, -⟩, -⟩ := maxByKind_eq_some_iff.mp found
    exact unweighted _ listed weighted

theorem clamp01_mem_unit (x : Rat) : 0 ≤ clamp01 x ∧ clamp01 x ≤ 1 := by
  unfold clamp01
  exact ⟨le_max_left _ _, max_le (by norm_num) (min_le_left _ _)⟩

theorem clamp01_mono {x y : Rat} (le : x ≤ y) : clamp01 x ≤ clamp01 y :=
  max_le_max le_rfl (min_le_min le_rfl le)

theorem aggregateSuspicion_mem_unit {score : Rat}
    (scored : aggregateSuspicion signals = some score) : 0 ≤ score ∧ score ≤ 1 := by
  rw [aggregateSuspicion_of_counted] at scored
  dsimp only at scored
  split at scored
  · cases scored
  · rw [← Option.some_inj.mp scored]
    exact clamp01_mem_unit _

end Laws

section Raised

/-- The same kind with at least the strength. -/
def Raised (s t : SuspicionSignal) : Prop :=
  s.1 = t.1 ∧ s.2 ≤ t.2

variable {signals others : List SuspicionSignal}

theorem Raised.refl (s : SuspicionSignal) : Raised s s :=
  ⟨rfl, le_rfl⟩

theorem maxByKind_cons (s : SuspicionSignal) (signals : List SuspicionSignal)
    (kind : SignalType) : maxByKind (s :: signals) kind =
      if s.1 = kind then
        some ((maxByKind signals kind).elim (clamp01 s.2) fun strength =>
          max (clamp01 s.2) strength)
      else maxByKind signals kind := by
  unfold maxByKind
  by_cases same : s.1 = kind
  · rw [if_pos same, List.filter_cons_of_pos (by simp [same]), List.map_cons]
    exact List.max?_cons
  · rw [if_neg same, List.filter_cons_of_neg (by simp [same])]

/-- A kind keeps its presence, and its strongest signal does not weaken. -/
theorem maxByKind_raised (raised : List.Forall₂ Raised signals others) (kind : SignalType) :
    (maxByKind signals kind = none ∧ maxByKind others kind = none) ∨
      ∃ x y, maxByKind signals kind = some x ∧ maxByKind others kind = some y ∧ x ≤ y := by
  induction raised with
  | nil => exact Or.inl ⟨rfl, rfl⟩
  | @cons s t signals others step rest ih =>
      have le := clamp01_mono step.2
      rw [maxByKind_cons, maxByKind_cons, ← step.1]
      by_cases same : s.1 = kind
      · rw [if_pos same, if_pos same]
        right
        obtain ⟨absent, absent'⟩ | ⟨x, y, found, found', weaker⟩ := ih
        · rw [absent, absent']
          exact ⟨_, _, rfl, rfl, le⟩
        · rw [found, found']
          exact ⟨_, _, rfl, rfl, max_le_max le weaker⟩
      · rw [if_neg same, if_neg same]
        exact ih

theorem countedKinds_raised (raised : List.Forall₂ Raised signals others)
    (kinds : List SignalType) :
    List.Forall₂ Raised (countedKinds signals kinds) (countedKinds others kinds) := by
  unfold countedKinds
  induction kinds with
  | nil => exact List.Forall₂.nil
  | cons kind kinds ih =>
      rw [List.filterMap_cons, List.filterMap_cons]
      by_cases weightless : kind.weight ≤ 0
      · simpa only [if_pos weightless] using ih
      · simp only [if_neg weightless]
        obtain ⟨absent, absent'⟩ | ⟨x, y, found, found', weaker⟩ := maxByKind_raised raised kind
        · rw [absent, absent']
          exact ih
        · rw [found, found']
          exact List.Forall₂.cons ⟨rfl, weaker⟩ ih

theorem sum_weight_raised {counted counted' : List SuspicionSignal}
    (raised : List.Forall₂ Raised counted counted') :
    (counted.map (·.1.weight)).sum = (counted'.map (·.1.weight)).sum := by
  induction raised with
  | nil => rfl
  | cons step rest ih => rw [List.map_cons, List.map_cons, List.sum_cons, List.sum_cons, ih, step.1]

theorem sum_weighted_raised {counted counted' : List SuspicionSignal}
    (raised : List.Forall₂ Raised counted counted')
    (weighted : ∀ entry ∈ counted, 0 < entry.1.weight) :
    (counted.map fun entry => entry.1.weight * entry.2).sum ≤
      (counted'.map fun entry => entry.1.weight * entry.2).sum := by
  induction raised with
  | nil => exact le_rfl
  | @cons s t counted counted' step rest ih =>
      rw [List.map_cons, List.map_cons, List.sum_cons, List.sum_cons, ← step.1]
      have positive := weighted s List.mem_cons_self
      have later := ih fun entry inside => weighted entry (List.mem_cons_of_mem _ inside)
      exact add_le_add (mul_le_mul_of_nonneg_left step.2 positive.le) later

/-- Stronger signals give no lower score, and the same presence of a score. -/
theorem aggregateSuspicion_raised (raised : List.Forall₂ Raised signals others) :
    (aggregateSuspicion signals = none ∧ aggregateSuspicion others = none) ∨
      ∃ x y, aggregateSuspicion signals = some x ∧ aggregateSuspicion others = some y ∧ x ≤ y := by
  have counted := countedKinds_raised raised signalTypes
  have le := sum_weighted_raised counted fun entry inside =>
    ((mem_countedKinds _ _ _).mp inside).2.1
  have nonneg : 0 ≤ ((countedKinds others signalTypes).map (·.1.weight)).sum :=
    List.sum_nonneg fun weight inside => (countedKinds_weight_pos others _ weight inside).le
  rw [aggregateSuspicion_of_counted, aggregateSuspicion_of_counted]
  dsimp only
  rw [sum_weight_raised counted]
  by_cases zero : ((countedKinds others signalTypes).map (·.1.weight)).sum = 0
  · exact Or.inl ⟨if_pos zero, if_pos zero⟩
  · refine Or.inr ⟨_, _, if_neg zero, if_neg zero, clamp01_mono ?_⟩
    exact div_le_div_of_nonneg_right le nonneg

theorem forall₂_raised_at (front back : List SuspicionSignal) {s t : SuspicionSignal}
    (raised : Raised s t) : List.Forall₂ Raised (front ++ s :: back) (front ++ t :: back) := by
  induction front with
  | nil => exact List.Forall₂.cons raised (List.forall₂_same.mpr fun s _ => Raised.refl s)
  | cons u front ih => exact List.Forall₂.cons (Raised.refl u) ih

end Raised

/-- The laws of the score. It is the same for every order of the signals and when one of them is
repeated; there is none exactly without a signal of a weighted kind, and else it is in `[0, 1]`;
a stronger signal does not lower it; and the rating jumps do not count. -/
theorem aggregateSuspicion_laws (signals : List SuspicionSignal) :
    (∀ others, signals.Perm others → aggregateSuspicion others = aggregateSuspicion signals) ∧
    (∀ front back s, signals = front ++ back → s ∈ signals →
      aggregateSuspicion (front ++ s :: back) = aggregateSuspicion signals) ∧
    (aggregateSuspicion signals = none ↔ ∀ s ∈ signals, ¬ 0 < s.1.weight) ∧
    (∀ score, aggregateSuspicion signals = some score → 0 ≤ score ∧ score ≤ 1) ∧
    (∀ front back kind x y, signals = front ++ (kind, x) :: back → x ≤ y →
      aggregateSuspicion (front ++ (kind, y) :: back) = none ∧ aggregateSuspicion signals = none ∨
      ∃ lower higher, aggregateSuspicion signals = some lower ∧
        aggregateSuspicion (front ++ (kind, y) :: back) = some higher ∧ lower ≤ higher) ∧
    (∀ others : List SuspicionSignal,
      others.filter (fun s => s.1 ≠ .ratingJump) = signals.filter (fun s => s.1 ≠ .ratingJump) →
      aggregateSuspicion others = aggregateSuspicion signals) := by
  refine ⟨fun others perm => ?_, fun front back s split inside => ?_,
    aggregateSuspicion_eq_none_iff, fun score => aggregateSuspicion_mem_unit,
    fun front back kind x y split le => ?_, fun others same => ?_⟩
  · exact aggregateSuspicion_congr fun s _ => perm.mem_iff.symm
  · refine aggregateSuspicion_congr fun t _ => ?_
    subst split
    rw [List.perm_middle.mem_iff, List.mem_cons]
    constructor
    · rintro (rfl | listed)
      · exact inside
      · exact listed
    · exact Or.inr
  · subst split
    have raised : Raised (kind, x) (kind, y) := ⟨rfl, le⟩
    obtain ⟨none, none'⟩ | scored :=
      aggregateSuspicion_raised (forall₂_raised_at front back raised)
    · exact Or.inl ⟨none', none⟩
    · exact Or.inr scored
  · refine aggregateSuspicion_congr fun s weighted => ?_
    have counts : decide (s.1 ≠ SignalType.ratingJump) = true := by
      rw [decide_eq_true_iff]
      intro jump
      rw [jump] at weighted
      exact absurd weighted (lt_irrefl _)
    have mem := congrArg (s ∈ ·) same
    simpa [List.mem_filter, of_decide_eq_true counts] using mem

/-- A rating jump beside a signal of timing, and the same signal stronger. -/
theorem aggregateSuspicion_laws_example :
    aggregateSuspicion [(.ratingJump, 1), (.timingAnomaly, 1 / 2)] = some (1 / 2) ∧
    (∃ lower higher,
      aggregateSuspicion [(.ratingJump, 1), (.timingAnomaly, 1 / 2)] = some lower ∧
      aggregateSuspicion [(.ratingJump, 1), (.timingAnomaly, 3 / 4)] = some higher ∧
      lower ≤ higher) ∧
    aggregateSuspicion [(.timingAnomaly, 1 / 2)] =
      aggregateSuspicion [(.ratingJump, 1), (.timingAnomaly, 1 / 2)] := by
  obtain ⟨-, -, -, -, raised, jumps⟩ :=
    aggregateSuspicion_laws [(.ratingJump, 1), (.timingAnomaly, 1 / 2)]
  have scored : aggregateSuspicion [(.ratingJump, 1), (.timingAnomaly, 1 / 2)] = some (1 / 2) := by
    decide +kernel
  refine ⟨scored, ?_, jumps [(.timingAnomaly, 1 / 2)] rfl⟩
  obtain ⟨-, none⟩ | higher :=
    raised [(.ratingJump, 1)] [] .timingAnomaly (1 / 2) (3 / 4) rfl (by norm_num)
  · rw [scored] at none
    cases none
  · exact higher

end Farzin.SuspicionAggregation
