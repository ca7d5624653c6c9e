import Farzin.SwissSound

set_option autoImplicit false

/- The colour allocation as a whole (`allocateColors` of `core/pairing/swiss/colors.ts`): it
does not depend on which side comes first, whom it satisfies, where it leaves the histories,
and that the diagnostics of a round report on the colours it has assigned. -/
namespace Farzin.Swiss

open Checked

section Swapping

/-- The same colours with the sides in the other order. -/
def ColorAllocation.swap (allocation : ColorAllocation) : ColorAllocation :=
  ⟨!allocation.firstIsWhite, allocation.rule⟩

@[simp] theorem swap_mk (first : Bool) (rule : AllocationRule) :
    (ColorAllocation.mk first rule).swap = ⟨!first, rule⟩ := rfl

theorem decide_opposite (color : Color) :
    decide (oppositeColor color = .white) = !decide (color = .white) := by
  cases color with
  | white => rfl
  | black => rfl

theorem lastDifference_swap (a b : List Color) :
    lastDifference b a = (lastDifference a b).map oppositeColor := by
  have zipped : ∀ (xs ys : List Color),
      ((ys.zip xs).find? fun games => decide (games.1 ≠ games.2)).map Prod.fst =
        (((xs.zip ys).find? fun games => decide (games.1 ≠ games.2)).map Prod.fst).map
          oppositeColor := by
    intro xs
    induction xs with
    | nil => simp
    | cons x xs ih =>
        intro ys
        cases ys with
        | nil => simp
        | cons y ys =>
            by_cases same : x = y
            · subst same
              simpa using ih ys
            · have other := eq_opposite same
              simp [same, Ne.symm same, ← other]
  exact zipped a.reverse b.reverse

variable {a b : ColorAllocationSide}

theorem allocateByRank_swap (apart : a.rankIndex ≠ b.rankIndex) (initialColor : Color) :
    allocateByRank b a initialColor = (allocateByRank a b initialColor).swap := by
  unfold allocateByRank
  rcases Nat.lt_or_gt_of_ne apart with higher | lower
  · have back : ¬ b.rankIndex < a.rankIndex := by omega
    simp only [higher, back, decide_true, decide_false, if_true, Bool.false_eq_true, if_false]
    cases a.pref.color with
    | none => rfl
    | some color => rfl
  · have back : ¬ a.rankIndex < b.rankIndex := by omega
    simp only [lower, back, decide_true, decide_false, if_true, Bool.false_eq_true, if_false]
    cases b.pref.color with
    | none => simp
    | some color => simp

theorem allocateByHistory_swap (apart : a.rankIndex ≠ b.rankIndex) (initialColor : Color) :
    allocateByHistory b a initialColor = (allocateByHistory a b initialColor).swap := by
  unfold allocateByHistory
  rw [lastDifference_swap]
  cases lastDifference a.history b.history with
  | none => exact allocateByRank_swap apart initialColor
  | some color => simp [decide_opposite]

/-- The winner of a comparison gets the colour that both want, whoever comes first. -/
theorem winner_swap {x y : Nat} (apart : x ≠ y) (color : Color) :
    (if decide (x < y) then decide (color = .white) else !decide (color = .white)) =
      !(if decide (y < x) then decide (color = .white) else !decide (color = .white)) := by
  rcases Nat.lt_or_gt_of_ne apart with less | greater
  · have back : ¬ y < x := by omega
    simp [less, back]
  · have back : ¬ x < y := by omega
    simp [greater, back]

theorem allocateSamePreference_swap (apart : a.rankIndex ≠ b.rankIndex)
    (color initialColor : Color) : allocateSamePreference b a color initialColor =
      (allocateSamePreference a b color initialColor).swap := by
  unfold allocateSamePreference
  by_cases differ : strengthOrder a.pref.strength ≠ strengthOrder b.pref.strength
  · simp only [if_pos differ, if_pos differ.symm, swap_mk, winner_swap differ]
  · have same : a.pref.strength = b.pref.strength := by
      have order := not_not.mp differ
      cases strengthA : a.pref.strength <;> cases strengthB : b.pref.strength <;>
        simp_all [strengthOrder]
    rw [if_neg differ, if_neg fun apart => differ apart.symm, same]
    by_cases wider : b.pref.strength = .absolute ∧ a.colorDiff.natAbs ≠ b.colorDiff.natAbs
    · rw [if_pos ⟨wider.1, wider.2.symm⟩, if_pos wider]
      simp only [swap_mk, winner_swap wider.2]
    · rw [if_neg fun both => wider ⟨both.1, both.2.symm⟩, if_neg wider]
      exact allocateByHistory_swap apart initialColor

/-- The order of the two sides does not matter. -/
theorem allocateColors_swap (apart : a.rankIndex ≠ b.rankIndex) (initialColor : Color) :
    allocateColors b a initialColor = (allocateColors a b initialColor).swap := by
  unfold allocateColors
  cases wantA : a.pref.color with
  | none =>
      cases b.pref.color with
      | none => exact allocateByHistory_swap apart initialColor
      | some prefB =>
          cases prefB with
          | white => rfl
          | black => rfl
  | some prefA =>
      cases b.pref.color with
      | none =>
          cases prefA with
          | white => rfl
          | black => rfl
      | some prefB =>
          dsimp only
          by_cases differ : prefA ≠ prefB
          · rw [if_pos differ, if_pos differ.symm, eq_opposite differ, swap_mk, decide_opposite]
          · have same : prefA = prefB := not_not.mp differ
            subst same
            rw [if_neg differ, if_neg differ]
            exact allocateSamePreference_swap apart prefA initialColor

end Swapping

section Granting

variable {a b : ColorAllocationSide} (initialColor : Color)

/-- Preferences for different colours, or one alone, are granted. -/
theorem allocateColors_grants
    (free : a.pref.color = none ∨ b.pref.color = none ∨ a.pref.color ≠ b.pref.color) :
    (∀ color, a.pref.color = some color →
        firstColor (allocateColors a b initialColor) = color) ∧
      (∀ color, b.pref.color = some color →
        oppositeColor (firstColor (allocateColors a b initialColor)) = color) := by
  unfold allocateColors
  cases wantA : a.pref.color with
  | none =>
      refine ⟨(fun color want => by cases want), fun color want => ?_⟩
      rw [want]
      cases color with
      | white => rfl
      | black => rfl
  | some prefA =>
      cases wantB : b.pref.color with
      | none =>
          refine ⟨fun color want => ?_, (fun color want => by cases want)⟩
          cases want
          exact firstColor_wants prefA .r521
      | some prefB =>
          have differ : prefA ≠ prefB := by
            rw [wantA, wantB] at free
            rcases free with none | none | apart
            · cases none
            · cases none
            · exact fun same => apart (congrArg some same)
          dsimp only
          rw [if_pos differ, firstColor_wants]
          refine ⟨fun color want => Option.some.inj want, fun color want => ?_⟩
          rw [← Option.some.inj want]
          exact (eq_opposite differ).symm

end Granting

section Bounds

/-- At most two games of one colour ahead, and never three of a colour in a row. -/
structure Balanced (history : List Color) : Prop where
  difference : (colorDifference history).natAbs ≤ 2
  noThree : ∀ color, ¬ [color, color, color] <:+: history

/-- The last two games had the colour that is two games behind, so that either colour breaks a
bound next. -/
def Cornered (history : List Color) : Prop :=
  ∃ color, colorDifference history = -2 * colorSign color ∧
    history.getLast? = some color ∧ history.dropLast.getLast? = some color

variable {history : List Color}

theorem colorSign_opposite (color : Color) : colorSign (oppositeColor color) = -colorSign color := by
  cases color with
  | white => rfl
  | black => rfl

theorem colorSign_cases (color : Color) : colorSign color = 1 ∨ colorSign color = -1 := by
  cases color with
  | white => exact .inl rfl
  | black => exact .inr rfl

theorem opposite_ne (color : Color) : color ≠ oppositeColor color := by
  cases color with
  | white => decide
  | black => decide

/-- Unless it is cornered a balanced history leaves a colour. -/
theorem Balanced.playable (balanced : Balanced history) (free : ¬ Cornered history) :
    Playable history := by
  have near := balanced.difference
  by_cases twice : ∃ color, history.getLast? = some color ∧
      history.dropLast.getLast? = some color
  · obtain ⟨color, last, before⟩ := twice
    have behind : colorDifference history ≠ -2 * colorSign color :=
      fun same => free ⟨color, same, last, before⟩
    refine ⟨oppositeColor color, ?_, fun both => ?_⟩
    · rw [colorSign_opposite]
      rcases colorSign_cases color with sign | sign
      · rw [sign] at behind ⊢
        omega
      · rw [sign] at behind ⊢
        omega
    · exact opposite_ne color (Option.some.inj (last.symm.trans both.1))
  · by_cases ahead : 0 < colorDifference history
    · refine ⟨.black, ?_, fun both => twice ⟨.black, both⟩⟩
      rw [show colorSign .black = -1 from rfl]
      omega
    · refine ⟨.white, ?_, fun both => twice ⟨.white, both⟩⟩
      rw [show colorSign .white = 1 from rfl]
      omega

/-- An allowed colour keeps a history balanced. -/
theorem Balanced.snoc (balanced : Balanced history) {got : Color} (allowed : Allowed history got) :
    Balanced (history ++ [got]) where
  difference := by
    rw [colorDifference_append, colorDifference_singleton]
    exact allowed.1
  noThree := noThree_snoc balanced.noThree allowed.2

/-- Whatever colour a cornered player gets, its history is not balanced after the game. -/
theorem Cornered.stuck (cornered : Cornered history) (got : Color) :
    ¬ Balanced (history ++ [got]) := by
  intro after
  obtain ⟨color, behind, last, before⟩ := cornered
  have near := after.difference
  rw [colorDifference_append, colorDifference_singleton, behind] at near
  by_cases same : got = color
  · rw [same] at after
    refine after.noThree color ⟨history.dropLast.dropLast, [], ?_⟩
    have whole : history = history.dropLast.dropLast ++ [color] ++ [color] := by
      rw [← split_last before, ← split_last last]
    rw [whole]
    simp
  · rw [eq_opposite (Ne.symm same), colorSign_opposite] at near
    rcases colorSign_cases color with sign | sign
    · rw [sign] at near
      omega
    · rw [sign] at near
      omega

variable {a b : SwissPlayer}

/-- The colours that `allocateColors` gives a pair that may meet keep both histories balanced. -/
theorem allocateColors_balanced (initialColor : Color) (preparedA : Prepared a)
    (preparedB : Prepared b) (meets : canMeet a b = true) (plainA : a.isTopscorer = false)
    (plainB : b.isTopscorer = false) (balancedA : Balanced a.state.colorHistory)
    (balancedB : Balanced b.state.colorHistory) (freeA : ¬ Cornered a.state.colorHistory)
    (freeB : ¬ Cornered b.state.colorHistory) :
    let got := firstColor (allocateColors (toAllocationSide a) (toAllocationSide b) initialColor)
    Balanced (a.state.colorHistory ++ [got]) ∧
      Balanced (b.state.colorHistory ++ [oppositeColor got]) := by
  have allowed := colorPair_allowed initialColor preparedA preparedB (balancedA.playable freeA)
    (balancedB.playable freeB) meets plainA plainB
  intro got
  unfold colorPair at allowed
  dsimp only at allowed
  cases first : (allocateColors (toAllocationSide a) (toAllocationSide b) initialColor).firstIsWhite
  · have colors : got = .black := by rw [show got = firstColor _ from rfl, firstColor, first]; rfl
    rw [first] at allowed
    rw [colors]
    exact ⟨balancedA.snoc allowed.2, balancedB.snoc allowed.1⟩
  · have colors : got = .white := by rw [show got = firstColor _ from rfl, firstColor, first]; rfl
    rw [first] at allowed
    rw [colors]
    exact ⟨balancedA.snoc allowed.1, balancedB.snoc allowed.2⟩

end Bounds

section Diagnostics

/-- The colours that a pair assigns. -/
def ColoredPair.assigned (pair : ColoredPair) : List (SwissPlayer × Color) :=
  [(pair.white, .white), (pair.black, .black)]

/-- Some player gets a colour that breaks something for its history. -/
def Assigns (colored : List ColoredPair) (broken : List Color → Color → Prop) : Prop :=
  ∃ pair ∈ colored, ∃ side ∈ pair.assigned, broken side.1.state.colorHistory side.2

/-- The colour criteria that diagnostics name are those that the assigned colours break. -/
structure ColorReport (colored : List ColoredPair) (diagnostics : PairingDiagnostics) : Prop where
  c10 : "C10" ∈ diagnostics.relaxedCriteria ↔
    Assigns colored fun history got => 2 < (colorDifference history + colorSign got).natAbs
  c11 : "C11" ∈ diagnostics.relaxedCriteria ↔ Assigns colored fun history got =>
    history.getLast? = some got ∧ history.dropLast.getLast? = some got
  c12 : "C12" ∈ diagnostics.relaxedCriteria ↔ Assigns colored fun history got =>
    (colorPreferenceOf history).color = some (oppositeColor got)
  c13 : "C13" ∈ diagnostics.relaxedCriteria ↔ Assigns colored fun history got =>
    (colorPreferenceOf history).color = some (oppositeColor got) ∧
      (colorPreferenceOf history).strength = .strong

theorem mem_relax {applies : Bool} {criterion c : String} {relaxed : List String} :
    c ∈ relax applies criterion relaxed ↔ c ∈ relaxed ∨ applies = true ∧ c = criterion := by
  unfold relax
  split
  · rename_i added
    rw [List.mem_append, List.mem_singleton]
    simp [added.1]
  · rename_i kept
    constructor
    · exact .inl
    · intro either
      rcases either with before | now
      · exact before
      · by_contra absent
        rw [now.2] at absent
        exact kept ⟨now.1, absent⟩

variable {initialColor : Color}

/-- The criteria on colours, by their numbers. -/
def colorCriteria : List String := ["C10", "C11", "C12", "C13"]

/-- Neither the floats of a pair nor the bye name a criterion on colours. -/
theorem mem_relaxFloats {c : String} (color : c ∈ colorCriteria) (down up : SwissPlayer)
    (relaxed : List String) : c ∈ relaxFloats down up relaxed ↔ c ∈ relaxed := by
  simp only [colorCriteria, List.mem_cons, List.not_mem_nil, or_false] at color
  rcases color with rfl | rfl | rfl | rfl <;> simp [relaxFloats, mem_relax]

theorem mem_relaxBye {c : String} (color : c ∈ colorCriteria) (pab : SwissPlayer)
    (relaxed : List String) : c ∈ relaxBye pab relaxed ↔ c ∈ relaxed := by
  simp only [colorCriteria, List.mem_cons, List.not_mem_nil, or_false] at color
  rcases color with rfl | rfl | rfl | rfl <;> simp [relaxBye, mem_relax]

theorem mem_relaxPair {c : String} (color : c ∈ colorCriteria) (count : ColorPenalties → Nat)
    (colors : ∀ pens relaxed, c ∈ relaxColors pens relaxed ↔ c ∈ relaxed ∨ 0 < count pens)
    (relaxed : List String) (pair : ColoredPair) : c ∈ relaxPair initialColor relaxed pair ↔
      c ∈ relaxed ∨ 0 < count (colorPenaltiesFor pair.white pair.black initialColor) := by
  unfold relaxPair
  dsimp only
  split
  · exact colors _ _
  · split
    · rw [mem_relaxFloats color, colors]
    · rw [mem_relaxFloats color, colors]

/-- A colour criterion is named when a pair has a penalty for it. -/
theorem mem_relaxedCriteria {c : String} (color : c ∈ colorCriteria)
    (count : ColorPenalties → Nat)
    (colors : ∀ pens relaxed, c ∈ relaxColors pens relaxed ↔ c ∈ relaxed ∨ 0 < count pens)
    (players : List SwissPlayer) (pairs : List ColoredPair) (pab : Option SwissPlayer) :
    c ∈ (buildDiagnostics players pairs pab initialColor).relaxedCriteria ↔
      ∃ pair ∈ pairs, 0 < count (colorPenaltiesFor pair.white pair.black initialColor) := by
  have known : c ∈ relaxable := by
    simp only [colorCriteria, List.mem_cons, List.not_mem_nil, or_false] at color
    rcases color with rfl | rfl | rfl | rfl <;> decide
  have fold : ∀ relaxed, c ∈ pairs.foldl (relaxPair initialColor) relaxed ↔
      c ∈ relaxed ∨ ∃ pair ∈ pairs, 0 < count (colorPenaltiesFor pair.white pair.black
        initialColor) := by
    induction pairs with
    | nil => simp
    | cons pair pairs ih =>
        intro relaxed
        rw [List.foldl_cons, ih, mem_relaxPair color count colors, or_assoc]
        simp
  unfold buildDiagnostics
  dsimp only
  rw [List.mem_filter, decide_eq_true_eq]
  cases pab with
  | none =>
      dsimp only
      rw [fold]
      simp [known]
  | some pab =>
      dsimp only
      rw [mem_relaxBye color, fold]
      simp [known]

/-- The penalties of a pair whose first side has White are for the colours as assigned. -/
theorem colorPenaltiesFor_assigned {white black : SwissPlayer}
    (first : (allocateColors (toAllocationSide white) (toAllocationSide black)
      initialColor).firstIsWhite = true) : colorPenaltiesFor white black initialColor =
        ((⟨0, 0, 0, 0, true⟩ : ColorPenalties).charge white .white).charge black .black := by
  unfold colorPenaltiesFor
  dsimp only
  rw [first]
  rfl

/-- Coloured again, a coloured pair keeps its colours. -/
theorem colorPair_again {a b : SwissPlayer} (apart : a.rankIndex ≠ b.rankIndex) :
    let pair := colorPair initialColor (a, b)
    (allocateColors (toAllocationSide pair.white) (toAllocationSide pair.black)
      initialColor).firstIsWhite = true := by
  intro pair
  have swapped := allocateColors_swap (a := toAllocationSide a) (b := toAllocationSide b) apart
    initialColor
  cases first : (allocateColors (toAllocationSide a) (toAllocationSide b) initialColor).firstIsWhite
  · have same : pair = ⟨b, a⟩ := by
      rw [show pair = colorPair initialColor (a, b) from rfl, colorPair]
      simp only [first, Bool.false_eq_true, if_false]
    rw [same, swapped, ColorAllocation.swap, first]
    rfl
  · have same : pair = ⟨a, b⟩ := by
      rw [show pair = colorPair initialColor (a, b) from rfl, colorPair]
      simp only [first, if_true]
    rw [same]
    exact first

theorem colorOutcomeFlags_prepared {p : SwissPlayer} (prepared : Prepared p) (got : Color) :
    colorOutcomeFlags p got =
      ⟨decide (2 < (colorDifference p.state.colorHistory + colorSign got).natAbs),
        decide (p.state.colorHistory.getLast? = some got ∧
          p.state.colorHistory.dropLast.getLast? = some got)⟩ := by
  unfold colorOutcomeFlags colorSign
  rw [prepared.colorDiff]

theorem denied_iff (pref : ColorPreference) (got : Color) :
    (pref.color.isSome && decide (pref.color ≠ some got)) = true ↔
      pref.color = some (oppositeColor got) := by
  cases wanted : pref.color with
  | none => simp
  | some color =>
      cases color <;> cases got <;> simp [oppositeColor]

variable {colored : List ColoredPair}

/-- A criterion is penalised where a player gets a colour that breaks it. -/
theorem penalised_iff {count : ColorPenalties → Nat} {breaks : SwissPlayer → Color → Bool}
    {broken : List Color → Color → Prop}
    (charged : ∀ pens p got, count (ColorPenalties.charge pens p got) =
      count pens + if breaks p got then 1 else 0)
    (none : count ⟨0, 0, 0, 0, true⟩ = 0)
    (means : ∀ p got, Prepared p → (breaks p got = true ↔ broken p.state.colorHistory got))
    (prepared : ∀ pair ∈ colored, Prepared pair.white ∧ Prepared pair.black)
    (again : ∀ pair ∈ colored, (allocateColors (toAllocationSide pair.white)
      (toAllocationSide pair.black) initialColor).firstIsWhite = true) :
    (∃ pair ∈ colored, 0 < count (colorPenaltiesFor pair.white pair.black initialColor)) ↔
      Assigns colored broken := by
  unfold Assigns
  refine exists_congr fun pair => and_congr_right fun listed => ?_
  obtain ⟨white, black⟩ := prepared pair listed
  have sides : (∃ side ∈ pair.assigned, broken side.1.state.colorHistory side.2) ↔
      breaks pair.white .white = true ∨ breaks pair.black .black = true := by
    rw [means _ _ white, means _ _ black]
    simp [ColoredPair.assigned]
  rw [colorPenaltiesFor_assigned (again pair listed), charged, charged, none, sides]
  cases breaks pair.white .white <;> cases breaks pair.black .black <;> simp

/-- The diagnostics of coloured pairs report on their colours. -/
theorem buildDiagnostics_report (players : List SwissPlayer) (pab : Option SwissPlayer)
    (prepared : ∀ pair ∈ colored, Prepared pair.white ∧ Prepared pair.black)
    (again : ∀ pair ∈ colored, (allocateColors (toAllocationSide pair.white)
      (toAllocationSide pair.black) initialColor).firstIsWhite = true) :
    ColorReport colored (buildDiagnostics players colored pab initialColor) where
  c10 := by
    rw [mem_relaxedCriteria (by decide) ColorPenalties.c10
      (fun pens relaxed => by simp [relaxColors, mem_relax])]
    refine penalised_iff (fun _ _ _ => rfl) rfl (fun p got ready => ?_) prepared again
    rw [colorOutcomeFlags_prepared ready]
    exact decide_eq_true_iff
  c11 := by
    rw [mem_relaxedCriteria (by decide) ColorPenalties.c11
      (fun pens relaxed => by simp [relaxColors, mem_relax])]
    refine penalised_iff (fun _ _ _ => rfl) rfl (fun p got ready => ?_) prepared again
    rw [colorOutcomeFlags_prepared ready]
    exact decide_eq_true_iff
  c12 := by
    rw [mem_relaxedCriteria (by decide) ColorPenalties.c12
      (fun pens relaxed => by simp [relaxColors, mem_relax])]
    refine penalised_iff (fun _ _ _ => rfl) rfl (fun p got ready => ?_) prepared again
    rw [ready.pref]
    exact denied_iff _ got
  c13 := by
    rw [mem_relaxedCriteria (by decide) ColorPenalties.c13
      (fun pens relaxed => by simp [relaxColors, mem_relax])]
    refine penalised_iff (fun _ _ _ => rfl) rfl (fun p got ready => ?_) prepared again
    rw [ready.pref, Bool.and_eq_true, denied_iff, decide_eq_true_iff]

theorem prepareSwissPlayers_ranks (states : List PlayerPairingState)
    (roundNumber totalRounds : Int) :
    ((prepareSwissPlayers states roundNumber totalRounds).map SwissPlayer.rankIndex).Nodup := by
  have ranks : (prepareSwissPlayers states roundNumber totalRounds).map SwissPlayer.rankIndex =
      List.range states.length := by
    refine List.ext_getElem (by simp [prepareSwissPlayers]) fun i inside within => ?_
    simp [prepareSwissPlayers, prepareSwissPlayer]
  rw [ranks]
  exact List.nodup_range

/-- What a result says of the pairs that it was made from. -/
structure Reported (request : PairingRequest) (result : PairingResult)
    (colored : List ColoredPair) (diagnostics : PairingDiagnostics) : Prop where
  boards : result.pairings = boardsOf colored
  players : ∀ pair ∈ colored, pair.white.state ∈ request.players ∧
    pair.black.state ∈ request.players
  given : result.diagnostics = some diagnostics
  report : ColorReport colored diagnostics

/-- The two sides of a pair have different ranks. -/
theorem Covered.ranks_apart {players : List SwissPlayer}
    {pairs : List (SwissPlayer × SwissPlayer)} {pab : Option SwissPlayer}
    (covered : Covered players pairs pab) (ranks : (players.map SwissPlayer.rankIndex).Nodup)
    {pair : SwissPlayer × SwissPlayer} (listed : pair ∈ pairs) :
    pair.1.rankIndex ≠ pair.2.rankIndex := by
  have distinct := (covered.once.map SwissPlayer.rankIndex).nodup_iff.mpr ranks
  rw [List.map_append] at distinct
  have sidesOf := List.Nodup.sublist (List.sublist_append_left _ _) distinct
  rw [sides, List.map_flatMap] at sidesOf
  have own := (List.nodup_flatMap.mp sidesOf).1 pair listed
  simpa using own

/-- Coloured again, a board keeps its colours. -/
theorem Covered.board_again {players : List SwissPlayer}
    {pairs : List (SwissPlayer × SwissPlayer)} {pab : Option SwissPlayer}
    (covered : Covered players pairs pab) (ranks : (players.map SwissPlayer.rankIndex).Nodup)
    {board : ColoredPair} (listed : board ∈ sortBoards (pairs.map (colorPair initialColor))) :
    (allocateColors (toAllocationSide board.white) (toAllocationSide board.black)
      initialColor).firstIsWhite = true := by
  obtain ⟨-, ⟨a, b⟩, here, rfl⟩ := covered.board initialColor listed
  exact colorPair_again (covered.ranks_apart ranks here)

theorem pairPlayers_reported {states : List PlayerPairingState} (filled : states ≠ [])
    (roundId : RoundId) (roundNumber totalRounds : Int) (initialColor : Color)
    {result : PairingResult} (ok : pairPlayers (prepareSwissPlayers states roundNumber totalRounds)
      roundId roundNumber initialColor = .ok result) :
    ∃ colored diagnostics, result.pairings = boardsOf colored ∧
      (∀ pair ∈ colored, pair.white.state ∈ states ∧ pair.black.state ∈ states) ∧
      result.diagnostics = some diagnostics ∧ ColorReport colored diagnostics := by
  have stated := prepareSwissPlayers_states states roundNumber totalRounds
  have ranks := prepareSwissPlayers_ranks states roundNumber totalRounds
  have ready : ∀ p ∈ prepareSwissPlayers states roundNumber totalRounds,
      Prepared p ∧ p.state ∈ states := by
    intro p listed
    refine ⟨prepareSwissPlayers_prepared listed, ?_⟩
    rw [← stated]
    exact List.mem_map_of_mem listed
  have nonempty : prepareSwissPlayers states roundNumber totalRounds ≠ [] := by
    intro none
    rw [none] at stated
    exact filled stated.symm
  unfold pairPlayers at ok
  obtain ⟨outcome, paired, rest⟩ := bind_ok ok
  have covered := (pairAllBrackets_yields _ _ roundId nonempty).result outcome paired
  obtain ⟨-, -, last⟩ := bind_ok rest
  have players : ∀ pair ∈ sortBoards (outcome.pairs.map (colorPair initialColor)),
      (Prepared pair.white ∧ pair.white.state ∈ states) ∧
        Prepared pair.black ∧ pair.black.state ∈ states := by
    intro pair listed
    obtain ⟨⟨white, black⟩, -⟩ := covered.board initialColor listed
    exact ⟨ready pair.white white, ready pair.black black⟩
  have again : ∀ pair ∈ sortBoards (outcome.pairs.map (colorPair initialColor)),
      (allocateColors (toAllocationSide pair.white) (toAllocationSide pair.black)
        initialColor).firstIsWhite = true := fun pair listed =>
    covered.board_again ranks listed
  have report := buildDiagnostics_report (prepareSwissPlayers states roundNumber totalRounds)
    outcome.pab (fun pair listed => ⟨(players pair listed).1.1, (players pair listed).2.1⟩) again
  refine ⟨_, _, ?_, fun pair listed =>
    ⟨(players pair listed).1.2, (players pair listed).2.2⟩, ?_, report⟩
  · rw [← Except.ok.inj last]
    rfl
  · rw [← Except.ok.inj last]

/-- The states that a round is made from. -/
theorem compute_states {request : PairingRequest} {result : PairingResult}
    (ok : compute request = .ok result) :
    ∃ states : List PlayerPairingState, states ≠ [] ∧ (∀ p ∈ states, p ∈ request.players) ∧
      pairPlayers (prepareSwissPlayers states request.roundNumber request.totalRounds)
        request.roundId request.roundNumber (request.initialColor.getD .white) = .ok result := by
  unfold compute at ok
  dsimp only at ok
  split at ok
  · cases ok
  split at ok
  · cases ok
  split at ok
  · cases ok
  split at ok
  · cases ok
  rename_i active
  refine ⟨_, fun none => active (List.length_eq_zero_iff.mpr none), fun p listed => ?_, ok⟩
  exact (List.perm_insertionSort _ _).mem_iff.mp (List.mem_of_mem_filter listed)

theorem compute_reported {request : PairingRequest} {result : PairingResult}
    (ok : compute request = .ok result) :
    ∃ colored diagnostics, Reported request result colored diagnostics := by
  obtain ⟨states, filled, known, paired⟩ := compute_states ok
  obtain ⟨colored, diagnostics, boards, players, given, report⟩ :=
    pairPlayers_reported filled _ _ _ _ paired
  exact ⟨colored, diagnostics, boards, fun pair listed =>
    ⟨known _ (players pair listed).1, known _ (players pair listed).2⟩, given, report⟩

end Diagnostics

section Fairness

/-- A side with a history, as the allocation sees it. -/
def historySide (history : List Color) (rankIndex : Nat) (pairingNumber : Int) :
    ColorAllocationSide :=
  ⟨colorPreferenceOf history, colorDifference history, history, rankIndex, pairingNumber⟩

/-- The colours of two sides, whoever comes first. -/
structure FairColors (a b : ColorAllocationSide) (initialColor : Color) : Prop where
  symmetric : allocateColors b a initialColor = (allocateColors a b initialColor).swap
  grants : a.pref.color = none ∨ b.pref.color = none ∨ a.pref.color ≠ b.pref.color →
    (∀ color, a.pref.color = some color →
        firstColor (allocateColors a b initialColor) = color) ∧
      ∀ color, b.pref.color = some color →
        oppositeColor (firstColor (allocateColors a b initialColor)) = color
  first : a.pref.strength = .absolute → b.pref.strength ≠ .absolute →
    a.pref.color = some (firstColor (allocateColors a b initialColor))
  second : b.pref.strength = .absolute → a.pref.strength ≠ .absolute →
    b.pref.color = some (oppositeColor (firstColor (allocateColors a b initialColor)))

theorem historySide_fair (first second : List Color) {i j : Nat} (apart : i ≠ j) (m n : Int)
    (initialColor : Color) :
    FairColors (historySide first i m) (historySide second j n) initialColor := by
  have satisfied := fun notBoth => allocateColors_satisfies (a := historySide first i m)
    (b := historySide second j n) initialColor absolute_color absolute_color notBoth
  refine ⟨allocateColors_swap apart initialColor, allocateColors_grants initialColor, ?_, ?_⟩
  · intro strong weak
    exact (satisfied fun both => weak both.2.1).1 strong
  · intro strong weak
    exact (satisfied fun both => weak both.1).2 strong

/-- The colour allocation is symmetric, grants what can be granted, keeps balanced histories
balanced unless a player is cornered, and the diagnostics report on the colours assigned. -/
theorem colors_allocated :
    (∀ (first second : List Color) (i j : Nat) (m n : Int) (initialColor : Color), i ≠ j →
      FairColors (historySide first i m) (historySide second j n) initialColor) ∧
    (∀ (a b : SwissPlayer) (initialColor : Color), Prepared a → Prepared b →
      canMeet a b = true → a.isTopscorer = false → b.isTopscorer = false →
      Balanced a.state.colorHistory → Balanced b.state.colorHistory →
      ¬ Cornered a.state.colorHistory → ¬ Cornered b.state.colorHistory →
      let got := firstColor (allocateColors (toAllocationSide a) (toAllocationSide b) initialColor)
      Balanced (a.state.colorHistory ++ [got]) ∧
        Balanced (b.state.colorHistory ++ [oppositeColor got])) ∧
    ∀ (request : PairingRequest) (result : PairingResult), compute request = .ok result →
      ∃ colored diagnostics, Reported request result colored diagnostics :=
  ⟨fun first second _ _ m n initialColor apart =>
      historySide_fair first second apart m n initialColor,
    fun _ _ initialColor preparedA preparedB meets plainA plainB balancedA balancedB freeA freeB =>
      allocateColors_balanced initialColor preparedA preparedB meets plainA plainB balancedA
        balancedB freeA freeB,
    fun _ _ ok => compute_reported ok⟩

/-- Two games behind with White, although the last two games were with White. -/
def corneredHistory : List Color :=
  [.black, .black, .white, .black, .black, .white, .black, .black, .white, .white]

def corneredPlayer : SwissPlayer :=
  prepareSwissPlayer 11 20 0 ⟨1, 1, 0, [], corneredHistory, [], false, false, 1⟩

/-- A player without a game. -/
def freshPlayer : SwissPlayer := prepareSwissPlayer 11 20 1 ⟨2, 2, 0, [], [], [], false, false, 11⟩

/-- Both histories are balanced and the two may meet, but no colours keep them so. -/
theorem corneredPlayer_unbalanced :
    Prepared corneredPlayer ∧ Prepared freshPlayer ∧ canMeet corneredPlayer freshPlayer = true ∧
      corneredPlayer.isTopscorer = false ∧ freshPlayer.isTopscorer = false ∧
      Balanced corneredPlayer.state.colorHistory ∧ Balanced freshPlayer.state.colorHistory ∧
      ∀ got, ¬ Balanced (corneredPlayer.state.colorHistory ++ [got]) := by
  refine ⟨⟨rfl, rfl, rfl⟩, ⟨rfl, rfl, rfl⟩, by decide, by decide, by decide, ⟨by decide, ?_⟩,
    ⟨by decide, ?_⟩, ?_⟩
  · intro color
    cases color with
    | white => decide
    | black => decide
  · exact ColorBounded.nil.noThree
  · exact Cornered.stuck ⟨.white, by decide, by decide, by decide⟩

end Fairness

end Farzin.Swiss
