import Farzin.SwissVerify
import Mathlib.Data.List.Infix

set_option autoImplicit false

/- Colour histories within the bounds, and that the allocation keeps them there: between
players who may meet, an absolute preference is always satisfied. -/
namespace Farzin.Swiss

def colorSign (color : Color) : Int := if color = .white then 1 else -1

/-- At no time more than two games of one colour ahead, never three of a colour in a row. -/
structure ColorBounded (history : List Color) : Prop where
  difference : ∀ before, before <+: history → (colorDifference before).natAbs ≤ 2
  noThree : ∀ color, ¬ [color, color, color] <:+: history

/-- May a player with this history have this colour next? -/
def Allowed (history : List Color) (got : Color) : Prop :=
  (colorDifference history + colorSign got).natAbs ≤ 2 ∧
    ¬(history.getLast? = some got ∧ history.dropLast.getLast? = some got)

instance (history : List Color) (got : Color) : Decidable (Allowed history got) :=
  inferInstanceAs (Decidable (_ ∧ _))

/-- Some colour keeps the player within the bounds. -/
def Playable (history : List Color) : Prop := ∃ got, Allowed history got

instance (history : List Color) : Decidable (Playable history) :=
  decidable_of_iff (Allowed history .white ∨ Allowed history .black)
    ⟨fun either => either.elim (fun white => ⟨.white, white⟩) fun black => ⟨.black, black⟩,
      fun ⟨got, allowed⟩ => match got with
        | .white => .inl allowed
        | .black => .inr allowed⟩

section Histories

theorem colorDifference_append (first second : List Color) :
    colorDifference (first ++ second) = colorDifference first + colorDifference second := by
  simp [colorDifference]

theorem colorDifference_singleton (color : Color) :
    colorDifference [color] = colorSign color := by
  simp [colorDifference, colorSign]

theorem ColorBounded.nil : ColorBounded [] where
  difference before here := by
    rw [List.prefix_nil.mp here]
    decide
  noThree color inside := by simp at inside

theorem split_last {history : List Color} {last : Color} (found : history.getLast? = some last) :
    history = history.dropLast ++ [last] :=
  (List.dropLast_append_getLast? last found).symm

/-- A third game of a colour in a row is the only way to three in a row. -/
theorem noThree_snoc {history : List Color} {got : Color}
    (bounded : ∀ color, ¬ [color, color, color] <:+: history)
    (fresh : ¬(history.getLast? = some got ∧ history.dropLast.getLast? = some got))
    (color : Color) : ¬ [color, color, color] <:+: history ++ [got] := by
  intro inside
  obtain ⟨front, back, whole⟩ := inside
  rcases List.eq_nil_or_concat back with none | ⟨rest, last, some⟩
  · rw [none, List.append_nil] at whole
    have order : (front ++ [color, color]) ++ [color] = history ++ [got] := by
      rw [← whole]
      simp
    obtain ⟨same, colors⟩ := List.append_inj' order rfl
    cases colors
    apply fresh
    rw [← same]
    exact ⟨by simp, by simp⟩
  · rw [some, List.concat_eq_append, ← List.append_assoc] at whole
    obtain ⟨same, _⟩ := List.append_inj' whole rfl
    exact bounded color ⟨front, rest, same⟩

/-- A history grows within the bounds by a colour that is allowed. -/
theorem ColorBounded.snoc {history : List Color} {got : Color} (bounded : ColorBounded history)
    (allowed : Allowed history got) : ColorBounded (history ++ [got]) where
  difference before here := by
    rcases List.prefix_concat_iff.mp here with all | part
    · rw [all, colorDifference_append, colorDifference_singleton]
      exact allowed.1
    · exact bounded.difference before part
  noThree := noThree_snoc bounded.noThree allowed.2

/-- The history after two games of one colour is two games further from the one before. -/
theorem difference_two {history : List Color} {color : Color}
    (last : history.getLast? = some color) (before : history.dropLast.getLast? = some color) :
    ∃ first, first <+: history ∧
      colorDifference history = colorDifference first + 2 * colorSign color := by
  refine ⟨history.dropLast.dropLast, ?_, ?_⟩
  · exact (List.dropLast_prefix _).trans (List.dropLast_prefix _)
  · rw [split_last last, colorDifference_append, colorDifference_singleton, split_last before,
      colorDifference_append, colorDifference_singleton]
    simp only [List.dropLast_concat]
    ring

end Histories

section Preferences

variable {history : List Color}

theorem absolute_color
    (absolute : (colorPreferenceOf history).strength = .absolute) :
    ∃ color, (colorPreferenceOf history).color = some color := by
  unfold colorPreferenceOf at absolute ⊢
  cases found : history.getLast? with
  | none =>
      rw [found] at absolute
      cases absolute
  | some last =>
      dsimp only
      split
      · exact ⟨_, rfl⟩
      · split
        · exact ⟨_, rfl⟩
        · split
          · exact ⟨_, rfl⟩
          · split
            · exact ⟨_, rfl⟩
            · split
              · exact ⟨_, rfl⟩
              · exact ⟨_, rfl⟩

theorem no_games (found : history.getLast? = none) (got : Color) :
    Allowed history got := by
  rw [List.getLast?_eq_none_iff.mp found]
  cases got with
  | white => exact ⟨by decide, by simp⟩
  | black => exact ⟨by decide, by simp⟩

/-- Without an absolute preference either colour is allowed. -/
theorem relative_allowed (relative : (colorPreferenceOf history).strength ≠ .absolute)
    (got : Color) : Allowed history got := by
  unfold colorPreferenceOf at relative
  cases found : history.getLast? with
  | none => exact no_games found got
  | some last =>
      rw [found] at relative
      dsimp only at relative
      split at relative
      · exact absurd rfl relative
      · split at relative
        · exact absurd rfl relative
        · split at relative
          · exact absurd rfl relative
          · rename_i apart
            refine ⟨?_, fun ⟨one, two⟩ => ?_⟩
            · cases got with
              | white =>
                  rw [show colorSign .white = 1 from rfl]
                  omega
              | black =>
                  rw [show colorSign .black = -1 from rfl]
                  omega
            · rw [found] at one
              cases one
              exact apart two

/-- When any colour is allowed, the one that is absolutely preferred is. -/
theorem Playable.absolute (playable : Playable history) {color : Color}
    (absolute : (colorPreferenceOf history).strength = .absolute)
    (wanted : (colorPreferenceOf history).color = some color) : Allowed history color := by
  obtain ⟨got, allowed⟩ := playable
  unfold colorPreferenceOf at absolute wanted
  cases found : history.getLast? with
  | none => exact no_games found color
  | some last =>
      rw [found] at absolute wanted
      dsimp only at absolute wanted
      have near := allowed.1
      split at wanted
      · rename_i ahead
        cases wanted
        cases got with
        | white =>
            rw [show colorSign .white = 1 from rfl] at near
            omega
        | black => exact allowed
      · rename_i notWhite
        split at wanted
        · rename_i ahead
          cases wanted
          cases got with
          | white => exact allowed
          | black =>
              rw [show colorSign .black = -1 from rfl] at near
              omega
        · rename_i notBlack
          rw [if_neg notWhite, if_neg notBlack] at absolute
          split at wanted
          · cases wanted
            refine ⟨?_, fun ⟨one, _⟩ => ?_⟩
            · cases last with
              | white =>
                  rw [show colorSign (oppositeColor .white) = -1 from rfl]
                  omega
              | black =>
                  rw [show colorSign (oppositeColor .black) = 1 from rfl]
                  omega
            · rw [found] at one
              cases last with
              | white => cases one
              | black => cases one
          · rename_i apart
            rw [if_neg apart] at absolute
            split at absolute
            · cases absolute
            · split at absolute
              · cases absolute
              · cases absolute

/-- A bounded history leaves a colour: the other one after two games of one colour, else the one
that is behind. -/
theorem ColorBounded.playable (bounded : ColorBounded history) : Playable history := by
  have whole := bounded.difference history (List.prefix_refl history)
  by_cases twice : ∃ color, history.getLast? = some color ∧
      history.dropLast.getLast? = some color
  · obtain ⟨color, last, before⟩ := twice
    obtain ⟨first, earlier, step⟩ := difference_two last before
    have start := bounded.difference first earlier
    refine ⟨oppositeColor color, ?_, fun ⟨one, _⟩ => ?_⟩
    · cases color with
      | white =>
          rw [show colorSign .white = 1 from rfl] at step
          rw [show colorSign (oppositeColor .white) = -1 from rfl]
          omega
      | black =>
          rw [show colorSign .black = -1 from rfl] at step
          rw [show colorSign (oppositeColor .black) = 1 from rfl]
          omega
    · rw [last] at one
      cases color with
      | white => cases one
      | black => cases one
  · by_cases ahead : 0 < colorDifference history
    · refine ⟨.black, ?_, fun both => twice ⟨.black, both⟩⟩
      rw [show colorSign .black = -1 from rfl]
      omega
    · refine ⟨.white, ?_, fun both => twice ⟨.white, both⟩⟩
      rw [show colorSign .white = 1 from rfl]
      omega

end Preferences

section Allocation

/-- The colour of the first side. -/
def firstColor (allocation : ColorAllocation) : Color :=
  if allocation.firstIsWhite then .white else .black

theorem firstColor_wants (color : Color) (rule : AllocationRule) :
    firstColor ⟨decide (color = .white), rule⟩ = color := by
  cases color with
  | white => rfl
  | black => rfl

theorem firstColor_refuses (color : Color) (rule : AllocationRule) :
    firstColor ⟨!decide (color = .white), rule⟩ = oppositeColor color := by
  cases color with
  | white => rfl
  | black => rfl

theorem opposite_opposite (color : Color) : oppositeColor (oppositeColor color) = color := by
  cases color with
  | white => rfl
  | black => rfl

theorem eq_opposite {one two : Color} (apart : one ≠ two) : two = oppositeColor one := by
  cases one <;> cases two <;> simp_all [oppositeColor]

theorem strength_lt {s t : ColorPreferenceStrength} (absolute : s = .absolute)
    (differ : strengthOrder s ≠ strengthOrder t) : strengthOrder t < strengthOrder s := by
  subst absolute
  cases t with
  | absolute => exact absurd rfl differ
  | strong => decide
  | mild => decide
  | none => decide

variable {a b : ColorAllocationSide}

/-- Two sides that want the same colour: the one with an absolute preference has it. -/
theorem allocateSamePreference_satisfies (color initialColor : Color)
    (apart : ¬(a.pref.strength = .absolute ∧ b.pref.strength = .absolute)) :
    (a.pref.strength = .absolute →
        firstColor (allocateSamePreference a b color initialColor) = color) ∧
      (b.pref.strength = .absolute →
        oppositeColor (firstColor (allocateSamePreference a b color initialColor)) = color) := by
  unfold allocateSamePreference
  dsimp only
  by_cases differ : strengthOrder a.pref.strength ≠ strengthOrder b.pref.strength
  · rw [if_pos differ]
    constructor
    · intro absolute
      have stronger := strength_lt absolute differ
      rw [decide_eq_true stronger, if_pos rfl, firstColor_wants]
    · intro absolute
      have stronger := strength_lt absolute differ.symm
      have weaker : ¬strengthOrder b.pref.strength < strengthOrder a.pref.strength := by omega
      rw [decide_eq_false weaker, if_neg Bool.false_ne_true, firstColor_refuses, opposite_opposite]
  · have same : strengthOrder a.pref.strength = strengthOrder b.pref.strength := by omega
    have neither : a.pref.strength ≠ .absolute ∧ b.pref.strength ≠ .absolute := by
      constructor
      · intro absolute
        apply apart
        rw [absolute] at same
        cases other : b.pref.strength <;> simp_all [strengthOrder]
      · intro absolute
        apply apart
        rw [absolute] at same
        cases other : a.pref.strength <;> simp_all [strengthOrder]
    exact ⟨fun absolute => absurd absolute neither.1, fun absolute => absurd absolute neither.2⟩

/-- Absolute preferences are satisfied, unless both sides absolutely want the same colour. -/
theorem allocateColors_satisfies (initialColor : Color)
    (coloredA : a.pref.strength = .absolute → ∃ color, a.pref.color = some color)
    (coloredB : b.pref.strength = .absolute → ∃ color, b.pref.color = some color)
    (apart : ¬(a.pref.strength = .absolute ∧ b.pref.strength = .absolute ∧
      a.pref.color = b.pref.color)) :
    (a.pref.strength = .absolute →
        a.pref.color = some (firstColor (allocateColors a b initialColor))) ∧
      (b.pref.strength = .absolute →
        b.pref.color = some (oppositeColor (firstColor (allocateColors a b initialColor)))) := by
  unfold allocateColors
  cases wantA : a.pref.color with
  | none =>
      have relativeA : a.pref.strength ≠ .absolute := by
        intro absolute
        obtain ⟨color, found⟩ := coloredA absolute
        rw [wantA] at found
        cases found
      refine ⟨fun absolute => absurd absolute relativeA, fun absolute => ?_⟩
      cases wantB : b.pref.color with
      | none =>
          obtain ⟨color, found⟩ := coloredB absolute
          rw [wantB] at found
          cases found
      | some prefB =>
          cases prefB with
          | white => rfl
          | black => rfl
  | some prefA =>
      cases wantB : b.pref.color with
      | none =>
          have relativeB : b.pref.strength ≠ .absolute := by
            intro absolute
            obtain ⟨color, found⟩ := coloredB absolute
            rw [wantB] at found
            cases found
          refine ⟨fun _ => ?_, fun absolute => absurd absolute relativeB⟩
          exact congrArg some (firstColor_wants prefA .r521).symm
      | some prefB =>
          dsimp only
          by_cases differ : prefA ≠ prefB
          · rw [if_pos differ, firstColor_wants]
            exact ⟨fun _ => rfl, fun _ => congrArg some (eq_opposite differ)⟩
          · rw [if_neg differ]
            have same : prefA = prefB := not_not.mp differ
            subst same
            have notBoth : ¬(a.pref.strength = .absolute ∧ b.pref.strength = .absolute) := by
              intro both
              apply apart
              rw [wantA, wantB]
              exact ⟨both.1, both.2, rfl⟩
            have satisfied := allocateSamePreference_satisfies prefA initialColor notBoth
            exact ⟨fun absolute => congrArg some (satisfied.1 absolute).symm,
              fun absolute => congrArg some (satisfied.2 absolute).symm⟩

end Allocation

end Farzin.Swiss
