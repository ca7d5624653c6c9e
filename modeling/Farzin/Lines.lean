import Mathlib.Data.List.Basic

set_option autoImplicit false

/- Text that arrives in pieces and is read line by line. A writer ends its message with a line of
some kind and is silent after it; a reader that has seen that line has seen everything. -/
namespace Farzin.Lines

variable {α : Type} (isBreak : α → Bool)

/-- Puts one more symbol before the lines and the unfinished rest of a text. -/
def push (a : α) (parts : List (List α) × List α) : List (List α) × List α :=
  if isBreak a then ([] :: parts.1, parts.2)
  else match parts.1 with
    | [] => ([], a :: parts.2)
    | line :: lines => ((a :: line) :: lines, parts.2)

/-- The finished lines of a text, without their breaks, and what stands after the last one. -/
def split : List α → List (List α) × List α
  | [] => ([], [])
  | a :: text => push isBreak a (split text)

theorem rest_unbroken (text : List α) : ∀ a ∈ (split isBreak text).2, isBreak a = false := by
  induction text with
  | nil =>
      intro a inside
      cases inside
  | cons b text ih =>
      intro a inside
      rw [split, push] at inside
      by_cases ends : isBreak b = true
      · rw [if_pos ends] at inside
        exact ih a inside
      · rw [if_neg ends] at inside
        cases lines : (split isBreak text).1 with
        | nil =>
            rw [lines] at inside
            rcases List.mem_cons.mp inside with same | later
            · rw [same]
              exact Bool.not_eq_true _ ▸ ends
            · exact ih a later
        | cons line more =>
            rw [lines] at inside
            exact ih a inside

/-- However a text is cut in two, its lines are those of the first piece and then those of what
the first piece leaves unfinished together with the second. -/
theorem split_append (front back : List α) :
    split isBreak (front ++ back) =
      ((split isBreak front).1 ++ (split isBreak ((split isBreak front).2 ++ back)).1,
        (split isBreak ((split isBreak front).2 ++ back)).2) := by
  induction front with
  | nil => rfl
  | cons a front ih =>
      rw [List.cons_append, split, ih, split, push, push]
      by_cases ends : isBreak a = true
      · rw [if_pos ends, if_pos ends]
        rfl
      · rw [if_neg ends, if_neg ends]
        cases lines : (split isBreak front).1 with
        | nil =>
            simp only [List.nil_append, List.cons_append, split, push, if_neg ends]
        | cons line more => rfl

/-- A text without a finished line and without a rest is empty. -/
theorem split_nothing {text : List α} (lines : (split isBreak text).1 = [])
    (rest : (split isBreak text).2 = []) : text = [] := by
  cases text with
  | nil => rfl
  | cons a text =>
      rw [split, push] at lines rest
      by_cases ends : isBreak a = true
      · rw [if_pos ends] at lines
        cases lines
      · rw [if_neg ends] at lines rest
        cases first : (split isBreak text).1 with
        | nil =>
            rw [first] at rest
            cases rest
        | cons line more =>
            rw [first] at lines
            cases lines

/-- Lines and rest hold no symbol that the text does not hold. -/
theorem split_members (text : List α) :
    (∀ line ∈ (split isBreak text).1, ∀ a ∈ line, a ∈ text) ∧
      ∀ a ∈ (split isBreak text).2, a ∈ text := by
  induction text with
  | nil =>
      refine ⟨?_, ?_⟩
      · intro line inside
        cases inside
      · intro a inside
        cases inside
  | cons b text ih =>
      obtain ⟨fromLines, fromRest⟩ := ih
      rw [split, push]
      by_cases ends : isBreak b = true
      · rw [if_pos ends]
        refine ⟨?_, fun a inside => List.mem_cons_of_mem _ (fromRest a inside)⟩
        intro line listed a inside
        rcases List.mem_cons.mp listed with same | later
        · rw [same] at inside
          cases inside
        · exact List.mem_cons_of_mem _ (fromLines line later a inside)
      · rw [if_neg ends]
        cases first : (split isBreak text).1 with
        | nil =>
            refine ⟨?_, ?_⟩
            · intro line listed
              cases listed
            · intro a inside
              rcases List.mem_cons.mp inside with same | later
              · rw [same]
                exact List.mem_cons_self
              · exact List.mem_cons_of_mem _ (fromRest a later)
        | cons line more =>
            rw [first] at fromLines
            refine ⟨?_, fun a inside => List.mem_cons_of_mem _ (fromRest a inside)⟩
            intro other listed a inside
            rcases List.mem_cons.mp listed with same | later
            · rw [same] at inside
              rcases List.mem_cons.mp inside with start | onward
              · rw [start]
                exact List.mem_cons_self
              · exact List.mem_cons_of_mem _ (fromLines line List.mem_cons_self a onward)
            · exact List.mem_cons_of_mem _
                (fromLines other (List.mem_cons_of_mem _ later) a inside)

section Unread

variable {isBreak} {stop : List α → Prop}

variable (isBreak stop) in
/-- A text that a writer has written and its reader has not read. Before the writer has stopped
no finished line is a stop, and the last line is the one it is at; afterwards nothing follows the
line it stopped at. -/
def Unread (stopped : Bool) (current text : List α) : Prop :=
  match stopped with
  | false => (split isBreak text).2 = current ∧ ∀ line ∈ (split isBreak text).1, ¬ stop line
  | true => (split isBreak text).2 = [] ∧ ∀ line ∈ (split isBreak text).1.dropLast, ¬ stop line

theorem Unread.start : Unread isBreak stop false [] [] := by
  refine ⟨rfl, ?_⟩
  intro line inside
  cases inside

theorem Unread.done : Unread isBreak stop true [] [] := by
  refine ⟨rfl, ?_⟩
  intro line inside
  cases inside

/-- One more symbol, at the end of a text. -/
theorem split_snoc (text : List α) (a : α) :
    split isBreak (text ++ [a]) =
      if isBreak a then ((split isBreak text).1 ++ [(split isBreak text).2], [])
      else ((split isBreak text).1, (split isBreak text).2 ++ [a]) := by
  have unbroken := rest_unbroken isBreak text
  have last : split isBreak ((split isBreak text).2 ++ [a]) =
      if isBreak a then ([(split isBreak text).2], [])
      else ([], (split isBreak text).2 ++ [a]) := by
    generalize (split isBreak text).2 = rest at unbroken
    induction rest with
    | nil => rw [List.nil_append, split, split, push]
    | cons b rest ih =>
        have here := unbroken b List.mem_cons_self
        rw [List.cons_append, split, ih fun c inside => unbroken c (List.mem_cons_of_mem _ inside),
          push, here]
        by_cases ends : isBreak a = true
        · rw [if_pos ends, if_pos ends]
          rfl
        · rw [if_neg ends, if_neg ends]
          rfl
  rw [split_append, last]
  by_cases ends : isBreak a = true
  · rw [if_pos ends, if_pos ends]
  · rw [if_neg ends, if_neg ends, List.append_nil]

theorem Unread.write {current text : List α} (unread : Unread isBreak stop false current text)
    {a : α} (inLine : isBreak a = false) :
    Unread isBreak stop false (current ++ [a]) (text ++ [a]) := by
  obtain ⟨rest, going⟩ := unread
  rw [Unread, split_snoc, inLine]
  exact ⟨congrArg (· ++ [a]) rest, going⟩

theorem Unread.endLine {current text : List α} (unread : Unread isBreak stop false current text)
    {a : α} (ends : isBreak a = true) (goesOn : ¬ stop current) :
    Unread isBreak stop false [] (text ++ [a]) := by
  obtain ⟨rest, going⟩ := unread
  rw [Unread, split_snoc, if_pos ends, rest]
  refine ⟨rfl, ?_⟩
  intro line inside
  rcases List.mem_append.mp inside with old | new
  · exact going line old
  · rw [List.mem_singleton.mp new]
    exact goesOn

theorem Unread.endMessage {current text : List α} (unread : Unread isBreak stop false current text)
    {a : α} (ends : isBreak a = true) : Unread isBreak stop true [] (text ++ [a]) := by
  obtain ⟨rest, going⟩ := unread
  rw [Unread, split_snoc, if_pos ends, List.dropLast_concat]
  exact ⟨rfl, going⟩

variable {stopped : Bool} {current front back : List α}

/-- The reader may take the lines of a first piece and keep what it leaves unfinished. -/
theorem Unread.read (unread : Unread isBreak stop stopped current (front ++ back)) :
    Unread isBreak stop stopped current ((split isBreak front).2 ++ back) := by
  cases stopped with
  | false =>
      obtain ⟨rest, going⟩ := unread
      rw [split_append] at rest going
      exact ⟨rest, fun line inside => going line (List.mem_append_right _ inside)⟩
  | true =>
      obtain ⟨rest, going⟩ := unread
      rw [split_append] at rest going
      refine ⟨rest, fun line inside => going line ?_⟩
      by_cases none : (split isBreak ((split isBreak front).2 ++ back)).1 = []
      · rw [none] at inside
        cases inside
      · rw [List.dropLast_append_of_ne_nil none]
        exact List.mem_append_right _ inside

/-- A reader that finds the stop in a first piece has read everything. -/
theorem Unread.readAll (unread : Unread isBreak stop stopped current (front ++ back))
    {line : List α} (listed : line ∈ (split isBreak front).1) (stops : stop line) :
    stopped = true ∧ (split isBreak front).2 = [] ∧ back = [] := by
  cases stopped with
  | false =>
      obtain ⟨_, going⟩ := unread
      rw [split_append] at going
      exact absurd stops (going line (List.mem_append_left _ listed))
  | true =>
      obtain ⟨rest, going⟩ := unread
      rw [split_append] at rest going
      have last : (split isBreak ((split isBreak front).2 ++ back)).1 = [] := by
        by_contra more
        apply going line _ stops
        rw [List.dropLast_append_of_ne_nil more]
        exact List.mem_append_left _ listed
      exact ⟨rfl, List.append_eq_nil_iff.mp (split_nothing isBreak last rest)⟩

end Unread

section Ended

variable {isBreak} {ending : α}

theorem split_cons_end (a : α) (line : List α) :
    (split isBreak (a :: line ++ [ending])).1 =
      if isBreak a then [] :: (split isBreak (line ++ [ending])).1
      else match (split isBreak (line ++ [ending])).1 with
        | [] => []
        | first :: more => (a :: first) :: more := by
  rw [List.cons_append, split, push]
  split
  · rfl
  · cases (split isBreak (line ++ [ending])).1 with
    | nil => rfl
    | cons first more => rfl

/-- A mark at the start of a text stands before its first break. -/
theorem prefix_takeWhile_iff {mark line : List α} (unbroken : ∀ a ∈ mark, isBreak a = false) :
    mark <+: (line.takeWhile fun a => !isBreak a) ↔ mark <+: line := by
  constructor
  · exact fun start => start.trans (List.takeWhile_prefix _)
  · rintro ⟨back, rfl⟩
    rw [List.takeWhile_append_of_pos fun a inside => by simp [unbroken a inside]]
    exact List.prefix_append _ _

variable (ends : isBreak ending = true)

include ends

/-- A line that is ended may itself hold breaks; then it is several lines. -/
theorem split_end (line : List α) : (split isBreak (line ++ [ending])).2 = [] := by
  rw [split_snoc, if_pos ends]

/-- The lines of a text that consists of ended lines. -/
theorem split_flatMap (lines : List (List α)) :
    split isBreak (lines.flatMap fun line => line ++ [ending]) =
      (lines.flatMap fun line => (split isBreak (line ++ [ending])).1, []) := by
  induction lines with
  | nil => rfl
  | cons line lines ih =>
      rw [List.flatMap_cons, List.flatMap_cons, split_append, split_end ends, List.nil_append, ih]

/-- The first of its lines is what stands before its first break. -/
theorem split_first (line : List α) : ∃ more,
    (split isBreak (line ++ [ending])).1 = (line.takeWhile fun a => !isBreak a) :: more := by
  induction line with
  | nil =>
      refine ⟨[], ?_⟩
      rw [List.nil_append, split, push, if_pos ends]
      rfl
  | cons a line ih =>
      obtain ⟨more, found⟩ := ih
      rw [split_cons_end, found]
      by_cases broken : isBreak a = true
      · rw [if_pos broken, List.takeWhile_cons_of_neg (by simp [broken])]
        exact ⟨_, rfl⟩
      · rw [if_neg broken, List.takeWhile_cons_of_pos (by simp [broken])]
        exact ⟨more, rfl⟩

theorem split_unbroken {line : List α} (unbroken : ∀ a ∈ line, isBreak a = false) :
    (split isBreak (line ++ [ending])).1 = [line] := by
  induction line with
  | nil => rw [List.nil_append, split, push, if_pos ends]; rfl
  | cons a line ih =>
      rw [split_cons_end, ih fun b inside => unbroken b (List.mem_cons_of_mem a inside),
        unbroken a List.mem_cons_self]
      rfl

/-- A later line starts with the mark where the mark follows a break. -/
theorem exists_marked_iff {mark : List α} (unbroken : ∀ a ∈ mark, isBreak a = false)
    (line : List α) :
    (∃ later ∈ (split isBreak (line ++ [ending])).1.tail, mark <+: later) ↔
      ∃ front a back, isBreak a = true ∧ line = front ++ a :: (mark ++ back) := by
  induction line with
  | nil =>
      have single : (split isBreak ([] ++ [ending])).1 = [[]] := split_unbroken ends (by simp)
      rw [single]
      simp
  | cons b line ih =>
      obtain ⟨more, found⟩ := split_first ends line
      rw [split_cons_end, found]
      rw [found] at ih
      by_cases broken : isBreak b = true
      · rw [if_pos broken, List.tail_cons]
        rw [List.tail_cons] at ih
        constructor
        · rintro ⟨later, inside, start⟩
          rcases List.mem_cons.mp inside with rfl | listed
          · obtain ⟨back, rfl⟩ := (prefix_takeWhile_iff unbroken).mp start
            exact ⟨[], b, back, broken, rfl⟩
          · obtain ⟨front, a, back, cut, rfl⟩ := ih.mp ⟨later, listed, start⟩
            exact ⟨b :: front, a, back, cut, rfl⟩
        · rintro ⟨front, a, back, cut, whole⟩
          cases front with
          | nil =>
              obtain ⟨rfl, rfl⟩ := List.cons.inj whole
              exact ⟨_, List.mem_cons_self,
                (prefix_takeWhile_iff unbroken).mpr (List.prefix_append _ _)⟩
          | cons c front =>
              obtain ⟨later, listed, start⟩ :=
                ih.mpr ⟨front, a, back, cut, (List.cons.inj whole).2⟩
              exact ⟨later, List.mem_cons_of_mem _ listed, start⟩
      · rw [if_neg broken, List.tail_cons]
        rw [List.tail_cons] at ih
        rw [ih]
        constructor
        · rintro ⟨front, a, back, cut, rfl⟩
          exact ⟨b :: front, a, back, cut, rfl⟩
        · rintro ⟨front, a, back, cut, whole⟩
          cases front with
          | nil => exact absurd ((List.cons.inj whole).1 ▸ cut) broken
          | cons c front => exact ⟨front, a, back, cut, (List.cons.inj whole).2⟩

end Ended

end Farzin.Lines
