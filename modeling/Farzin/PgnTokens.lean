import Farzin.JsText

set_option autoImplicit false

/- Movetext as its readers take it: symbols, marks that stand for themselves, comments in braces
and comments up to the end of the line. A comment is known by its words, and a text by its words
and by the line breaks between them. -/
namespace Farzin.Pgn

open JsText

inductive Token where
  | symbol (text : JsString)
  | mark (u : UInt16)
  | braces (words : List JsString)
  | restOfLine (words : List JsString)
  | unclosed (words : List JsString)
  deriving DecidableEq, Repr

def terminations : List Token :=
  [.symbol (units "1-0"), .symbol (units "0-1"), .symbol (units "1/2-1/2"), .mark 42]

def openBrace : UInt16 := 123
def closeBrace : UInt16 := 125
def semicolon : UInt16 := 59

def isMark (u : UInt16) : Bool := decide (u ∈ units ".*()<>[]\x7d")
def isLineBreak (u : UInt16) : Bool := decide (u ∈ units "\n\r")

inductive Mode where
  | plain
  | inBraces (words : List JsString)
  | inLine (words : List JsString)
  deriving DecidableEq, Repr

/-- The tokens that are complete, and the word that is not. -/
structure Reading where
  emitted : List Token
  mode : Mode
  word : JsString
  deriving DecidableEq, Repr

def pending (word : JsString) : List JsString := if word = [] then [] else [word]

namespace Reading

def start : Reading := ⟨[], .plain, []⟩

def inLine (σ : Reading) : Bool :=
  match σ.mode with
  | .inLine _ => true
  | _ => false

def inBraces (σ : Reading) : Bool :=
  match σ.mode with
  | .inBraces _ => true
  | _ => false

def symbols (σ : Reading) : List Token := σ.emitted ++ (pending σ.word).map .symbol

def endWord (σ : Reading) : Reading :=
  match σ.mode with
  | .plain => ⟨σ.symbols, .plain, []⟩
  | .inBraces words => ⟨σ.emitted, .inBraces (words ++ pending σ.word), []⟩
  | .inLine words => ⟨σ.emitted, .inLine (words ++ pending σ.word), []⟩

def endLine (σ : Reading) : Reading :=
  match σ.mode with
  | .inLine words => ⟨σ.emitted ++ [.restOfLine words], .plain, []⟩
  | _ => σ

/-- White space, with a line break in it or without. -/
def separate (breaks : Bool) (σ : Reading) : Reading :=
  if breaks then σ.endWord.endLine else σ.endWord

def step (σ : Reading) (u : UInt16) : Reading :=
  if isSpace u then σ.separate (isLineBreak u)
  else match σ.mode with
    | .plain =>
        if u = openBrace then ⟨σ.symbols, .inBraces [], []⟩
        else if u = semicolon then ⟨σ.symbols, .inLine [], []⟩
        else if isMark u then ⟨σ.symbols ++ [.mark u], .plain, []⟩
        else { σ with word := σ.word ++ [u] }
    | .inBraces words =>
        if u = closeBrace then ⟨σ.emitted ++ [.braces (words ++ pending σ.word)], .plain, []⟩
        else { σ with word := σ.word ++ [u] }
    | .inLine _ => { σ with word := σ.word ++ [u] }

def read (σ : Reading) (text : JsString) : Reading := text.foldl step σ

def finish (σ : Reading) : List Token :=
  match σ.mode with
  | .plain => σ.symbols
  | .inBraces words => σ.emitted ++ [.unclosed (words ++ pending σ.word)]
  | .inLine words => σ.emitted ++ [.restOfLine (words ++ pending σ.word)]

/-- A word after white space that holds a line break or does not. -/
def readPiece (σ : Reading) (piece : Bool × JsString) : Reading :=
  (σ.separate piece.1).read piece.2

end Reading

open Reading

def tokens (text : JsString) : List Token := (start.read text).finish

example : tokens (units "1.e4 \x7bbest; by test\x7d e5 ; fine\n2. Nf3*") =
    [.symbol (units "1"), .mark 46, .symbol (units "e4"),
      .braces [units "best;", units "by", units "test"], .symbol (units "e5"),
      .restOfLine [units "fine"], .symbol (units "2"), .mark 46, .symbol (units "Nf3"),
      .mark 42] := by
  decide

section Pieces

/-- The words of a text, each with whether a line break stands before it. -/
def piecesFrom (breaks : Bool) (word : JsString) : JsString → List (Bool × JsString)
  | [] => if word = [] then [] else [(breaks, word)]
  | u :: text =>
      if isSpace u then
        if word = [] then piecesFrom (breaks || isLineBreak u) [] text
        else (breaks, word) :: piecesFrom (isLineBreak u) [] text
      else piecesFrom breaks (word ++ [u]) text

def pieces (text : JsString) : List (Bool × JsString) := piecesFrom false [] text

/-- A word has a unit, and no white space. -/
def IsWord (word : JsString) : Prop := word ≠ [] ∧ ∀ u ∈ word, isSpace u = false

@[simp] theorem pending_nil : pending [] = [] :=
  rfl

theorem read_append (σ : Reading) (front back : JsString) :
    σ.read (front ++ back) = (σ.read front).read back :=
  List.foldl_append

theorem separate_separate (σ : Reading) (first second : Bool) :
    (σ.separate first).separate second = σ.separate (first || second) := by
  obtain ⟨emitted, mode, word⟩ := σ
  cases mode <;> cases first <;> cases second <;>
    simp [separate, endWord, endLine, symbols]

theorem finish_separate (σ : Reading) (breaks : Bool) :
    (σ.separate breaks).finish = σ.finish := by
  obtain ⟨emitted, mode, word⟩ := σ
  cases mode <;> cases breaks <;> simp [separate, endWord, endLine, symbols, finish]

theorem separate_start (breaks : Bool) : start.separate breaks = start := by
  cases breaks <;> rfl

theorem step_space (σ : Reading) {u : UInt16} (blank : isSpace u = true) :
    σ.step u = σ.separate (isLineBreak u) := by
  unfold step
  rw [if_pos blank]

/-- A text has the tokens of its pieces. -/
theorem finish_piecesFrom (text : JsString) (σ : Reading) (breaks : Bool) (word : JsString) :
    (((σ.separate breaks).read word).read text).finish =
      ((piecesFrom breaks word text).foldl readPiece σ).finish := by
  induction text generalizing σ breaks word with
  | nil =>
      unfold piecesFrom
      by_cases none : word = []
      · rw [if_pos none, none]
        exact finish_separate σ breaks
      · rw [if_neg none]
        rfl
  | cons u text ih =>
      unfold piecesFrom
      by_cases blank : isSpace u = true
      · rw [if_pos blank, Reading.read, List.foldl_cons, step_space _ blank]
        by_cases none : word = []
        · rw [if_pos none, none]
          rw [Reading.read, List.foldl_nil, separate_separate]
          exact ih σ _ []
        · rw [if_neg none, List.foldl_cons]
          exact ih _ _ []
      · rw [if_neg blank, ← ih]
        rw [read_append]
        rfl

theorem tokens_pieces (text : JsString) :
    tokens text = ((pieces text).foldl readPiece start).finish := by
  have same := finish_piecesFrom text start false []
  rw [separate_start] at same
  exact same

theorem piecesFrom_isWord (text : JsString) (breaks : Bool) {word : JsString}
    (solid : ∀ u ∈ word, isSpace u = false) :
    ∀ piece ∈ piecesFrom breaks word text, IsWord piece.2 := by
  induction text generalizing breaks word with
  | nil =>
      intro piece listed
      unfold piecesFrom at listed
      by_cases none : word = []
      · rw [if_pos none] at listed
        cases listed
      · rw [if_neg none, List.mem_singleton] at listed
        rw [listed]
        exact ⟨none, solid⟩
  | cons u text ih =>
      intro piece listed
      unfold piecesFrom at listed
      by_cases blank : isSpace u = true
      · rw [if_pos blank] at listed
        by_cases none : word = []
        · rw [if_pos none] at listed
          exact ih _ (by simp) piece listed
        · rw [if_neg none] at listed
          rcases List.mem_cons.mp listed with rfl | later
          · exact ⟨none, solid⟩
          · exact ih _ (by simp) piece later
      · rw [if_neg blank] at listed
        refine ih breaks ?_ piece listed
        intro v inside
        rcases List.mem_append.mp inside with old | new
        · exact solid v old
        · rw [List.mem_singleton.mp new]
          exact Bool.not_eq_true _ ▸ blank

theorem pieces_isWord (text : JsString) : ∀ piece ∈ pieces text, IsWord piece.2 :=
  piecesFrom_isWord text false (by simp)

theorem piecesFrom_solid {text : JsString} (solid : ∀ u ∈ text, isSpace u = false)
    (breaks : Bool) {word : JsString} (some : word ++ text ≠ []) :
    piecesFrom breaks word text = [(breaks, word ++ text)] := by
  induction text generalizing word with
  | nil =>
      rw [List.append_nil] at some ⊢
      unfold piecesFrom
      rw [if_neg some]
  | cons u text ih =>
      unfold piecesFrom
      rw [if_neg (by rw [solid u List.mem_cons_self]; decide),
        ih (fun v inside => solid v (List.mem_cons_of_mem u inside)) (by simp),
        List.append_assoc, List.singleton_append]

/-- A word on a line of its own is one more piece. -/
theorem piecesFrom_newLine (text : JsString) {last : JsString} (isWord : IsWord last)
    (breaks : Bool) (word : JsString) :
    piecesFrom breaks word (text ++ lineFeed :: last) =
      piecesFrom breaks word text ++ [(true, last)] := by
  have ended : ∀ flag : Bool, flag = true → piecesFrom flag [] last = [(true, last)] := by
    rintro flag rfl
    exact piecesFrom_solid isWord.2 true isWord.1
  induction text generalizing breaks word with
  | nil =>
      rw [List.nil_append, piecesFrom, piecesFrom, if_pos (by decide)]
      by_cases none : word = []
      · rw [if_pos none, if_pos none, List.nil_append]
        exact ended _ (Bool.or_eq_true_iff.mpr (.inr (by decide)))
      · rw [if_neg none, if_neg none, List.singleton_append, ended _ (by decide)]
  | cons u text ih =>
      rw [List.cons_append, piecesFrom, piecesFrom]
      by_cases blank : isSpace u = true
      · rw [if_pos blank, if_pos blank]
        by_cases none : word = []
        · rw [if_pos none, if_pos none, ih]
        · rw [if_neg none, if_neg none, ih, List.cons_append]
      · rw [if_neg blank, if_neg blank, ih]

theorem pieces_newLine (text : JsString) {last : JsString} (isWord : IsWord last) :
    pieces (text ++ lineFeed :: last) = pieces text ++ [(true, last)] :=
  piecesFrom_newLine text isWord false []

end Pieces

section Normalize

def words (text : JsString) : List JsString := (pieces text).map Prod.snd

theorem piecesFrom_ne_nil (text : JsString) (breaks : Bool) {word : JsString} (some : word ≠ []) :
    piecesFrom breaks word text ≠ [] := by
  induction text generalizing word with
  | nil =>
      rw [piecesFrom, if_neg some]
      exact List.cons_ne_nil _ _
  | cons u text ih =>
      rw [piecesFrom, if_neg some]
      split
      · exact List.cons_ne_nil _ _
      · exact ih (by simp)

/-- Only white space holds no word. -/
theorem piecesFrom_nil_iff (text : JsString) (breaks : Bool) :
    piecesFrom breaks [] text = [] ↔ trimEnd text = [] := by
  induction text generalizing breaks with
  | nil => exact ⟨fun _ => rfl, fun _ => rfl⟩
  | cons u text ih =>
      rw [piecesFrom, trimEnd_cons]
      by_cases blank : isSpace u = true
      · rw [if_pos blank, if_pos rfl, ih]
        constructor
        · intro none
          rw [if_pos ⟨blank, none⟩]
        · intro none
          by_contra more
          rw [if_neg fun both => more both.2] at none
          cases none
      · rw [if_neg blank, if_neg fun both => blank both.1]
        refine ⟨fun none => ?_, fun none => ?_⟩
        · exact absurd none (piecesFrom_ne_nil text breaks (by simp))
        · cases none

theorem join_cons {separator first : JsString} {parts : List JsString} (some : parts ≠ []) :
    join separator (first :: parts) = first ++ separator ++ join separator parts :=
  List.intercalate_cons_of_ne_nil some

/-- White space after white space is skipped. -/
theorem replaceRunsFrom_space {u : UInt16} (blank : isSpace u = true) (text : JsString) :
    replaceRunsFrom isSpace true (trimEnd (u :: text)) =
      replaceRunsFrom isSpace true (trimEnd text) := by
  rw [trimEnd_cons]
  split
  · rename_i both
    rw [both.2]
  · rw [replaceRunsFrom, if_pos blank, if_pos rfl]

/-- The words of a text with one space between them. -/
theorem replaceRunsFrom_trimEnd (text : JsString) :
    (∀ breaks, replaceRunsFrom isSpace true (trimEnd text) =
      join [space] ((piecesFrom breaks [] text).map Prod.snd)) ∧
    ∀ breaks word, word ≠ [] → word ++ replaceRunsFrom isSpace false (trimEnd text) =
      join [space] ((piecesFrom breaks word text).map Prod.snd) := by
  induction text with
  | nil =>
      refine ⟨fun _ => rfl, fun breaks word some => ?_⟩
      rw [piecesFrom, if_neg some, List.map_singleton, join, List.intercalate_singleton]
      exact List.append_nil word
  | cons u text ih =>
      obtain ⟨between, after⟩ := ih
      by_cases blank : isSpace u = true
      · refine ⟨fun breaks => ?_, fun breaks word some => ?_⟩
        · rw [replaceRunsFrom_space blank, piecesFrom, if_pos blank, if_pos rfl]
          exact between _
        · rw [piecesFrom, if_pos blank, if_neg some, List.map_cons, trimEnd_cons]
          by_cases none : trimEnd text = []
          · rw [if_pos ⟨blank, none⟩, (piecesFrom_nil_iff text _).mpr none, List.map_nil, join,
              List.intercalate_singleton]
            exact List.append_nil word
          · have more : (piecesFrom (isLineBreak u) [] text).map Prod.snd ≠ [] := by
              rw [Ne, List.map_eq_nil_iff, piecesFrom_nil_iff]
              exact none
            rw [if_neg fun both => none both.2, replaceRunsFrom, if_pos blank,
              if_neg Bool.false_ne_true, join_cons more, ← between, List.append_assoc,
              List.singleton_append]
      · rw [trimEnd_cons, if_neg fun both => blank both.1]
        refine ⟨fun breaks => ?_, fun breaks word some => ?_⟩
        · rw [replaceRunsFrom, if_neg blank, piecesFrom, if_neg blank]
          exact after breaks [u] (List.cons_ne_nil _ _)
        · rw [replaceRunsFrom, if_neg blank, piecesFrom, if_neg blank,
            ← after breaks (word ++ [u]) (by simp), List.append_assoc, List.singleton_append]

theorem trim_cons_space {u : UInt16} (blank : isSpace u = true) (text : JsString) :
    trim (u :: text) = trim text := by
  rw [trim, trim, List.dropWhile_cons_of_pos blank]

theorem trim_cons_solid {u : UInt16} (solid : ¬ isSpace u = true) (text : JsString) :
    trim (u :: text) = u :: trimEnd text := by
  rw [trim, List.dropWhile_cons_of_neg solid, trimEnd_cons, if_neg fun both => solid both.1]

theorem trim_nil_iff (text : JsString) : trim text = [] ↔ words text = [] := by
  rw [words, List.map_eq_nil_iff, pieces, piecesFrom_nil_iff]
  induction text with
  | nil => exact Iff.rfl
  | cons u text ih =>
      by_cases blank : isSpace u = true
      · rw [trim_cons_space blank, ih, trimEnd_cons]
        simp [blank]
      · rw [trim_cons_solid blank, trimEnd_cons, if_neg fun both => blank both.1]

/-- What is left when a text is trimmed and its runs of white space become single spaces. -/
theorem replaceRuns_trim (text : JsString) :
    replaceRuns isSpace (trim text) = join [space] (words text) := by
  refine Eq.trans ?_ ((replaceRunsFrom_trimEnd text).1 false)
  rw [replaceRuns]
  induction text with
  | nil => rfl
  | cons u text ih =>
      by_cases blank : isSpace u = true
      · rw [trim_cons_space blank, ih, replaceRunsFrom_space blank]
      · rw [trim_cons_solid blank, trimEnd_cons, if_neg fun both => blank both.1,
          replaceRunsFrom, replaceRunsFrom, if_neg blank, if_neg blank]

end Normalize

section Comments

/-- Tokens that are complete stay. -/
theorem emitted_step (σ : Reading) (u : UInt16) : σ.emitted <+: (σ.step u).emitted := by
  obtain ⟨emitted, mode, word⟩ := σ
  unfold step separate
  cases mode with
  | plain =>
      split
      · split <;> exact List.prefix_append _ _
      · dsimp only
        split_ifs
        · exact List.prefix_append _ _
        · exact List.prefix_append _ _
        · exact (List.prefix_append _ _).trans (List.prefix_append _ _)
        · exact List.prefix_rfl
  | inBraces words =>
      split
      · split <;> exact List.prefix_rfl
      · dsimp only
        split
        · exact List.prefix_append _ _
        · exact List.prefix_rfl
  | inLine words =>
      split
      · split
        · exact List.prefix_append _ _
        · exact List.prefix_rfl
      · exact List.prefix_rfl

theorem emitted_finish (σ : Reading) : σ.emitted <+: σ.finish := by
  unfold finish
  cases σ.mode with
  | plain => exact List.prefix_append _ _
  | inBraces words => exact List.prefix_append _ _
  | inLine words => exact List.prefix_append _ _

theorem emitted_read (σ : Reading) (text : JsString) : σ.emitted <+: (σ.read text).finish := by
  induction text generalizing σ with
  | nil => exact emitted_finish σ
  | cons u text ih => exact (emitted_step σ u).trans (ih (σ.step u))

theorem pending_ne_nil {word : JsString} (some : word ≠ []) : pending word ≠ [] := by
  unfold pending
  rw [if_neg some]
  simp

/-- A comment up to the end of the line keeps its words, and takes the word it is at. -/
theorem finish_inLine (text : JsString) (emitted : List Token) (words : List JsString)
    (word : JsString) : ∃ later more,
      ((⟨emitted, .inLine words, word⟩ : Reading).read text).finish =
        emitted ++ .restOfLine (words ++ later) :: more ∧ (word ≠ [] → later ≠ []) := by
  induction text generalizing words word with
  | nil => exact ⟨pending word, [], rfl, pending_ne_nil⟩
  | cons u text ih =>
      rw [Reading.read, List.foldl_cons]
      by_cases blank : isSpace u = true
      · rw [step_space _ blank]
        cases isLineBreak u with
        | true =>
            obtain ⟨more, whole⟩ := emitted_read
              ⟨emitted ++ [.restOfLine (words ++ pending word)], .plain, []⟩ text
            exact ⟨pending word, more, by
              rw [List.append_assoc, List.singleton_append] at whole
              exact whole.symm, pending_ne_nil⟩
        | false =>
            obtain ⟨later, more, whole, -⟩ := ih (words ++ pending word) []
            refine ⟨pending word ++ later, more, ?_, ?_⟩
            · rw [← List.append_assoc]
              exact whole
            · intro some none
              exact pending_ne_nil some (List.append_eq_nil_iff.mp none).1
      · obtain ⟨later, more, whole, grown⟩ := ih words (word ++ [u])
        refine ⟨later, more, ?_, fun _ => grown (by simp)⟩
        unfold step
        rw [if_neg blank]
        exact whole

/-- A word in a comment up to the end of the line is only a word. -/
theorem read_inLine {text : JsString} (solid : ∀ u ∈ text, isSpace u = false)
    (emitted : List Token) (words : List JsString) (word : JsString) :
    (⟨emitted, .inLine words, word⟩ : Reading).read text =
      ⟨emitted, .inLine words, word ++ text⟩ := by
  induction text generalizing word with
  | nil => rw [List.append_nil, Reading.read, List.foldl_nil]
  | cons u text ih =>
      have first : (⟨emitted, .inLine words, word⟩ : Reading).step u =
          ⟨emitted, .inLine words, word ++ [u]⟩ := by
        unfold step
        rw [if_neg (by rw [solid u List.mem_cons_self]; decide)]
      rw [Reading.read, List.foldl_cons, first]
      refine (ih (fun v inside => solid v (List.mem_cons_of_mem u inside)) _).trans ?_
      rw [List.append_assoc, List.singleton_append]

end Comments

section Fill

/-- A piece as it is written. -/
def written (piece : Bool × JsString) : JsString :=
  (if piece.1 then lineFeed else space) :: piece.2

/-- The length of a line that takes one more word, or of the next line if the word does not fit. -/
def nextLength (width length : Nat) (word : JsString) : Nat :=
  if width < length + 1 + word.length then word.length else length + 1 + word.length

/-- Words after a line of some length, in lines of at most `width` units where words fit. -/
def fill (width length : Nat) : List JsString → List (Bool × JsString)
  | [] => []
  | word :: words =>
      (decide (width < length + 1 + word.length), word) ::
        fill width (nextLength width length word) words

/-- Wherever the text stands in a comment up to the end of the line, its line breaks are those of
filled lines. -/
def aligned (width length : Nat) (σ : Reading) : List (Bool × JsString) → Bool
  | [] => true
  | (breaks, word) :: more =>
      (!σ.inLine || breaks == decide (width < length + 1 + word.length)) &&
        aligned width (nextLength width length word) (σ.readPiece (breaks, word)) more

/-- The same for a whole text, which begins its first line. -/
def alignedText (width : Nat) (text : JsString) : Bool :=
  match pieces text with
  | [] => true
  | (_, first) :: more => aligned width first.length (start.read first) more

theorem readPiece_eq (σ : Reading) (piece : Bool × JsString) :
    σ.readPiece piece = σ.read (written piece) := by
  obtain ⟨breaks, word⟩ := piece
  cases breaks <;> rfl

theorem foldl_readPiece (σ : Reading) (list : List (Bool × JsString)) :
    list.foldl readPiece σ = σ.read (list.flatMap written) := by
  induction list generalizing σ with
  | nil => rfl
  | cons piece list ih =>
      rw [List.foldl_cons, ih, List.flatMap_cons, read_append, readPiece_eq]

/-- Outside such a comment a line break is as good as a space. -/
theorem separate_eq {σ : Reading} (outside : σ.inLine = false) (breaks : Bool) :
    σ.separate breaks = σ.endWord := by
  obtain ⟨emitted, mode, word⟩ := σ
  cases mode with
  | plain => cases breaks <;> rfl
  | inBraces words => cases breaks <;> rfl
  | inLine words => cases outside

variable {width : Nat}

/-- A line break that agrees, or that no comment sees, leaves the reading as it is. -/
theorem readPiece_agrees {σ : Reading} {breaks full : Bool}
    (agrees : (!σ.inLine || breaks == full) = true) (word : JsString) :
    σ.readPiece (full, word) = σ.readPiece (breaks, word) := by
  rcases Bool.or_eq_true_iff.mp agrees with outside | equal
  · have plain : σ.inLine = false := by simpa using outside
    rw [readPiece, readPiece, separate_eq plain, separate_eq plain]
  · rw [eq_of_beq equal]

theorem aligned_fill {list : List (Bool × JsString)} {length : Nat} {σ : Reading}
    (same : aligned width length σ list = true) :
    (fill width length (list.map Prod.snd)).foldl readPiece σ = list.foldl readPiece σ := by
  induction list generalizing length σ with
  | nil => rfl
  | cons piece list ih =>
      obtain ⟨breaks, word⟩ := piece
      obtain ⟨here, later⟩ := Bool.and_eq_true_iff.mp same
      rw [List.map_cons, fill, List.foldl_cons, List.foldl_cons, readPiece_agrees here]
      exact ih later

/-- Two readings that part at a line break in a comment: it ends in one and goes on in the other. -/
theorem readPiece_parts {σ : Reading} (inside : σ.inLine = true) {word : JsString}
    (isWord : IsWord word) (goes stays : List (Bool × JsString)) :
    ∃ (words later : List JsString) (more more' : List Token), later ≠ [] ∧
      (goes.foldl readPiece (σ.readPiece (true, word))).finish =
        σ.emitted ++ .restOfLine words :: more ∧
      (stays.foldl readPiece (σ.readPiece (false, word))).finish =
        σ.emitted ++ .restOfLine (words ++ later) :: more' := by
  obtain ⟨emitted, mode, last⟩ := σ
  cases mode with
  | plain => cases inside
  | inBraces words => cases inside
  | inLine words =>
      obtain ⟨more, ended⟩ := emitted_read
        ⟨emitted ++ [.restOfLine (words ++ pending last)], .plain, []⟩
        (word ++ goes.flatMap written)
      obtain ⟨later, more', longer, grown⟩ :=
        finish_inLine (stays.flatMap written) emitted (words ++ pending last) word
      refine ⟨words ++ pending last, later, more, more', grown isWord.1, ?_, ?_⟩
      · rw [foldl_readPiece, readPiece, ← read_append]
        rw [List.append_assoc, List.singleton_append] at ended
        exact ended.symm
      · rw [foldl_readPiece, readPiece]
        have entered : (⟨emitted, .inLine words, last⟩ : Reading).separate false =
            ⟨emitted, .inLine (words ++ pending last), []⟩ := rfl
        rw [entered, read_inLine isWord.2, List.nil_append]
        exact longer

/-- Where the line breaks differ in a comment up to the end of the line, the tokens differ. -/
theorem misaligned_fill {list : List (Bool × JsString)} (isWords : ∀ piece ∈ list, IsWord piece.2)
    {length : Nat} {σ : Reading} (differs : aligned width length σ list = false) :
    ∃ (front : List Token) (words words' : List JsString) (more more' : List Token),
      words ≠ words' ∧ (list.foldl readPiece σ).finish = front ++ .restOfLine words :: more ∧
      ((fill width length (list.map Prod.snd)).foldl readPiece σ).finish =
        front ++ .restOfLine words' :: more' := by
  induction list generalizing length σ with
  | nil => cases differs
  | cons piece list ih =>
      obtain ⟨breaks, word⟩ := piece
      have isWord : IsWord word := isWords _ List.mem_cons_self
      rw [List.map_cons, fill, List.foldl_cons, List.foldl_cons]
      by_cases here : (!σ.inLine || breaks == decide (width < length + 1 + word.length)) = true
      · have later : aligned width (nextLength width length word)
            (σ.readPiece (breaks, word)) list = false := by
          rw [aligned, here, Bool.true_and] at differs
          exact differs
        rw [readPiece_agrees here]
        exact ih (fun piece listed => isWords piece (List.mem_cons_of_mem _ listed)) later
      · obtain ⟨notOutside, notEqual⟩ := Bool.or_eq_false_iff.mp (Bool.not_eq_true _ ▸ here)
        have parts := readPiece_parts (by simpa using notOutside) isWord
        cases breaks with
        | true =>
            have fits : decide (width < length + 1 + word.length) = false := by
              simpa using notEqual
            obtain ⟨words, later, more, more', grown, ended, longer⟩ := parts list
              (fill width (nextLength width length word) (list.map Prod.snd))
            rw [fits]
            exact ⟨_, words, words ++ later, more, more', by simpa using grown, ended, longer⟩
        | false =>
            have full : decide (width < length + 1 + word.length) = true := by
              simpa using notEqual
            obtain ⟨words, later, more, more', grown, ended, longer⟩ := parts
              (fill width (nextLength width length word) (list.map Prod.snd)) list
            rw [full]
            exact ⟨_, words ++ later, words, more', more, by simpa using grown, longer, ended⟩

end Fill

end Farzin.Pgn
