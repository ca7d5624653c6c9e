import Farzin.PgnWriter

set_option autoImplicit false

/- When an exported game has the moves, the comments and the one result that its stored movetext
and its tags say. -/
namespace Farzin.Pgn

open Export JsText Reading

/-- The token that the text of a result is. -/
def ResultToken.token : ResultToken → Token
  | .whiteWin => .symbol (units "1-0")
  | .blackWin => .symbol (units "0-1")
  | .draw => .symbol (units "1/2-1/2")
  | .asterisk => .mark 42

/-- One termination, at the end. -/
def EndsOnce (result : ResultToken) (body list : List Token) : Prop :=
  list = body ++ [result.token] ∧ ∀ token ∈ body, token ∉ terminations

/-- Besides the result the tokens are those of the stored text, which may end in a termination of
its own. -/
structure WellFormed (stored : JsString) (result : ResultToken) (movetext : JsString) : Prop where
  sameTokens : ∃ body, EndsOnce result body (tokens movetext) ∧
    (tokens stored = body ∨ ∃ token ∈ terminations, tokens stored = body ++ [token])
  shortLines : ∀ line ∈ movetext.splitOn lineFeed, line.length ≤ 80 ∨ space ∉ line

/-- The text ends like a result, as the writer sees it. -/
def endsLikeResult (stored : JsString) : Bool := endsWithToken (replaceRuns isSpace (trim stored))

/-- A text that ends like a result has that of its game as the last token and no other; any other
text has none, and no open brace. -/
def ResultFits (stored : JsString) (result : ResultToken) : Prop :=
  if endsLikeResult stored then ∃ body, EndsOnce result body (tokens stored)
  else (∀ token ∈ tokens stored, token ∉ terminations) ∧
    (start.read stored).inBraces = false

/-- The stored text, and the result on a line of its own unless the text ends like one. -/
def completed (stored : JsString) (result : ResultToken) : JsString :=
  if endsLikeResult stored then stored else stored ++ lineFeed :: result.text

/-- The results fit, and in comments up to the end of a line the line breaks are those of filled
lines. -/
def Kept (stored : JsString) (result : ResultToken) : Prop :=
  ResultFits stored result ∧ alignedText maxLine (completed stored result) = true

/-- The second move would become words of the comment. -/
example : alignedText maxLine (units "1. e4 ; best by test\n1... e5 1-0") = false := by
  decide

section Result

variable (result : ResultToken)

theorem text_isWord : IsWord result.text := by
  cases result <;> exact ⟨by decide, free_of_all (by decide)⟩

theorem token_terminates : result.token ∈ terminations := by
  cases result <;> decide

theorem token_ne_restOfLine (words : List JsString) : Token.restOfLine words ≠ result.token := by
  intro same
  cases result <;> cases same

theorem token_ne_unclosed (words : List JsString) : Token.unclosed words ≠ result.token := by
  intro same
  cases result <;> cases same

theorem finish_result (emitted : List Token) :
    ((⟨emitted, .plain, []⟩ : Reading).read result.text).finish = emitted ++ [result.token] := by
  cases result with
  | whiteWin => rfl
  | blackWin => rfl
  | draw => rfl
  | asterisk =>
      change emitted ++ [] ++ [Token.mark 42] ++ [] = emitted ++ [Token.mark 42]
      rw [List.append_nil, List.append_nil]

/-- The result on a line of its own is one more token, unless a brace is open. -/
theorem tokens_newLine (text : JsString) :
    ((start.read text).inBraces = false ∧
      tokens (text ++ lineFeed :: result.text) = tokens text ++ [result.token]) ∨
    ((start.read text).inBraces = true ∧
      ∃ front words, tokens text = front ++ [.unclosed words] ∧
        tokens (text ++ lineFeed :: result.text) =
          front ++ [.unclosed (words ++ [result.text])]) := by
  unfold tokens
  rw [read_append]
  generalize start.read text = σ
  obtain ⟨emitted, mode, word⟩ := σ
  cases mode with
  | plain => exact .inl ⟨rfl, finish_result result _⟩
  | inBraces words =>
      refine .inr ⟨rfl, emitted, words ++ pending word, rfl, ?_⟩
      cases result <;> rfl
  | inLine words => exact .inl ⟨rfl, finish_result result _⟩

end Result

section Movetext

/-- A token before the last one is a token of what the last one follows. -/
theorem before_last {front more body : List Token} {token last : Token}
    (same : front ++ token :: more = body ++ [last]) (other : token ≠ last) :
    ∃ middle, body = front ++ token :: middle := by
  rcases List.eq_nil_or_concat more with rfl | ⟨middle, end', rfl⟩
  · exact absurd (List.cons.inj (List.append_inj' same rfl).2).1 other
  · refine ⟨middle, ?_⟩
    rw [List.concat_eq_append, ← List.cons_append, ← List.append_assoc] at same
    exact (List.append_inj' same rfl).1.symm

/-- A comment up to the end of a line that the stored text has stays where it is. -/
theorem completed_comment (stored : JsString) (result : ResultToken) {front more : List Token}
    {words : List JsString} (held : tokens stored = front ++ .restOfLine words :: more) :
    ∃ more', tokens (completed stored result) = front ++ .restOfLine words :: more' := by
  unfold completed
  split
  · exact ⟨more, held⟩
  · rcases tokens_newLine result stored with ⟨-, ended⟩ | ⟨-, front', inBrace, unclosed, whole⟩
    · refine ⟨more ++ [result.token], ?_⟩
      rw [ended, held, List.append_assoc, List.cons_append]
    · rw [held] at unclosed
      obtain ⟨middle, rfl⟩ := before_last unclosed (by simp)
      refine ⟨middle ++ [.unclosed (inBrace ++ [result.text])], ?_⟩
      rw [whole, List.append_assoc, List.cons_append]

/-- The completed text has the result once, after the tokens of the stored text, exactly if the
results of the stored text fit. -/
theorem endsOnce_completed (stored : JsString) (result : ResultToken) :
    (∃ body, EndsOnce result body (tokens (completed stored result)) ∧
      (tokens stored = body ∨ ∃ token ∈ terminations, tokens stored = body ++ [token])) ↔
        ResultFits stored result := by
  unfold completed ResultFits
  by_cases ends : endsLikeResult stored = true
  · rw [if_pos ends, if_pos ends]
    constructor
    · rintro ⟨body, once, -⟩
      exact ⟨body, once⟩
    · rintro ⟨body, once⟩
      exact ⟨body, once, .inr ⟨result.token, token_terminates result, once.1⟩⟩
  · rw [if_neg ends, if_neg ends]
    rcases tokens_newLine result stored with ⟨closed, whole⟩ | ⟨inBrace, front, words, -, whole⟩
    · constructor
      · rintro ⟨body, ⟨same, free⟩, -⟩
        rw [whole] at same
        obtain rfl := (List.append_inj' same rfl).1
        exact ⟨free, closed⟩
      · rintro ⟨free, -⟩
        exact ⟨tokens stored, ⟨whole, free⟩, .inl rfl⟩
    · constructor
      · rintro ⟨body, ⟨same, -⟩, -⟩
        rw [whole] at same
        exact absurd (List.cons.inj (List.append_inj' same rfl).2).1 (token_ne_unclosed result _)
      · rintro ⟨-, closed⟩
        rw [closed] at inBrace
        cases inBrace

theorem pieces_completed {stored : JsString} (some : words stored ≠ []) (result : ResultToken) :
    pieces (completed stored result) ≠ [] := by
  unfold completed
  split
  · exact fun no => some (List.map_eq_nil_iff.mpr no)
  · rw [pieces_newLine stored (text_isWord result)]
    simp

/-- What is wrapped is the words of the completed text. -/
theorem words_completed {stored : JsString} (some : words stored ≠ []) (result : ResultToken) :
    (if endsWithToken (replaceRuns isSpace (trim stored))
      then replaceRuns isSpace (trim stored)
      else replaceRuns isSpace (trim stored) ++ units " " ++ result.text) =
        join [space] (words (completed stored result)) := by
  unfold completed endsLikeResult
  split
  · exact replaceRuns_trim stored
  · have longer : words (stored ++ lineFeed :: result.text) =
        words stored ++ [result.text] := by
      rw [words, pieces_newLine stored (text_isWord result), List.map_append]
      rfl
    rw [longer, join_concat some, replaceRuns_trim]
    rfl

/-- The movetext is the words of the completed text in filled lines. -/
theorem buildMovetext_pieces (storedPgn : Option JsString) (result : ResultToken) :
    ∃ breaks first more,
      pieces (completed (storedPgn.getD []) result) = (breaks, first) :: more ∧
      buildMovetext storedPgn result =
        first ++ (fill maxLine first.length (more.map Prod.snd)).flatMap written ∧
      ∀ line ∈ (buildMovetext storedPgn result).splitOn lineFeed, IsLine line := by
  have trimmed : (storedPgn.map trim).getD [] = trim (storedPgn.getD []) := by
    cases storedPgn <;> rfl
  unfold buildMovetext
  rw [trimmed]
  generalize storedPgn.getD [] = stored
  have isWord := text_isWord result
  by_cases none : trim stored = []
  · have noPieces : pieces stored = [] :=
      List.map_eq_nil_iff.mp ((trim_nil_iff stored).mp none)
    have unended : endsWithToken (replaceRuns isSpace (trim stored)) = false := by
      rw [none]
      decide
    refine ⟨true, result.text, [], ?_, ?_, ?_⟩
    · rw [completed, endsLikeResult, unended, if_neg Bool.false_ne_true,
        pieces_newLine stored isWord, noPieces, List.nil_append]
    · rw [if_pos none, List.map_nil, fill, List.flatMap_nil, List.append_nil]
    · rw [if_pos none, List.splitOn_eq_singleton isWord.isLine.2.1]
      intro line listed
      rw [List.mem_singleton.mp listed]
      exact isWord.isLine
  · have some : words stored ≠ [] := fun no => none ((trim_nil_iff stored).mpr no)
    have filled := pieces_completed some result
    rw [if_neg none]
    dsimp only
    rw [words_completed some result]
    have areWords := pieces_isWord (completed stored result)
    unfold words
    generalize pieces (completed stored result) = list at filled areWords
    cases list with
    | nil => exact absurd rfl filled
    | cons piece more =>
        have isWords : ∀ word ∈ piece.2 :: more.map Prod.snd, IsWord word := by
          intro word listed
          rw [← List.map_cons] at listed
          obtain ⟨other, inside, rfl⟩ := List.mem_map.mp listed
          exact areWords other inside
        obtain ⟨wrapped, lines⟩ := wrap_join isWords
        exact ⟨piece.1, piece.2, more, rfl, wrapped, lines⟩

/-- The movetext is well formed exactly if the stored text keeps its tokens. -/
theorem wellFormed_iff (storedPgn : Option JsString) (result : ResultToken) :
    WellFormed (storedPgn.getD []) result (buildMovetext storedPgn result) ↔
      Kept (storedPgn.getD []) result := by
  obtain ⟨breaks, first, more, listed, text, lines⟩ := buildMovetext_pieces storedPgn result
  generalize storedPgn.getD [] = stored at listed
  generalize buildMovetext storedPgn result = movetext at text lines
  have areWords : ∀ piece ∈ more, IsWord piece.2 := by
    intro piece inside
    refine pieces_isWord (completed stored result) piece ?_
    rw [listed]
    exact List.mem_cons_of_mem _ inside
  have before : tokens (completed stored result) =
      (more.foldl readPiece (start.read first)).finish := by
    rw [tokens_pieces, listed, List.foldl_cons, readPiece, separate_start]
  have after : tokens movetext =
      ((fill maxLine first.length (more.map Prod.snd)).foldl readPiece
        (start.read first)).finish := by
    rw [text, tokens, read_append, foldl_readPiece]
  have breaksAgree : alignedText maxLine (completed stored result) =
      aligned maxLine first.length (start.read first) more := by
    rw [alignedText, listed]
  constructor
  · rintro ⟨⟨body, once, held⟩, -⟩
    by_cases same : aligned maxLine first.length (start.read first) more = true
    · rw [after, aligned_fill same, ← before] at once
      exact ⟨(endsOnce_completed stored result).mp ⟨body, once, held⟩, breaksAgree.trans same⟩
    · obtain ⟨front, inText, inMovetext, rest, rest', differ, ended, longer⟩ :=
        misaligned_fill areWords (Bool.not_eq_true _ ▸ same)
      rw [← before] at ended
      rw [← after, once.1] at longer
      obtain ⟨middle, rfl⟩ := before_last longer.symm (token_ne_restOfLine result _)
      have inStored : ∃ rest, tokens stored = front ++ .restOfLine inMovetext :: rest := by
        rcases held with held | ⟨token, -, held⟩
        · exact ⟨_, held⟩
        · refine ⟨middle ++ [token], ?_⟩
          rw [held, List.append_assoc, List.cons_append]
      obtain ⟨rest, held⟩ := inStored
      obtain ⟨rest', whole⟩ := completed_comment stored result held
      rw [ended] at whole
      injection List.append_cancel_left whole with head
      injection head with words
      exact absurd words differ
  · rintro ⟨fits, same⟩
    obtain ⟨body, once, held⟩ := (endsOnce_completed stored result).mpr fits
    refine ⟨⟨body, ?_, held⟩, fun line inside => (lines line inside).2.2⟩
    rw [after, aligned_fill (breaksAgree.symm.trans same), ← before]
    exact once

end Movetext

section Games

theorem mem_pushIfPresent {tags : List (JsString × JsString)} {name other value : JsString}
    (differ : other ≠ name) (present : Option JsString) :
    (other, value) ∈ pushIfPresent tags name present ↔ (other, value) ∈ tags := by
  unfold pushIfPresent
  split
  · split
    · exact Iff.rfl
    · simp [differ]
  · exact Iff.rfl

theorem mem_cons_other {tags : List (JsString × JsString)} {name other value value' : JsString}
    (differ : other ≠ name) :
    (other, value) ∈ (name, value') :: tags ↔ (other, value) ∈ tags := by
  rw [List.mem_cons, Prod.mk.injEq]
  exact or_iff_right fun same => differ same.1

/-- A game has one `Result` tag. -/
theorem result_mem_gameTags (data : SectionExportData) (round : ExportRound)
    (pairing : ExportPairing) (value : JsString) :
    (units "Result", value) ∈ gameTags data round pairing ↔
      value = (resultTokenOf pairing.result).text := by
  unfold gameTags
  dsimp only
  have forfeit : ∀ tags : List (JsString × JsString),
      (units "Result", value) ∈ (if isForfeit pairing.result then
        tags ++ [(units "Termination", units "forfeit")] else tags) ↔
          (units "Result", value) ∈ tags := by
    intro tags
    split
    · rw [List.mem_append, List.mem_singleton, Prod.mk.injEq]
      exact or_iff_left fun same => absurd same.1 (by decide)
    · exact Iff.rfl
  rw [forfeit, mem_pushIfPresent (by decide), mem_pushIfPresent (by decide),
    mem_pushIfPresent (by decide), mem_pushIfPresent (by decide), mem_pushIfPresent (by decide),
    mem_pushIfPresent (by decide), mem_cons_other (by decide), mem_cons_other (by decide),
    mem_cons_other (by decide), mem_cons_other (by decide), mem_cons_other (by decide),
    mem_cons_other (by decide), List.mem_singleton, Prod.mk.injEq]
  exact and_iff_right rfl

/-- An exported text is the tags and the movetext of its games, and the movetext of a game is well
formed exactly if the results of the stored text fit and its comments up to the end of a line keep
their line breaks. -/
theorem writeSectionPgn_wellFormed_iff (data : SectionExportData) :
    writeSectionPgn data = join [lineFeed] ((exportedGames data).map fun game =>
      join [lineFeed] ((gameTags data game.1 game.2).map tagLine) ++ units "\n\n" ++
        buildMovetext game.2.pgn (resultTokenOf game.2.result) ++ units "\n") ∧
    ∀ game ∈ exportedGames data,
      (∀ value, (units "Result", value) ∈ gameTags data game.1 game.2 ↔
        value = (resultTokenOf game.2.result).text) ∧
      (WellFormed (game.2.pgn.getD []) (resultTokenOf game.2.result)
          (buildMovetext game.2.pgn (resultTokenOf game.2.result)) ↔
        Kept (game.2.pgn.getD []) (resultTokenOf game.2.result)) := by
  refine ⟨rfl, fun game _ => ⟨?_, ?_⟩⟩
  · exact result_mem_gameTags data game.1 game.2
  · exact wellFormed_iff game.2.pgn (resultTokenOf game.2.result)

def crossedResult : SectionExportData where
  tournamentName := units "Toshkent Ochiq Turniri"
  sectionName := units "A guruh"
  site := none
  city := none
  federation := none
  startDate := none
  endDate := none
  tournamentType := none
  chiefArbiter := none
  players := []
  rounds := [
    { number := 1
      date := none
      pairings := [
        { boardNumber := 1
          whiteRegistrationId := 1
          blackRegistrationId := some 2
          result := .whiteWin
          pgn := some (units "1. e4 e5 0-1") }] }]

/-- A stored text with the other result keeps it, beside the tag that says who won. -/
theorem writeSectionPgn_crossedResult : ∃ game ∈ exportedGames crossedResult,
    (units "Result", units "1-0") ∈ gameTags crossedResult game.1 game.2 ∧
      buildMovetext game.2.pgn (resultTokenOf game.2.result) = units "1. e4 e5 0-1" ∧
      ¬ WellFormed (game.2.pgn.getD []) (resultTokenOf game.2.result)
        (buildMovetext game.2.pgn (resultTokenOf game.2.result)) := by
  refine ⟨_, List.mem_cons_self, ?_, by decide, ?_⟩
  · exact (result_mem_gameTags _ _ _ _).mpr rfl
  · rintro ⟨⟨body, ⟨whole, -⟩, -⟩, -⟩
    have last := congrArg List.getLast? whole
    rw [List.getLast?_concat] at last
    exact absurd last (by decide)

end Games

end Farzin.Pgn
