import Farzin.PgnExport

set_option autoImplicit false

/- A reader of games that knows lines, blank lines and quoted values only, and what it reads back
from the text of a section. -/
namespace Farzin.Pgn

open Export JsText Reading

section Paragraphs

variable {α : Type}

/-- The blocks of a list of lines, between blank lines. -/
def paragraphs [BEq α] (lines : List (List α)) : List (List (List α)) :=
  (lines.splitOn []).filter fun block => !block.isEmpty

theorem intercalate_end (separator : List α) (blocks : List (List α)) :
    separator.intercalate (blocks ++ [[]]) = blocks.flatMap fun block => block ++ separator := by
  induction blocks with
  | nil => rfl
  | cons block blocks ih =>
      rw [List.cons_append, List.intercalate_cons_of_ne_nil (by simp), ih, List.flatMap_cons]

/-- Blocks of filled lines, each ended by a blank line, are the paragraphs. -/
theorem paragraphs_blocks [BEq α] [LawfulBEq α] {blocks : List (List (List α))}
    (filled : ∀ block ∈ blocks, block ≠ []) (lines : ∀ block ∈ blocks, [] ∉ block) :
    paragraphs (blocks.flatMap fun block => block ++ [[]]) = blocks := by
  unfold paragraphs
  rw [← intercalate_end, List.splitOn_intercalate [] _ (by simp), List.filter_append,
    List.filter_eq_self.mpr]
  · exact List.append_nil blocks
  · intro block listed
    simpa using filled block listed
  · intro block listed
    rcases List.mem_append.mp listed with old | last
    · exact lines block old
    · rw [List.mem_singleton.mp last]
      exact List.not_mem_nil

end Paragraphs

def quote : UInt16 := 34
def backslash : UInt16 := 92
def openBracket : UInt16 := 91
def closeBracket : UInt16 := 93

/-- A quoted value up to its quote and the bracket that ends the line. -/
def readValue : JsString → Option JsString
  | [] => none
  | u :: text =>
      if u = quote then if text = [closeBracket] then some [] else none
      else if u = backslash then
        match text with
        | [] => none
        | v :: text => (readValue text).map fun value => v :: value
      else (readValue text).map fun value => u :: value

def readTag : JsString → Option (JsString × JsString)
  | [] => none
  | u :: line =>
      let name := line.takeWhile fun u => u != space
      match line.drop name.length with
      | blank :: start :: value =>
          if u = openBracket ∧ blank = space ∧ start = quote then
            (readValue value).map fun value => (name, value)
          else none
      | _ => none

structure Game where
  tags : List (JsString × JsString)
  movetext : List JsString
  deriving DecidableEq, Repr

def readGame (tagSection movetext : List JsString) : Option Game :=
  (tagSection.mapM readTag).map fun tags => ⟨tags, words (join [lineFeed] movetext)⟩

/-- Tag sections and movetexts in turn. -/
def pairUp : List (List JsString) → Option (List Game)
  | [] => some []
  | [_] => none
  | tagSection :: movetext :: blocks => do
      let game ← readGame tagSection movetext
      let games ← pairUp blocks
      return game :: games

def readGames (text : JsString) : Option (List Game) :=
  pairUp (paragraphs (text.splitOn lineFeed))

/-- A value as a tag can hold it: line breaks and tabs are single spaces. -/
def oneLine (value : JsString) : JsString :=
  replaceRuns (fun u => decide (u ∈ units "\r\n\t")) value

example : readTag (units "[Event \"O\\\"Kelly \\\\ cup\"]") =
    some (units "Event", units "O\"Kelly \\ cup") := by
  decide +kernel

section Values

/-- Both escapes, unit by unit. -/
def escapeUnit (u : UInt16) : JsString := if u = quote ∨ u = backslash then [backslash, u] else [u]

theorem escapes_eq (value : JsString) :
    (value.flatMap fun u => if u = 92 then [92, 92] else [u]).flatMap
      (fun u => if u = 34 then [92, 34] else [u]) = value.flatMap escapeUnit := by
  rw [List.flatMap_assoc]
  congr 1
  funext u
  unfold escapeUnit quote backslash
  by_cases slash : u = 92
  · rw [slash]
    rfl
  · rw [if_neg slash, List.flatMap_singleton]
    by_cases quoted : u = 34
    · rw [quoted]
      rfl
    · rw [if_neg quoted, if_neg (by simp [slash, quoted])]

@[simp] theorem readValue_plain {u : UInt16} (noQuote : u ≠ quote) (noSlash : u ≠ backslash)
    (text : JsString) : readValue (u :: text) = (readValue text).map fun value => u :: value := by
  rw [readValue.eq_def]
  dsimp only
  rw [if_neg noQuote, if_neg noSlash]

@[simp] theorem readValue_slash (u : UInt16) (text : JsString) :
    readValue (backslash :: u :: text) = (readValue text).map fun value => u :: value := by
  rw [readValue, if_neg (by decide), if_pos rfl]

/-- What a line of text cannot hold in one place. -/
def breaksLine (u : UInt16) : Bool := decide (u ∈ units "\r\n\t")

theorem escapeUnit_gap {u : UInt16} (gap : breaksLine u = true) : escapeUnit u = [u] := by
  refine if_neg ?_
  rintro (rfl | rfl)
  · exact absurd gap (by decide)
  · exact absurd gap (by decide)

/-- A value that has been escaped and put on one line is read as the value on one line. -/
theorem readValue_escaped (value : JsString) (inRun : Bool) :
    readValue (replaceRunsFrom breaksLine inRun (value.flatMap escapeUnit) ++
        [quote, closeBracket]) =
      some (replaceRunsFrom breaksLine inRun value) := by
  induction value generalizing inRun with
  | nil => rfl
  | cons u value ih =>
      rw [List.flatMap_cons]
      by_cases gap : breaksLine u = true
      · rw [escapeUnit_gap gap, List.singleton_append, replaceRunsFrom, replaceRunsFrom, if_pos gap,
          if_pos gap]
        cases inRun with
        | true => exact ih true
        | false =>
            rw [if_neg Bool.false_ne_true, if_neg Bool.false_ne_true, List.cons_append,
              readValue_plain (by decide) (by decide), ih, Option.map_some]
      · have kept : ∀ text, replaceRunsFrom breaksLine inRun (u :: text) =
            u :: replaceRunsFrom breaksLine false text := fun text => if_neg gap
        have keptLater : ∀ text, replaceRunsFrom breaksLine false (u :: text) =
            u :: replaceRunsFrom breaksLine false text := fun text => if_neg gap
        by_cases marked : u = quote ∨ u = backslash
        · have escaped : escapeUnit u = [backslash, u] := if_pos marked
          have slash : ¬ breaksLine backslash = true := by decide
          rw [escaped, List.cons_append, List.singleton_append, replaceRunsFrom, if_neg slash,
            kept, keptLater, List.cons_append, List.cons_append, readValue_slash, ih,
            Option.map_some]
        · have escaped : escapeUnit u = [u] := if_neg marked
          rw [escaped, List.singleton_append, kept, kept, List.cons_append,
            readValue_plain (fun same => marked (.inl same)) (fun same => marked (.inr same)), ih,
            Option.map_some]

theorem readValue_escapeTag (value : JsString) :
    readValue (escapeTag value ++ [quote, closeBracket]) = some (oneLine value) := by
  unfold escapeTag
  dsimp only
  rw [escapes_eq]
  exact readValue_escaped value false

/-- Nothing that is read as one line breaks it. -/
theorem replaceRunsFrom_free {gap : UInt16 → Bool} (blank : gap space = false) (inRun : Bool)
    (text : JsString) : ∀ u ∈ replaceRunsFrom gap inRun text, gap u = false := by
  induction text generalizing inRun with
  | nil =>
      intro u inside
      cases inside
  | cons v text ih =>
      rw [replaceRunsFrom]
      by_cases here : gap v = true
      · rw [if_pos here]
        cases inRun with
        | true => exact ih true
        | false => exact List.forall_mem_cons.mpr ⟨blank, ih true⟩
      · rw [if_neg here]
        exact List.forall_mem_cons.mpr ⟨Bool.not_eq_true _ ▸ here, ih false⟩

theorem readTag_tagLine {name : JsString} (solid : space ∉ name) (value : JsString) :
    readTag (tagLine (name, value)) = some (name, oneLine value) := by
  have line : tagLine (name, value) = openBracket :: (name ++ space :: quote ::
      (escapeTag value ++ [quote, closeBracket])) := by
    unfold tagLine
    simp only [List.append_assoc]
    rfl
  have front : (name ++ space :: quote :: (escapeTag value ++ [quote, closeBracket])).takeWhile
      (fun u => u != space) = name := by
    rw [List.takeWhile_append_of_pos, List.takeWhile_cons_of_neg (by simp), List.append_nil]
    intro u inside
    exact bne_iff_ne.mpr fun same => solid (same ▸ inside)
  rw [line, readTag.eq_def]
  dsimp only
  rw [front, List.drop_left]
  dsimp only
  rw [if_pos ⟨rfl, rfl, rfl⟩, readValue_escapeTag, Option.map_some]

theorem lineFeed_not_mem_tagLine {name : JsString} (solid : lineFeed ∉ name) (value : JsString) :
    lineFeed ∉ tagLine (name, value) := by
  have free := @replaceRunsFrom_free breaksLine (by decide) false
  intro inside
  unfold tagLine at inside
  simp only [List.mem_append] at inside
  rcases inside with (((first | second) | third) | fourth) | fifth
  · exact absurd first (by decide)
  · exact solid second
  · exact absurd third (by decide)
  · exact absurd (free _ _ fourth) (by decide)
  · exact absurd fifth (by decide)

end Values

section Movetext

theorem piecesFrom_word {word : JsString} (solid : ∀ u ∈ word, isSpace u = false) (breaks : Bool)
    (front text : JsString) :
    piecesFrom breaks front (word ++ text) = piecesFrom breaks (front ++ word) text := by
  induction word generalizing front with
  | nil => rw [List.nil_append, List.append_nil]
  | cons u word ih =>
      have here : ¬ isSpace u = true := by simp [solid u List.mem_cons_self]
      rw [List.cons_append, piecesFrom, if_neg here,
        ih (fun v inside => solid v (List.mem_cons_of_mem u inside)), List.append_assoc,
        List.singleton_append]

/-- Written words are read back. -/
theorem piecesFrom_written {list : List (Bool × JsString)} (isWords : ∀ piece ∈ list, IsWord piece.2)
    (breaks : Bool) {word : JsString} (some : word ≠ []) :
    (piecesFrom breaks word (list.flatMap written)).map Prod.snd = word :: list.map Prod.snd := by
  induction list generalizing breaks word with
  | nil =>
      rw [List.flatMap_nil, piecesFrom, if_neg some]
      rfl
  | cons piece list ih =>
      have isWord := isWords piece List.mem_cons_self
      have blank : isSpace (if piece.1 then lineFeed else space) = true := by
        cases piece.1 <;> rfl
      rw [List.flatMap_cons, written, List.cons_append, piecesFrom, if_pos blank, if_neg some,
        List.map_cons, piecesFrom_word isWord.2, List.nil_append,
        ih (fun other listed => isWords other (List.mem_cons_of_mem piece listed)) _ isWord.1,
        List.map_cons]

theorem mem_fill {width length : Nat} {list : List JsString} {piece : Bool × JsString}
    (listed : piece ∈ fill width length list) : piece.2 ∈ list := by
  induction list generalizing length with
  | nil => cases listed
  | cons word list ih =>
      rw [fill] at listed
      rcases List.mem_cons.mp listed with rfl | later
      · exact List.mem_cons_self
      · exact List.mem_cons_of_mem word (ih later)

theorem fill_words (width length : Nat) (list : List JsString) :
    (fill width length list).map Prod.snd = list := by
  induction list generalizing length with
  | nil => rfl
  | cons word list ih => rw [fill, List.map_cons, ih]

/-- The words of the movetext are those of the completed text. -/
theorem words_buildMovetext (storedPgn : Option JsString) (result : ResultToken) :
    words (buildMovetext storedPgn result) = words (completed (storedPgn.getD []) result) := by
  obtain ⟨breaks, first, more, listed, text, -⟩ := buildMovetext_pieces storedPgn result
  have areWords : ∀ piece ∈ (breaks, first) :: more, IsWord piece.2 :=
    listed ▸ pieces_isWord (completed (storedPgn.getD []) result)
  have isWord := areWords _ List.mem_cons_self
  have isWords : ∀ piece ∈ fill maxLine first.length (more.map Prod.snd), IsWord piece.2 := by
    intro piece inside
    obtain ⟨other, here, same⟩ := List.mem_map.mp (mem_fill inside)
    exact same ▸ areWords other (List.mem_cons_of_mem _ here)
  unfold words
  rw [listed, text, pieces, piecesFrom_word isWord.2, List.nil_append,
    piecesFrom_written isWords _ isWord.1, fill_words, List.map_cons]

theorem join_splitOn (text : JsString) : join [lineFeed] (text.splitOn lineFeed) = text :=
  List.intercalate_splitOn lineFeed

/-- The lines of a movetext: not one of them is blank. -/
theorem movetext_lines (storedPgn : Option JsString) (result : ResultToken) :
    (buildMovetext storedPgn result).splitOn lineFeed ≠ [] ∧
      ([] : JsString) ∉ (buildMovetext storedPgn result).splitOn lineFeed ∧
      ∀ line ∈ (buildMovetext storedPgn result).splitOn lineFeed, lineFeed ∉ line := by
  obtain ⟨-, -, -, -, -, lines⟩ := buildMovetext_pieces storedPgn result
  refine ⟨List.splitOn_ne_nil _ _, ?_, fun line listed => (lines line listed).2.1⟩
  intro listed
  exact (lines [] listed).1 rfl

end Movetext

section Tags

def roster : List JsString :=
  [units "Event", units "Site", units "Date", units "Round", units "White", units "Black",
    units "Result"]

def playerNames : List JsString :=
  roster ++ [units "WhiteTitle"] ++ [units "BlackTitle"] ++ [units "WhiteElo"] ++
    [units "BlackElo"] ++ [units "WhiteFideId"] ++ [units "BlackFideId"]

def tagNames : List JsString := playerNames ++ [units "Termination"]

variable {tags : List (JsString × JsString)} {names : List JsString}

theorem pushIfPresent_names (listed : (tags.map Prod.fst).Sublist names) (name : JsString)
    (value : Option JsString) :
    ((pushIfPresent tags name value).map Prod.fst).Sublist (names ++ [name]) := by
  have kept : (tags.map Prod.fst).Sublist (names ++ [name]) :=
    listed.trans (List.sublist_append_left _ _)
  unfold pushIfPresent
  split
  · split
    · exact kept
    · rw [List.map_append]
      exact listed.append (List.Sublist.refl _)
  · exact kept

theorem pushIfPresent_first (first : names <+: tags.map Prod.fst) (name : JsString)
    (value : Option JsString) : names <+: (pushIfPresent tags name value).map Prod.fst := by
  unfold pushIfPresent
  split
  · split
    · exact first
    · rw [List.map_append]
      exact first.trans (List.prefix_append _ _)
  · exact first

variable (data : SectionExportData) (round : ExportRound) (pairing : ExportPairing)

/-- The tags of a game come in one order, each at most once. -/
theorem gameTags_names : ((gameTags data round pairing).map Prod.fst).Sublist tagNames := by
  unfold gameTags
  dsimp only
  have forfeit : ∀ tags : List (JsString × JsString), (tags.map Prod.fst).Sublist
      playerNames → ((if isForfeit pairing.result then
        tags ++ [(units "Termination", units "forfeit")] else tags).map Prod.fst).Sublist
          tagNames := by
    intro tags listed
    split
    · rw [List.map_append]
      exact listed.append (List.Sublist.refl [units "Termination"])
    · exact listed.trans (List.sublist_append_left _ _)
  apply forfeit
  refine pushIfPresent_names (pushIfPresent_names (pushIfPresent_names (pushIfPresent_names
    (pushIfPresent_names (pushIfPresent_names ?_ _ _) _ _) _ _) _ _) _ _) _ _
  exact List.Sublist.refl roster

theorem roster_first : roster <+: (gameTags data round pairing).map Prod.fst := by
  unfold gameTags
  dsimp only
  have forfeit : ∀ tags : List (JsString × JsString), roster <+: tags.map Prod.fst →
      roster <+: (if isForfeit pairing.result then
        tags ++ [(units "Termination", units "forfeit")] else tags).map Prod.fst := by
    intro tags first
    split
    · rw [List.map_append]
      exact first.trans (List.prefix_append _ _)
    · exact first
  apply forfeit
  refine pushIfPresent_first (pushIfPresent_first (pushIfPresent_first (pushIfPresent_first
    (pushIfPresent_first (pushIfPresent_first ?_ _ _) _ _) _ _) _ _) _ _) _ _
  exact List.prefix_rfl

end Tags

section Section

theorem join_join {separator : JsString} {front back : List JsString} (filled : front ≠ [])
    (some : back ≠ []) :
    join separator (front ++ back) = join separator front ++ separator ++ join separator back := by
  induction front with
  | nil => exact absurd rfl filled
  | cons first front ih =>
      by_cases last : front = []
      · rw [last, List.singleton_append, join_cons some, join, join, List.intercalate_singleton]
      · rw [List.cons_append, join_cons (by simp [last]), ih last, join_cons last]
        simp only [List.append_assoc]

/-- Joined pieces of joined lines are joined lines. -/
theorem join_flatMap {α : Type} {separator : JsString} {list : List α} {lines : α → List JsString}
    (filled : ∀ a ∈ list, lines a ≠ []) :
    join separator (list.map fun a => join separator (lines a)) =
      join separator (list.flatMap lines) := by
  induction list with
  | nil => rfl
  | cons a list ih =>
      rw [List.map_cons, List.flatMap_cons]
      cases list with
      | nil => rw [List.map_nil, List.flatMap_nil, List.append_nil, join, List.intercalate_singleton]
      | cons b list =>
          have more : (b :: list).flatMap lines ≠ [] := by
            rw [List.flatMap_cons]
            simp [filled b (by simp)]
          rw [join_cons (by simp), ih fun c listed => filled c (List.mem_cons_of_mem a listed),
            join_join (filled a List.mem_cons_self) more]

variable (data : SectionExportData)

/-- The lines of a game: its tag section and its movetext, each before a blank line. -/
def gameBlocks (game : ExportRound × ExportPairing) : List (List JsString) :=
  [(gameTags data game.1 game.2).map tagLine,
    (buildMovetext game.2.pgn (resultTokenOf game.2.result)).splitOn lineFeed]

/-- What a reader finds of a game: its tags, and its moves with one result at the end. -/
def gameOf (game : ExportRound × ExportPairing) : Game where
  tags := (gameTags data game.1 game.2).map fun tag => (tag.1, oneLine tag.2)
  movetext := words (completed (game.2.pgn.getD []) (resultTokenOf game.2.result))

variable {data} {game : ExportRound × ExportPairing}

theorem gameTags_name {tag : JsString × JsString} (listed : tag ∈ gameTags data game.1 game.2) :
    tag.1 ∈ tagNames :=
  (gameTags_names data game.1 game.2).mem (List.mem_map_of_mem listed)

theorem gameTags_ne_nil : gameTags data game.1 game.2 ≠ [] := by
  intro none
  have first := roster_first data game.1 game.2
  rw [none] at first
  exact absurd (List.prefix_nil.mp first) (by decide)

theorem gameBlocks_filled : ∀ block ∈ gameBlocks data game, block ≠ [] ∧ [] ∉ block ∧
    ∀ line ∈ block, lineFeed ∉ line := by
  have solid : ∀ name ∈ tagNames, lineFeed ∉ name := by decide +kernel
  intro block listed
  rcases List.mem_cons.mp listed with rfl | listed
  · refine ⟨by simp [gameTags_ne_nil], ?_, ?_⟩
    · intro inside
      obtain ⟨tag, -, same⟩ := List.mem_map.mp inside
      cases same
    · intro line inside
      obtain ⟨tag, here, rfl⟩ := List.mem_map.mp inside
      exact lineFeed_not_mem_tagLine (solid tag.1 (gameTags_name here)) tag.2
  · rw [List.mem_singleton.mp listed]
    exact movetext_lines game.2.pgn (resultTokenOf game.2.result)

theorem writeGame_blocks : writeGame data game.1 game.2 =
    join [lineFeed] ((gameBlocks data game).flatMap fun block => block ++ [[]]) := by
  have tagLines := @gameBlocks_filled data game _ List.mem_cons_self
  have moveLines := @gameBlocks_filled data game _
    (List.mem_cons_of_mem _ List.mem_cons_self)
  rw [gameBlocks, List.flatMap_cons, List.flatMap_cons, List.flatMap_nil, List.append_nil,
    join_join (by simp) (by simp), join_concat tagLines.1, join_concat moveLines.1, join_splitOn]
  unfold writeGame
  dsimp only
  simp only [List.append_assoc, List.append_nil]
  rfl

theorem readGame_blocks : readGame ((gameTags data game.1 game.2).map tagLine)
    ((buildMovetext game.2.pgn (resultTokenOf game.2.result)).splitOn lineFeed) =
      some (gameOf data game) := by
  have solid : ∀ name ∈ tagNames, space ∉ name := by decide +kernel
  have read : ((gameTags data game.1 game.2).map tagLine).mapM readTag =
      some ((gameTags data game.1 game.2).map fun tag => (tag.1, oneLine tag.2)) := by
    have each : ∀ tag ∈ gameTags data game.1 game.2,
        readTag (tagLine tag) = some (tag.1, oneLine tag.2) :=
      fun tag listed => readTag_tagLine (solid tag.1 (gameTags_name listed)) tag.2
    generalize gameTags data game.1 game.2 = tags at each
    induction tags with
    | nil => rfl
    | cons tag tags ih =>
        rw [List.map_cons, List.mapM_cons, each tag List.mem_cons_self,
          ih fun other listed => each other (List.mem_cons_of_mem tag listed)]
        rfl
  rw [readGame, read, join_splitOn, words_buildMovetext]
  rfl

theorem pairUp_blocks (games : List (ExportRound × ExportPairing)) :
    pairUp (games.flatMap (gameBlocks data)) = some (games.map (gameOf data)) := by
  induction games with
  | nil => rfl
  | cons game games ih =>
      rw [List.flatMap_cons, gameBlocks, List.cons_append, List.cons_append, List.nil_append,
        pairUp, readGame_blocks, ih]
      rfl

/-- The paragraphs of a text whose lines are blocks with a blank line after each. -/
theorem paragraphs_join {blocks : List (List JsString)}
    (filled : ∀ block ∈ blocks, block ≠ [] ∧ [] ∉ block ∧ ∀ line ∈ block, lineFeed ∉ line) :
    paragraphs ((join [lineFeed] (blocks.flatMap fun block => block ++ [[]])).splitOn lineFeed) =
      blocks := by
  by_cases none : blocks = []
  · rw [none]
    rfl
  · have unbroken : ∀ line ∈ blocks.flatMap fun block => block ++ [[]], lineFeed ∉ line := by
      intro line listed
      obtain ⟨block, here, inside⟩ := List.mem_flatMap.mp listed
      rcases List.mem_append.mp inside with inBlock | last
      · exact (filled block here).2.2 line inBlock
      · rw [List.mem_singleton.mp last]
        exact List.not_mem_nil
    have some : (blocks.flatMap fun block => block ++ [[]]) ≠ [] := by
      simpa using List.exists_mem_of_ne_nil blocks none
    rw [join, List.splitOn_intercalate lineFeed unbroken some]
    exact paragraphs_blocks (fun block listed => (filled block listed).1)
      fun block listed => (filled block listed).2.1

theorem writeSectionPgn_blocks : writeSectionPgn data = join [lineFeed]
    (((exportedGames data).flatMap (gameBlocks data)).flatMap fun block => block ++ [[]]) := by
  rw [List.flatMap_assoc, ← join_flatMap fun game _ => by simp [gameBlocks]]
  unfold writeSectionPgn
  simp only [writeGame_blocks]

/-- An exported section is read back game by game: every tag with its value on one line, and the
moves of the stored text with a result at the end. The roster comes first and no tag twice. -/
theorem readGames_writeSectionPgn (data : SectionExportData) :
    readGames (writeSectionPgn data) = some ((exportedGames data).map (gameOf data)) ∧
      ∀ game ∈ exportedGames data, roster <+: (gameOf data game).tags.map Prod.fst ∧
        ((gameOf data game).tags.map Prod.fst).Nodup := by
  refine ⟨?_, fun game _ => ?_⟩
  · have filled : ∀ block ∈ (exportedGames data).flatMap (gameBlocks data), block ≠ [] ∧
        [] ∉ block ∧ ∀ line ∈ block, lineFeed ∉ line := by
      intro block listed
      obtain ⟨game, -, inside⟩ := List.mem_flatMap.mp listed
      exact gameBlocks_filled block inside
    rw [readGames, writeSectionPgn_blocks, paragraphs_join filled, pairUp_blocks]
  · have names : (gameOf data game).tags.map Prod.fst =
        (gameTags data game.1 game.2).map Prod.fst := by
      rw [gameOf, List.map_map]
      rfl
    rw [names]
    exact ⟨roster_first data game.1 game.2,
      (gameTags_names data game.1 game.2).nodup (by decide +kernel)⟩

end Section

end Farzin.Pgn
