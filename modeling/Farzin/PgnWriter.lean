import Farzin.ExportData
import Farzin.PgnTokens
import Mathlib.Data.List.Sort

set_option autoImplicit false

/- The writer of games (`core/export/pgn-writer.ts`): the tags of each played game and its
movetext, on one text, and what its lines are. -/
namespace Farzin.Pgn

open Arbiter (PairingResultValue)
open Export JsText Reading

def maxLine : Nat := 80

inductive ResultToken where
  | whiteWin
  | blackWin
  | draw
  | asterisk
  deriving DecidableEq, Repr

def ResultToken.text : ResultToken → JsString
  | .whiteWin => units "1-0"
  | .blackWin => units "0-1"
  | .draw => units "1/2-1/2"
  | .asterisk => units "*"

def resultTokens : List ResultToken := [.whiteWin, .blackWin, .draw, .asterisk]

def pushIfPresent (tags : List (JsString × JsString)) (name : JsString) (value : Option JsString) :
    List (JsString × JsString) :=
  match value with
  | some value => if value = [] then tags else tags ++ [(name, value)]
  | none => tags

def ratingTag (player : Option ExportPlayer) : Option JsString :=
  (player.bind ExportPlayer.rating).map natText

def playerName : Option ExportPlayer → JsString
  | some player => player.lastName ++ units ", " ++ player.firstName
  | none => units "?"

def pgnDate : Option JsString → JsString
  | some isoDate => isoDate.map fun u => if u = 45 then 46 else u
  | none => units "????.??.??"

def escapeTag (value : JsString) : JsString :=
  let slashes := value.flatMap fun u => if u = 92 then [92, 92] else [u]
  let quotes := slashes.flatMap fun u => if u = 34 then [92, 34] else [u]
  replaceRuns (fun u => decide (u ∈ units "\r\n\t")) quotes

def resultTokenOf : PairingResultValue → ResultToken
  | .whiteWin => .whiteWin
  | .whiteWinForfeit => .whiteWin
  | .blackWin => .blackWin
  | .blackWinForfeit => .blackWin
  | .draw => .draw
  | _ => .asterisk

def isForfeit (result : PairingResultValue) : Bool :=
  decide (result ∈ [PairingResultValue.whiteWinForfeit, .blackWinForfeit, .doubleForfeit])

/-- One turn of the loop over the words: the lines that are full, and the current one. -/
def wrapWord (state : List JsString × JsString) (word : JsString) : List JsString × JsString :=
  if state.2 = [] then (state.1, word)
  else if state.2.length + 1 + word.length ≤ maxLine then (state.1, state.2 ++ space :: word)
  else (state.1 ++ [state.2], word)

def wrap (text : JsString) : JsString :=
  let state := (text.splitOn space).foldl wrapWord ([], [])
  join [lineFeed] (if state.2 = [] then state.1 else state.1 ++ [state.2])

def endsWithToken (normalized : JsString) : Bool :=
  resultTokens.any fun token => token.text.isSuffixOf normalized

def buildMovetext (storedPgn : Option JsString) (resultToken : ResultToken) : JsString :=
  let stored := (storedPgn.map trim).getD []
  if stored = [] then resultToken.text
  else
    let normalized := replaceRuns isSpace stored
    wrap (if endsWithToken normalized then normalized
      else normalized ++ units " " ++ resultToken.text)

example : buildMovetext (some (units " 1. d4 d5\n2. c4 ")) .draw =
    units "1. d4 d5 2. c4 1/2-1/2" := by
  decide

/-- A `Map` of the players: the last one with an id counts. -/
def playerById (players : List ExportPlayer) (registrationId : PlayerId) : Option ExportPlayer :=
  players.reverse.find? fun player => player.registrationId = registrationId

def gameTags (data : SectionExportData) (round : ExportRound) (pairing : ExportPairing) :
    List (JsString × JsString) :=
  let white := playerById data.players pairing.whiteRegistrationId
  let black := pairing.blackRegistrationId.bind (playerById data.players)
  let roster := [
    (units "Event", data.tournamentName ++ units " - " ++ data.sectionName),
    (units "Site", data.site.getD (units "?")),
    (units "Date", pgnDate (round.date.or data.startDate)),
    (units "Round", natText round.number),
    (units "White", playerName white),
    (units "Black", playerName black),
    (units "Result", (resultTokenOf pairing.result).text)]
  let tags := pushIfPresent roster (units "WhiteTitle") (white.bind ExportPlayer.title)
  let tags := pushIfPresent tags (units "BlackTitle") (black.bind ExportPlayer.title)
  let tags := pushIfPresent tags (units "WhiteElo") (ratingTag white)
  let tags := pushIfPresent tags (units "BlackElo") (ratingTag black)
  let tags := pushIfPresent tags (units "WhiteFideId") (white.bind ExportPlayer.fideId)
  let tags := pushIfPresent tags (units "BlackFideId") (black.bind ExportPlayer.fideId)
  if isForfeit pairing.result then tags ++ [(units "Termination", units "forfeit")] else tags

def tagLine (tag : JsString × JsString) : JsString :=
  units "[" ++ tag.1 ++ units " \"" ++ escapeTag tag.2 ++ units "\"]"

def writeGame (data : SectionExportData) (round : ExportRound) (pairing : ExportPairing) :
    JsString :=
  let tagSection := join [lineFeed] ((gameTags data round pairing).map tagLine)
  let movetext := buildMovetext pairing.pgn (resultTokenOf pairing.result)
  tagSection ++ units "\n\n" ++ movetext ++ units "\n"

/-- A bye is no game, and neither is a game that has no result yet. -/
def isGame (pairing : ExportPairing) : Bool :=
  !(decide (pairing.blackRegistrationId = none) || decide (pairing.result = .unplayed))

def exportedGames (data : SectionExportData) : List (ExportRound × ExportPairing) :=
  let rounds := data.rounds.insertionSort fun a b => a.number ≤ b.number
  rounds.flatMap fun round =>
    let pairings := round.pairings.insertionSort fun a b => a.boardNumber ≤ b.boardNumber
    (pairings.filter isGame).map fun pairing => (round, pairing)

def writeSectionPgn (data : SectionExportData) : JsString :=
  join [lineFeed] ((exportedGames data).map fun game => writeGame data game.1 game.2)

section Wrap

theorem join_append (separator : JsString) (lines : List JsString) (last more : JsString) :
    join separator (lines ++ [last ++ more]) = join separator (lines ++ [last]) ++ more := by
  induction lines with
  | nil => rw [List.nil_append, List.nil_append, join, join, List.intercalate_singleton,
      List.intercalate_singleton]
  | cons line lines ih =>
      rw [List.cons_append, List.cons_append, join_cons (by simp), join_cons (by simp), ih]
      simp only [List.append_assoc]

theorem join_concat {separator : JsString} {lines : List JsString} (some : lines ≠ [])
    (last : JsString) :
    join separator (lines ++ [last]) = join separator lines ++ separator ++ last := by
  induction lines with
  | nil => exact absurd rfl some
  | cons line lines ih =>
      cases lines with
      | nil => rw [List.singleton_append, join_cons (by simp), join, join,
          List.intercalate_singleton, List.intercalate_singleton]
      | cons next lines =>
          have more : next :: lines ≠ [] := List.cons_ne_nil _ _
          rw [List.cons_append, join_cons (by simp), ih more, join_cons more]
          simp only [List.append_assoc]

/-- What the loop keeps of its lines: nothing in them breaks a line, and one that is too long is a
word. -/
def IsLine (line : JsString) : Prop :=
  line ≠ [] ∧ lineFeed ∉ line ∧ (line.length ≤ maxLine ∨ space ∉ line)

theorem IsWord.isLine {word : JsString} (isWord : IsWord word) : IsLine word := by
  refine ⟨isWord.1, ?_, .inr ?_⟩
  · intro inside
    exact absurd (isWord.2 _ inside) (by decide)
  · intro inside
    exact absurd (isWord.2 _ inside) (by decide)

theorem IsLine.append_word {line word : JsString} (isLine : IsLine line) (isWord : IsWord word)
    (fits : line.length + 1 + word.length ≤ maxLine) : IsLine (line ++ space :: word) := by
  refine ⟨by simp, ?_, .inl ?_⟩
  · intro inside
    rcases List.mem_append.mp inside with old | new
    · exact isLine.2.1 old
    · rcases List.mem_cons.mp new with same | new
      · exact absurd same (by decide)
      · exact isWord.isLine.2.1 new
  · rw [List.length_append, List.length_cons]
    omega

theorem wrapWord_fits {lines : List JsString} {current word : JsString} (some : current ≠ [])
    (fits : current.length + 1 + word.length ≤ maxLine) :
    wrapWord (lines, current) word = (lines, current ++ space :: word) := by
  rw [wrapWord, if_neg some, if_pos fits]

theorem wrapWord_full {lines : List JsString} {current word : JsString} (some : current ≠ [])
    (full : ¬ current.length + 1 + word.length ≤ maxLine) :
    wrapWord (lines, current) word = (lines ++ [current], word) := by
  rw [wrapWord, if_neg some, if_neg full]

/-- The loop fills the lines. -/
theorem wrap_loop {list : List JsString} (isWords : ∀ word ∈ list, IsWord word)
    (lines : List JsString) (current : JsString) (areLines : ∀ line ∈ lines ++ [current],
      IsLine line) :
    ∃ (lines' : List JsString) (current' : JsString),
      list.foldl wrapWord (lines, current) = (lines', current') ∧
      (∀ line ∈ lines' ++ [current'], IsLine line) ∧
      join [lineFeed] (lines' ++ [current']) = join [lineFeed] (lines ++ [current]) ++
        (fill maxLine current.length list).flatMap written := by
  induction list generalizing lines current with
  | nil =>
      refine ⟨lines, current, rfl, areLines, ?_⟩
      rw [fill, List.flatMap_nil, List.append_nil]
  | cons word list ih =>
      have isWord : IsWord word := isWords word List.mem_cons_self
      have later : ∀ other ∈ list, IsWord other :=
        fun other listed => isWords other (List.mem_cons_of_mem word listed)
      obtain ⟨done, only⟩ := List.forall_mem_append.mp areLines
      have last : IsLine current := List.forall_mem_singleton.mp only
      rw [List.foldl_cons, fill, List.flatMap_cons, nextLength]
      by_cases fits : current.length + 1 + word.length ≤ maxLine
      · have areLines' : ∀ line ∈ lines ++ [current ++ space :: word], IsLine line :=
          List.forall_mem_append.mpr
            ⟨done, List.forall_mem_singleton.mpr (last.append_word isWord fits)⟩
        obtain ⟨lines', current', ran, kept, text⟩ := ih later lines _ areLines'
        rw [wrapWord_fits last.1 fits]
        refine ⟨lines', current', ran, kept, ?_⟩
        rw [text, join_append, if_neg (by omega), List.append_assoc, List.length_append,
          List.length_cons, Nat.add_comm word.length 1, ← Nat.add_assoc,
          decide_eq_false (by omega)]
        rfl
      · have areLines' : ∀ line ∈ lines ++ [current] ++ [word], IsLine line :=
          List.forall_mem_append.mpr ⟨areLines, List.forall_mem_singleton.mpr isWord.isLine⟩
        obtain ⟨lines', current', ran, kept, text⟩ := ih later (lines ++ [current]) word areLines'
        rw [wrapWord_full last.1 fits]
        refine ⟨lines', current', ran, kept, ?_⟩
        rw [text, join_concat (by simp), if_pos (by omega), decide_eq_true (by omega)]
        simp only [written, if_true, List.append_assoc, List.cons_append, List.nil_append]

/-- Words with single spaces between them, after wrapping. -/
theorem wrap_join {first : JsString} {list : List JsString}
    (isWords : ∀ word ∈ first :: list, IsWord word) :
    wrap (join [space] (first :: list)) =
        first ++ (fill maxLine first.length list).flatMap written ∧
      ∀ line ∈ (wrap (join [space] (first :: list))).splitOn lineFeed, IsLine line := by
  have isWord : IsWord first := isWords first List.mem_cons_self
  have split : (join [space] (first :: list)).splitOn space = first :: list := by
    refine List.splitOn_intercalate space (fun word listed inside => ?_) (List.cons_ne_nil _ _)
    exact absurd ((isWords word listed).2 _ inside) (by decide)
  obtain ⟨lines, current, ran, kept, text⟩ := wrap_loop
    (fun word listed => isWords word (List.mem_cons_of_mem first listed)) [] first
    (List.forall_mem_singleton.mpr isWord.isLine)
  have some : current ≠ [] := (kept current (by simp)).1
  have wrapped : wrap (join [space] (first :: list)) = join [lineFeed] (lines ++ [current]) := by
    unfold wrap
    rw [split, List.foldl_cons, wrapWord, if_pos rfl, ran]
    dsimp only
    rw [if_neg some]
  refine ⟨?_, ?_⟩
  · rw [wrapped, text, List.nil_append, join, List.intercalate_singleton]
  · have back : (join [lineFeed] (lines ++ [current])).splitOn lineFeed = lines ++ [current] :=
      List.splitOn_intercalate lineFeed (fun line listed => (kept line listed).2.1) (by simp)
    rw [wrapped, back]
    exact kept

end Wrap

end Farzin.Pgn
