import Farzin.TrfWriter

set_option autoImplicit false

/- A reader of tournament reports that knows lines and columns and nothing else, and what it is to
find in a report about a section. -/
namespace Farzin.Trf

open Arbiter (PairingResultValue)
open Export JsText Lines

inductive Mark where
  | win
  | draw
  | loss
  | forfeitWin
  | forfeitLoss
  deriving DecidableEq, Repr

inductive Bye where
  | full
  | half
  | zero
  deriving DecidableEq, Repr

inductive RoundEntry where
  | notPaired
  | bye (kind : Bye)
  | game (opponent : Nat) (isWhite : Bool) (mark : Mark)
  deriving DecidableEq, Repr

/-- What the line of a player says. -/
structure Reading where
  rank : Nat
  points : Nat
  rounds : List RoundEntry
  deriving DecidableEq, Repr

section Reader

def readMark (text : JsString) : Option Mark :=
  if text = units "1" then some .win
  else if text = units "=" then some .draw
  else if text = units "0" then some .loss
  else if text = units "+" then some .forfeitWin
  else if text = units "-" then some .forfeitLoss
  else none

def readBye (text : JsString) : Option Bye :=
  if text = units "U" then some .full
  else if text = units "H" then some .half
  else if text = units "Z" then some .zero
  else none

def readColor (text : JsString) : Option Bool :=
  if text = units "w" then some true
  else if text = units "b" then some false
  else none

/-- Ten columns: the opponent in the third to the sixth, the color in the eighth, the result in
the tenth. -/
def readBlock (block : JsString) : Option RoundEntry :=
  let opponent := cut 2 6 block
  let color := cut 7 8 block
  let result := cut 9 10 block
  if color = units "-" then
    if opponent = units "0000" ∧ result = units "-" then some .notPaired
    else (readBye result).map .bye
  else
    match readRight opponent, readColor color, readMark result with
    | some rank, some isWhite, some mark => some (.game rank isWhite mark)
    | _, _, _ => none

def readBlocks (line : JsString) : Option (List RoundEntry) :=
  (List.range ((line.length - 89) / 10)).mapM fun k =>
    readBlock (cut (89 + 10 * k) (99 + 10 * k) line)

def readLine (line : JsString) : Option Reading :=
  match readRight (cut 4 8 line), readTenths (cut 80 84 line), readBlocks line with
  | some rank, some points, some rounds => some ⟨rank, points, rounds⟩
  | _, _, _ => none

def isLineFeed (u : UInt16) : Bool := u == lineFeed

/-- The lines of a text; the last one need not be ended. -/
def linesOf (text : JsString) : List JsString :=
  let parts := split isLineFeed text
  if parts.2 = [] then parts.1 else parts.1 ++ [parts.2]

def playerLines (text : JsString) : List JsString :=
  (linesOf text).filter fun line => (units "001").isPrefixOf line

def readTrf (text : JsString) : Option (List Reading) := (playerLines text).mapM readLine

end Reader

section Expected

def markOf (result : PairingResultValue) (isWhite : Bool) : Option Mark :=
  match result with
  | .whiteWin => some (if isWhite then .win else .loss)
  | .blackWin => some (if isWhite then .loss else .win)
  | .draw => some .draw
  | .whiteWinForfeit => some (if isWhite then .forfeitWin else .forfeitLoss)
  | .blackWinForfeit => some (if isWhite then .forfeitLoss else .forfeitWin)
  | .doubleForfeit => some .forfeitLoss
  | _ => none

def byeOf : PairingResultValue → Option Bye
  | .byeFull => some .full
  | .byeHalf => some .half
  | .byeZero => some .zero
  | _ => none

/-- The two sides of a result. -/
def Mark.Complements : Mark → Mark → Prop
  | .win, .loss | .loss, .win | .draw, .draw | .forfeitWin, .forfeitLoss
  | .forfeitLoss, .forfeitWin | .forfeitLoss, .forfeitLoss => True
  | _, _ => False

/-- What a player's pairing says about the player. -/
def entryOf (players : List ExportPlayer) (player : ExportPlayer) (pairing : ExportPairing) :
    RoundEntry :=
  let isWhite := decide (pairing.whiteRegistrationId = player.registrationId)
  let opponentId :=
    if isWhite then pairing.blackRegistrationId else some pairing.whiteRegistrationId
  match byeOf pairing.result, markOf pairing.result isWhite,
      opponentId.bind (startRankById players) with
  | some kind, _, _ => .bye kind
  | none, some mark, some rank => .game rank isWhite mark
  | _, _, _ => .notPaired

def roundEntry (players : List ExportPlayer) (player : ExportPlayer) (round : ExportRound) :
    RoundEntry :=
  match findPairing player.registrationId round with
  | none => .notPaired
  | some pairing => entryOf players player pairing

def expected (data : SectionExportData) (player : ExportPlayer) : Reading where
  rank := player.startRank
  points := player.points
  rounds := (byNumber data.rounds).map (roundEntry data.players player)

end Expected

section Fields

theorem fixed_length (value : JsString) (width : Nat) (align : Align) :
    (fixed value width align).length = width := by
  have field : (if value.length > width then value.take width else value).length ≤ width := by
    split
    · rw [List.length_take]
      exact Nat.min_le_left _ _
    · omega
  unfold fixed
  cases align with
  | left => exact padEnd_length field
  | right => exact padStart_length field

/-- A value that fits is only padded. -/
theorem fixed_right {value : JsString} {width : Nat} (fits : value.length ≤ width) :
    fixed value width .right = padStart value width := by
  unfold fixed
  rw [if_neg (Nat.not_lt.mpr fits)]

theorem readRight_rank {rank : Nat} (small : rank ≤ 9999) :
    readRight (fixed (natText rank) 4 .right) = some rank := by
  rw [fixed_right (natText_length (by decide) (by omega)), readRight_padStart]

theorem readTenths_points {points : Nat} (small : points < 1000) :
    readTenths (fixed (tenthsText points) 4 .right) = some points := by
  rw [fixed_right (tenthsText_length small), readTenths_padStart]

end Fields

section Blocks

/-- The columns of a block. -/
theorem readBlock_columns {opponent color result : JsString} (wide : opponent.length = 4)
    (one : color.length = 1) (single : result.length = 1) :
    readBlock (units "  " ++ opponent ++ units " " ++ color ++ units " " ++ result) =
      if color = units "-" then
        if opponent = units "0000" ∧ result = units "-" then some .notPaired
        else (readBye result).map .bye
      else
        match readRight opponent, readColor color, readMark result with
        | some rank, some isWhite, some mark => some (.game rank isWhite mark)
        | _, _, _ => none := by
  obtain ⟨a, b, c, d, rfl⟩ : ∃ a b c d, opponent = [a, b, c, d] := by
    match opponent, wide with
    | [a, b, c, d], _ => exact ⟨a, b, c, d, rfl⟩
  obtain ⟨e, rfl⟩ := List.length_eq_one_iff.mp one
  obtain ⟨f, rfl⟩ := List.length_eq_one_iff.mp single
  rfl

/-- A pairing whose opponent is listed, and which is only without one as a bye. -/
structure Fits (players : List ExportPlayer) (player : ExportPlayer) (pairing : ExportPairing) :
    Prop where
  opponent : ∀ id, (id = pairing.whiteRegistrationId ∨
    pairing.blackRegistrationId = some id) → ∃ rank ≤ 9999, startRankById players id = some rank
  bye : pairing.blackRegistrationId = none → markOf pairing.result true = none

theorem sideOutcome_length {result : PairingResultValue} (played : result ≠ .unplayed)
    (isWhite : Bool) : (sideOutcome result isWhite).1.length = 1 ∧
      ∃ u, (sideOutcome result isWhite).2 = [u] ∧ isSpace u = false := by
  cases result with
  | unplayed => exact absurd rfl played
  | _ => cases isWhite <;> exact ⟨rfl, _, rfl, rfl⟩

theorem sideOutcome_game {result : PairingResultValue} {isWhite : Bool} {mark : Mark}
    (marked : markOf result isWhite = some mark) :
    readColor (sideOutcome result isWhite).1 = some isWhite ∧
      (sideOutcome result isWhite).1 ≠ units "-" ∧
      readMark (sideOutcome result isWhite).2 = some mark ∧ byeOf result = none := by
  cases result with
  | byeFull | byeHalf | byeZero | unplayed => cases marked
  | _ => cases isWhite <;> cases marked <;> decide

theorem sideOutcome_bye {result : PairingResultValue} {kind : Bye}
    (bye : byeOf result = some kind) (isWhite : Bool) :
    (sideOutcome result isWhite).1 = units "-" ∧
      (sideOutcome result isWhite).2 ≠ units "-" ∧
      readBye (sideOutcome result isWhite).2 = some kind := by
  cases result with
  | byeFull | byeHalf | byeZero => cases isWhite <;> cases bye <;> decide
  | _ => cases bye

theorem played_cases {result : PairingResultValue} (played : result ≠ .unplayed)
    (isWhite : Bool) : (∃ kind, byeOf result = some kind) ∨
      ∃ mark, markOf result isWhite = some mark := by
  cases result with
  | unplayed => exact absurd rfl played
  | byeFull | byeHalf | byeZero => exact Or.inl ⟨_, rfl⟩
  | _ => exact Or.inr ⟨_, rfl⟩

theorem markOf_side {result : PairingResultValue} (none : markOf result true = none)
    (isWhite : Bool) : markOf result isWhite = Option.none := by
  cases result with
  | byeFull | byeHalf | byeZero | unplayed => rfl
  | _ => cases none

variable {players : List ExportPlayer} {player : ExportPlayer} {round : ExportRound}
  {pairing : ExportPairing}

/-- Who plays on the other side. -/
def opponentOf (player : ExportPlayer) (pairing : ExportPairing) : Option PlayerId :=
  if decide (pairing.whiteRegistrationId = player.registrationId) then
    pairing.blackRegistrationId
  else some pairing.whiteRegistrationId

/-- The columns of the opponent in a block with a result. -/
def opponentField (players : List ExportPlayer) (player : ExportPlayer)
    (pairing : ExportPairing) : JsString :=
  match (opponentOf player pairing).bind (startRankById players) with
  | none => units "0000"
  | some rank => fixed (natText rank) 4 .right

theorem opponentField_length : (opponentField players player pairing).length = 4 := by
  unfold opponentField
  split
  · rfl
  · exact fixed_length _ _ _

theorem readRight_opponentField {rank : Nat} (small : rank ≤ 9999)
    (known : (opponentOf player pairing).bind (startRankById players) = some rank) :
    readRight (opponentField players player pairing) = some rank := by
  unfold opponentField
  rw [known]
  exact readRight_rank small

variable (players) in
theorem roundBlock_unpaired (unpaired : ∀ pairing,
    findPairing player.registrationId round = some pairing → pairing.result = .unplayed) :
    roundBlock players player round = units "  0000 - -" ∧
      roundEntry players player round = .notPaired := by
  unfold roundBlock roundEntry
  cases found : findPairing player.registrationId round with
  | none => exact ⟨rfl, rfl⟩
  | some pairing =>
      have unplayed := unpaired pairing found
      unfold entryOf
      dsimp only
      rw [if_pos unplayed, unplayed]
      exact ⟨rfl, rfl⟩

variable (players) in
/-- The block for a pairing with a result. -/
theorem roundBlock_played (found : findPairing player.registrationId round = some pairing)
    (played : pairing.result ≠ .unplayed) :
    roundBlock players player round =
      units "  " ++ opponentField players player pairing ++ units " " ++
        (sideOutcome pairing.result
          (decide (pairing.whiteRegistrationId = player.registrationId))).1 ++ units " " ++
        (sideOutcome pairing.result
          (decide (pairing.whiteRegistrationId = player.registrationId))).2 := by
  unfold roundBlock
  rw [found]
  exact if_neg played

theorem entryOf_bye {kind : Bye} (bye : byeOf pairing.result = some kind) :
    entryOf players player pairing = .bye kind := by
  unfold entryOf
  rw [bye]

theorem entryOf_game {mark : Mark} {rank : Nat}
    (marked : markOf pairing.result
      (decide (pairing.whiteRegistrationId = player.registrationId)) = some mark)
    (known : (opponentOf player pairing).bind (startRankById players) = some rank) :
    entryOf players player pairing =
      .game rank (decide (pairing.whiteRegistrationId = player.registrationId)) mark := by
  unfold opponentOf at known
  unfold entryOf
  dsimp only
  rw [(sideOutcome_game marked).2.2.2, marked, known]

/-- The opponent in a game is listed. -/
theorem Fits.known (fits : Fits players player pairing) {mark : Mark}
    (marked : markOf pairing.result
      (decide (pairing.whiteRegistrationId = player.registrationId)) = some mark) :
    ∃ rank ≤ 9999, (opponentOf player pairing).bind (startRankById players) = some rank := by
  unfold opponentOf
  by_cases white : pairing.whiteRegistrationId = player.registrationId
  · rw [if_pos (decide_eq_true white)]
    cases black : pairing.blackRegistrationId with
    | none =>
        rw [markOf_side (fits.bye black)] at marked
        cases marked
    | some id => exact fits.opponent id (Or.inr black)
  · rw [if_neg (by simpa using white)]
    exact fits.opponent _ (Or.inl rfl)

theorem readBlock_roundBlock (fits : ∀ pairing,
    findPairing player.registrationId round = some pairing → Fits players player pairing) :
    readBlock (roundBlock players player round) = some (roundEntry players player round) := by
  by_cases unpaired : ∀ pairing,
      findPairing player.registrationId round = some pairing → pairing.result = .unplayed
  · obtain ⟨block, entry⟩ := roundBlock_unpaired players unpaired
    rw [block, entry]
    decide
  · obtain ⟨pairing, exception⟩ := not_forall.mp unpaired
    obtain ⟨found, played⟩ := Classical.not_imp.mp exception
    obtain ⟨one, last, solid, -⟩ := sideOutcome_length played
      (decide (pairing.whiteRegistrationId = player.registrationId))
    have single : (sideOutcome pairing.result
        (decide (pairing.whiteRegistrationId = player.registrationId))).2.length = 1 := by
      rw [solid]
      rfl
    have entry : roundEntry players player round = entryOf players player pairing := by
      unfold roundEntry
      rw [found]
    rw [roundBlock_played players found played, entry,
      readBlock_columns opponentField_length one single]
    obtain ⟨kind, bye⟩ | ⟨mark, marked⟩ := played_cases played
      (decide (pairing.whiteRegistrationId = player.registrationId))
    · obtain ⟨color, other, reads⟩ := sideOutcome_bye bye
        (decide (pairing.whiteRegistrationId = player.registrationId))
      rw [if_pos color, if_neg fun both => other both.2, reads, entryOf_bye bye]
      rfl
    · obtain ⟨color, other, result, -⟩ := sideOutcome_game marked
      obtain ⟨rank, small, known⟩ := (fits pairing found).known marked
      rw [if_neg other, readRight_opponentField small known, color, result,
        entryOf_game marked known]

/-- A block is ten units, of which the last is not blank. -/
theorem roundBlock_shape (players : List ExportPlayer) (player : ExportPlayer)
    (round : ExportRound) : ∃ front last, roundBlock players player round = front ++ [last] ∧
      front.length = 9 ∧ isSpace last = false := by
  by_cases unpaired : ∀ pairing,
      findPairing player.registrationId round = some pairing → pairing.result = .unplayed
  · rw [(roundBlock_unpaired players unpaired).1]
    exact ⟨units "  0000 - ", 45, rfl, rfl, rfl⟩
  · obtain ⟨pairing, exception⟩ := not_forall.mp unpaired
    obtain ⟨found, played⟩ := Classical.not_imp.mp exception
    obtain ⟨one, last, solid, blank⟩ := sideOutcome_length played
      (decide (pairing.whiteRegistrationId = player.registrationId))
    rw [roundBlock_played players found played, solid]
    refine ⟨_, last, rfl, ?_, blank⟩
    simp [units, opponentField_length, one]

end Blocks

section Line

variable (players : List ExportPlayer) (player : ExportPlayer) (rounds : List ExportRound)

/-- The columns before the name. -/
def lineStart : JsString :=
  units "001 " ++ fixed (natText player.startRank) 4 .right ++ units " " ++
    (sexChar player.gender ++ fixed (trfTitle player.title) 3 .right) ++ units " "

/-- The columns between the name and the points. -/
def lineMiddle : JsString :=
  units " " ++ fixed (natText (player.rating.getD 0)) 4 .right ++ units " " ++
    fixed (player.federation.getD []) 3 .left ++ units " " ++
    fixed (player.fideId.getD []) 11 .right ++ units " " ++
    fixed (trfDate player.birthDate) 10 .left ++ units " "

/-- The columns after the points. -/
def lineEnd : JsString :=
  units " " ++ fixed ((player.rank.map natText).getD []) 4 .right ++
    rounds.flatMap (roundBlock players player)

theorem playerLine_eq : playerLine players player rounds =
    lineStart player ++ (fixed (playerName player) 33 .left ++ (lineMiddle player ++
      (fixed (tenthsText player.points) 4 .right ++ lineEnd players player rounds))) := by
  have mark : units "001 " = units "001" ++ units " " := rfl
  unfold playerLine lineStart lineMiddle lineEnd join
  rw [mark]
  simp [List.intercalate, List.append_assoc]

theorem sexChar_length (gender : Option Gender) : (sexChar gender).length = 1 := by
  cases gender with
  | none => rfl
  | some gender => cases gender <;> rfl

theorem lineStart_length : (lineStart player).length = 14 := by
  unfold lineStart
  simp only [List.length_append, fixed_length, sexChar_length]
  rfl

theorem lineMiddle_length : (lineMiddle player).length = 33 := by
  unfold lineMiddle
  simp only [List.length_append, fixed_length]
  rfl

variable {player}

/-- Trimming a line leaves its columns up to the points. -/
theorem trimEnd_playerLine (small : player.points < 1000) :
    trimEnd (playerLine players player rounds) =
      lineStart player ++ (fixed (playerName player) 33 .left ++ (lineMiddle player ++
        (fixed (tenthsText player.points) 4 .right ++
          trimEnd (lineEnd players player rounds)))) := by
  obtain ⟨front, points⟩ : ∃ front, fixed (tenthsText player.points) 4 .right =
      front ++ [digitUnit (player.points % 10)] := by
    rw [fixed_right (tenthsText_length small)]
    unfold padStart tenthsText
    exact ⟨_, (List.append_assoc _ _ _).symm⟩
  have digit : isSpace (digitUnit (player.points % 10)) = false :=
    digit_not_space (isDigit_digitUnit (Nat.mod_lt _ (by decide)))
  rw [playerLine_eq, points]
  simp only [List.append_assoc, List.singleton_append]
  have kept := trimEnd_append (lineStart player ++ (fixed (playerName player) 33 .left ++
    (lineMiddle player ++ front))) digit (lineEnd players player rounds)
  simpa only [List.append_assoc] using kept

/-- After the last block nothing is trimmed. -/
theorem trimEnd_lineEnd (some : rounds ≠ []) :
    trimEnd (lineEnd players player rounds) = lineEnd players player rounds := by
  obtain ⟨rounds, round, rfl⟩ := List.eq_nil_or_concat rounds |>.resolve_left some
  obtain ⟨front, last, block, -, solid⟩ := roundBlock_shape players player round
  unfold lineEnd
  rw [List.concat_eq_append, List.flatMap_append, List.flatMap_singleton, block]
  have kept := trimEnd_append (units " " ++ fixed ((player.rank.map natText).getD []) 4 .right ++
    rounds.flatMap (roundBlock players player) ++ front) solid []
  simpa only [List.append_assoc, trimEnd_nil] using kept

theorem mapM_range_some {β : Type} {read : Nat → Option β} {entries : List β}
    (each : ∀ k (inside : k < entries.length), read k = some entries[k]) :
    (List.range entries.length).mapM read = some entries := by
  induction entries using List.reverseRecOn with
  | nil => rfl
  | append_singleton entries entry ih =>
      have before : (List.range entries.length).mapM read = some entries := by
        refine ih fun k inside => ?_
        rw [each k (by rw [List.length_append]; omega), List.getElem_append_left inside]
      have last : read entries.length = some entry := by
        rw [each entries.length (by simp), List.getElem_concat_length rfl]
      rw [List.length_append, List.length_singleton, List.range_succ, List.mapM_append, before,
        List.mapM_cons, last]
      rfl

/-- Blocks that stand from column 89 on are read one by one. -/
theorem readBlocks_append {ι : Type} {front : JsString} (before : front.length = 89)
    {items : List ι} {block : ι → JsString} {entry : ι → RoundEntry}
    (wide : ∀ item ∈ items, (block item).length = 10)
    (reads : ∀ item ∈ items, readBlock (block item) = some (entry item)) :
    readBlocks (front ++ items.flatMap block) = some (items.map entry) := by
  have length : ∀ some : List ι, (∀ item ∈ some, item ∈ items) →
      (some.flatMap block).length = 10 * some.length := by
    intro some among
    induction some with
    | nil => rfl
    | cons item some ih =>
        have rest := ih fun other inside => among other (List.mem_cons_of_mem _ inside)
        rw [List.flatMap_cons, List.length_append, wide item (among item List.mem_cons_self), rest,
          List.length_cons]
        omega
  have count : ((front ++ items.flatMap block).length - 89) / 10 = (items.map entry).length := by
    rw [List.length_append, before, length items fun _ inside => inside, List.length_map]
    omega
  unfold readBlocks
  rw [count]
  refine mapM_range_some fun k inside => ?_
  rw [List.length_map] at inside
  have field : cut (89 + 10 * k) (99 + 10 * k) (front ++ items.flatMap block) =
      block items[k] := by
    have parts : items.flatMap block = (items.take k).flatMap block ++
        (block items[k] ++ (items.drop (k + 1)).flatMap block) := by
      rw [← List.flatMap_cons, ← List.flatMap_append, List.getElem_cons_drop inside,
        List.take_append_drop]
    have columns : (front ++ (items.take k).flatMap block).length = 89 + 10 * k := by
      rw [List.length_append, before, length _ fun _ => List.mem_of_mem_take, List.length_take]
      omega
    rw [parts, ← List.append_assoc]
    refine cut_append columns ?_
    rw [wide _ (List.getElem_mem inside)]
    omega
  rw [field, reads _ (List.getElem_mem inside), List.getElem_map]

variable {players rounds}

theorem cut_rank (small : player.points < 1000) :
    cut 4 8 (trimEnd (playerLine players player rounds)) =
      fixed (natText player.startRank) 4 .right := by
  have mark : (units "001 ").length = 4 := rfl
  have width : 4 + (fixed (natText player.startRank) 4 .right).length = 8 := by
    rw [fixed_length]
  rw [trimEnd_playerLine _ _ small]
  unfold lineStart
  simp only [List.append_assoc]
  exact cut_append mark width

theorem cut_points (small : player.points < 1000) :
    cut 80 84 (trimEnd (playerLine players player rounds)) =
      fixed (tenthsText player.points) 4 .right := by
  have columns : (lineStart player ++ fixed (playerName player) 33 .left ++
      lineMiddle player).length = 80 := by
    simp only [List.length_append, fixed_length, lineStart_length, lineMiddle_length]
  have width : 80 + (fixed (tenthsText player.points) 4 .right).length = 84 := by
    rw [fixed_length]
  rw [trimEnd_playerLine _ _ small, ← List.append_assoc, ← List.append_assoc]
  exact cut_append columns width

theorem readBlocks_trimmed (small : player.points < 1000)
    (fits : ∀ round ∈ rounds, ∀ pairing,
      findPairing player.registrationId round = some pairing → Fits players player pairing) :
    readBlocks (trimEnd (playerLine players player rounds)) =
      some (rounds.map (roundEntry players player)) := by
  cases rounds with
  | nil =>
      -- Without blocks the rank may be trimmed, and there is no block to read.
      have width : (trimEnd (playerLine players player [])).length ≤ 89 := by
        refine (trimEnd_isPrefix _).length_le.trans ?_
        rw [playerLine_eq]
        unfold lineEnd
        simp only [List.length_append, fixed_length, lineStart_length, lineMiddle_length,
          List.flatMap_nil, List.length_nil]
        decide
      have none : ((trimEnd (playerLine players player [])).length - 89) / 10 = 0 := by
        omega
      unfold readBlocks
      rw [none]
      rfl
  | cons round rounds =>
      have columns : (lineStart player ++ fixed (playerName player) 33 .left ++
          lineMiddle player ++ fixed (tenthsText player.points) 4 .right ++
          (units " " ++ fixed ((player.rank.map natText).getD []) 4 .right)).length = 89 := by
        simp only [List.length_append, fixed_length, lineStart_length, lineMiddle_length]
        rfl
      have wide : ∀ item ∈ round :: rounds, (roundBlock players player item).length = 10 := by
        intro item _
        obtain ⟨front, last, block, nine, -⟩ := roundBlock_shape players player item
        rw [block, List.length_append, nine]
        rfl
      rw [trimEnd_playerLine _ _ small, trimEnd_lineEnd _ _ (List.cons_ne_nil _ _),
        ← readBlocks_append columns wide fun item inside => readBlock_roundBlock (fits item inside)]
      unfold lineEnd
      simp only [List.append_assoc]

/-- The columns of a player's line, when it is one line. -/
theorem readLine_trimmed (number : player.startRank ≤ 9999) (small : player.points < 1000)
    (fits : ∀ round ∈ rounds, ∀ pairing,
      findPairing player.registrationId round = some pairing → Fits players player pairing) :
    readLine (trimEnd (playerLine players player rounds)) =
      some ⟨player.startRank, player.points, rounds.map (roundEntry players player)⟩ := by
  unfold readLine
  rw [cut_rank small, cut_points small, readBlocks_trimmed small fits,
    readRight_rank number, readTenths_points small]

end Line

end Farzin.Trf
