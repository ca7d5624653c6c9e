import Farzin.TrfReader

set_option autoImplicit false

/- Which reports can be read back: those in which no printed name holds a line feed, and neither
the name of the tournament nor that of the section one in front of `001`. -/
namespace Farzin.Trf

open Arbiter (PairingResultValue)
open Export JsText Lines

/-- The data as `buildSectionExportData` makes it, but for the texts that users choose. -/
structure Producible (data : SectionExportData) : Prop where
  ids : (data.players.map ExportPlayer.registrationId).Nodup
  ranks : ∀ player ∈ data.players, player.startRank ≤ 9999
  points : ∀ player ∈ data.players, player.points < 1000
  once : ∀ round ∈ data.rounds, (round.pairings.flatMap ExportPairing.playerIds).Nodup
  listed : ∀ round ∈ data.rounds, ∀ pairing ∈ round.pairings, ∀ id ∈ pairing.playerIds,
    ∃ player ∈ data.players, player.registrationId = id
  byes : ∀ round ∈ data.rounds, ∀ pairing ∈ round.pairings, pairing.blackRegistrationId = none →
    Arbiter.Section.isByeResult pairing.result = true
  columns : ∀ player ∈ data.players, lineFeed ∉ player.federation.getD [] ∧
    lineFeed ∉ player.fideId.getD [] ∧ lineFeed ∉ player.birthDate.getD []
  header : lineFeed ∉ data.city.getD [] ∧ lineFeed ∉ data.federation.getD [] ∧
    lineFeed ∉ data.startDate.getD [] ∧ lineFeed ∉ data.endDate.getD [] ∧
    lineFeed ∉ data.tournamentType.getD []
  arbiter : data.chiefArbiter = none

/-- A line feed with `001` after it. -/
def HoldsPlayerLine (text : JsString) : Prop :=
  ∃ front back, text = front ++ lineFeed :: (units "001" ++ back)

structure Readable (data : SectionExportData) : Prop where
  names : ∀ player ∈ data.players, lineFeed ∉ (playerName player).take 33
  titles : ¬ HoldsPlayerLine (data.tournamentName ++ units " - " ++ data.sectionName)

/-- One line for each player, the columns of which give the player's data back, and the two sides
of each game with a result agree. -/
structure ReadsBack (data : SectionExportData) (text : JsString) : Prop where
  lines : (playerLines text).length = data.players.length
  readings : readTrf text = some ((byStartRank data.players).map (expected data))
  games : ∀ readings, readTrf text = some readings →
    ∀ (k : Nat) (round : ExportRound), (byNumber data.rounds)[k]? = some round →
    ∀ pairing ∈ round.pairings, pairing.result ≠ .unplayed →
    Arbiter.Section.isByeResult pairing.result = false →
    ∀ white ∈ data.players, ∀ black ∈ data.players,
      pairing.whiteRegistrationId = white.registrationId →
      pairing.blackRegistrationId = some black.registrationId →
      ∃ whites ∈ readings, ∃ blacks ∈ readings,
        whites.rank = white.startRank ∧ blacks.rank = black.startRank ∧
        ∃ mark mark' : Mark,
          whites.rounds[k]? = some (RoundEntry.game black.startRank true mark) ∧
          blacks.rounds[k]? = some (RoundEntry.game white.startRank false mark') ∧
          mark.Complements mark'

section Breaks

theorem not_mem_replicate {u : UInt16} (other : lineFeed ≠ u) (count : Nat) :
    lineFeed ∉ List.replicate count u :=
  fun inside => other (List.eq_of_mem_replicate inside)

theorem not_mem_fixed {value : JsString} (free : lineFeed ∉ value) (width : Nat) (align : Align) :
    lineFeed ∉ fixed value width align := by
  have field : lineFeed ∉ (if value.length > width then value.take width else value) := by
    split
    · exact fun inside => free (List.mem_of_mem_take inside)
    · exact free
  have padding : ∀ count, lineFeed ∉ List.replicate count space :=
    not_mem_replicate (by decide)
  unfold fixed padStart padEnd
  cases align with
  | left => simp only [List.mem_append, field, padding, or_self, not_false_eq_true]
  | right => simp only [List.mem_append, field, padding, or_self, not_false_eq_true]

theorem mem_fixed_left {value : JsString} (width : Nat) :
    lineFeed ∈ fixed value width .left ↔ lineFeed ∈ value.take width := by
  have padding : ∀ count, lineFeed ∉ List.replicate count space :=
    not_mem_replicate (by decide)
  unfold fixed padEnd
  by_cases long : value.length > width
  · simp only [if_pos long, List.mem_append, padding, or_false]
  · simp only [if_neg long, List.mem_append, padding, or_false,
      List.take_of_length_le (Nat.le_of_not_gt long)]

theorem not_mem_of_isDigit {text : JsString} (digits : ∀ u ∈ text, isDigit u = true) :
    lineFeed ∉ text := by
  intro inside
  exact absurd (digits _ inside) (by decide)

theorem not_mem_natText (n : Nat) : lineFeed ∉ natText n :=
  not_mem_of_isDigit (natText_isDigit n).2

theorem not_mem_tenthsText (tenths : Nat) : lineFeed ∉ tenthsText tenths := by
  have last : lineFeed ∉ [digitUnit (tenths % 10)] := by
    refine not_mem_of_isDigit fun u inside => ?_
    rw [List.mem_singleton.mp inside]
    exact isDigit_digitUnit (Nat.mod_lt _ (by decide))
  have point : lineFeed ∉ units "." := by decide
  unfold tenthsText
  simp only [List.mem_append, not_mem_natText, last, point, or_self, not_false_eq_true]

theorem not_mem_trfTitle (title : Option JsString) : lineFeed ∉ trfTitle title := by
  unfold trfTitle
  cases title with
  | none => exact List.not_mem_nil
  | some title =>
      dsimp only
      split
      · next listed =>
          have free : ∀ title ∈ fideTitles, lineFeed ∉ title := by decide
          exact free title listed
      · exact List.not_mem_nil

theorem not_mem_trfDate {date : Option JsString} (free : lineFeed ∉ date.getD []) :
    lineFeed ∉ trfDate date := by
  cases date with
  | none => exact List.not_mem_nil
  | some date =>
      intro inside
      obtain ⟨u, listed, same⟩ := List.mem_map.mp inside
      split at same
      · exact absurd same (by decide)
      · exact free (same ▸ listed)

theorem not_mem_lineStart (player : ExportPlayer) : lineFeed ∉ lineStart player := by
  have mark : lineFeed ∉ units "001 " := by decide
  have blank : lineFeed ∉ units " " := by decide
  have sex : lineFeed ∉ sexChar player.gender := by
    cases player.gender with
    | none => decide
    | some gender => cases gender <;> decide
  unfold lineStart
  simp only [List.mem_append, mark, blank, sex, not_mem_fixed (not_mem_natText _),
    not_mem_fixed (not_mem_trfTitle _), or_self, not_false_eq_true]

theorem not_mem_lineMiddle {player : ExportPlayer}
    (free : lineFeed ∉ player.federation.getD [] ∧ lineFeed ∉ player.fideId.getD [] ∧
      lineFeed ∉ player.birthDate.getD []) : lineFeed ∉ lineMiddle player := by
  have blank : lineFeed ∉ units " " := by decide
  unfold lineMiddle
  simp only [List.mem_append, blank, not_mem_fixed (not_mem_natText _), not_mem_fixed free.1,
    not_mem_fixed free.2.1, not_mem_fixed (not_mem_trfDate free.2.2), or_self, not_false_eq_true]

theorem not_mem_sideOutcome (result : PairingResultValue) (isWhite : Bool) :
    lineFeed ∉ (sideOutcome result isWhite).1 ∧ lineFeed ∉ (sideOutcome result isWhite).2 := by
  cases result <;> cases isWhite <;> decide

theorem not_mem_roundBlock (players : List ExportPlayer) (player : ExportPlayer)
    (round : ExportRound) : lineFeed ∉ roundBlock players player round := by
  by_cases unpaired : ∀ pairing,
      findPairing player.registrationId round = some pairing → pairing.result = .unplayed
  · rw [(roundBlock_unpaired players unpaired).1]
    decide
  · obtain ⟨pairing, exception⟩ := not_forall.mp unpaired
    obtain ⟨found, played⟩ := Classical.not_imp.mp exception
    have blank : lineFeed ∉ units " " := by decide
    have margin : lineFeed ∉ units "  " := by decide
    have opponent : lineFeed ∉ opponentField players player pairing := by
      unfold opponentField
      split
      · decide
      · exact not_mem_fixed (not_mem_natText _) _ _
    rw [roundBlock_played players found played]
    simp only [List.mem_append, blank, margin, opponent, not_mem_sideOutcome, or_self,
      not_false_eq_true]

theorem not_mem_lineEnd (players : List ExportPlayer) (player : ExportPlayer)
    (rounds : List ExportRound) : lineFeed ∉ lineEnd players player rounds := by
  have blank : lineFeed ∉ units " " := by decide
  have rank : lineFeed ∉ (player.rank.map natText).getD [] := by
    cases player.rank with
    | none => exact List.not_mem_nil
    | some rank => exact not_mem_natText rank
  have blocks : lineFeed ∉ rounds.flatMap (roundBlock players player) := by
    intro inside
    obtain ⟨round, -, block⟩ := List.mem_flatMap.mp inside
    exact not_mem_roundBlock players player round block
  unfold lineEnd
  simp only [List.mem_append, blank, not_mem_fixed rank, blocks, or_self, not_false_eq_true]

/-- Only the name can break the line of a player. -/
theorem mem_playerLine {players : List ExportPlayer} {player : ExportPlayer}
    {rounds : List ExportRound}
    (free : lineFeed ∉ player.federation.getD [] ∧ lineFeed ∉ player.fideId.getD [] ∧
      lineFeed ∉ player.birthDate.getD []) :
    lineFeed ∈ playerLine players player rounds ↔ lineFeed ∈ (playerName player).take 33 := by
  rw [playerLine_eq]
  simp only [List.mem_append, not_mem_lineStart, mem_fixed_left, not_mem_lineMiddle free,
    not_mem_fixed (not_mem_tenthsText _), not_mem_lineEnd, false_or, or_false]

end Breaks

section Text

theorem isLineFeed_eq_false {text : JsString} :
    (∀ u ∈ text, isLineFeed u = false) ↔ lineFeed ∉ text := by
  unfold isLineFeed
  constructor
  · exact fun free inside => absurd (free _ inside) (by decide)
  · intro free u inside
    rw [beq_eq_false_iff_ne]
    rintro rfl
    exact free inside

/-- The lines that one written line is read as. -/
def pieces (line : JsString) : List JsString := (split isLineFeed (line ++ [lineFeed])).1

theorem pieces_of_free {line : JsString} (free : lineFeed ∉ line) : pieces line = [line] :=
  split_unbroken rfl (isLineFeed_eq_false.mpr free)

theorem linesOf_join {lines : List JsString} (some : lines ≠ []) :
    linesOf (join [lineFeed] lines ++ [lineFeed]) = lines.flatMap pieces := by
  have ends : isLineFeed lineFeed = true := rfl
  obtain ⟨first, more, rfl⟩ := List.exists_cons_of_ne_nil some
  unfold linesOf pieces
  rw [join_end, split_flatMap ends]
  exact if_pos rfl

/-- The lines with the mark of a player's line that one written line is read as. -/
def marked (line : JsString) : List JsString :=
  (pieces (trimEnd line)).filter fun line => (units "001").isPrefixOf line

theorem playerLines_write (data : SectionExportData) :
    playerLines (writeSectionTrf data) = (headerLines data).flatMap marked ++
      (byStartRank data.players).flatMap fun player =>
        marked (playerLine (byStartRank data.players) player (byNumber data.rounds)) := by
  unfold playerLines writeSectionTrf
  dsimp only
  rw [linesOf_join (by simp [headerLines]), List.map_append, List.flatMap_append,
    List.filter_append, List.filter_flatMap, List.filter_flatMap, List.flatMap_map,
    List.flatMap_map, List.flatMap_map]
  rfl

/-- The line as it is written. -/
def lineOf (data : SectionExportData) (player : ExportPlayer) : JsString :=
  playerLine (byStartRank data.players) player (byNumber data.rounds)

/-- A line without a line feed is read as one line. -/
theorem marked_of_free {line : JsString} (free : lineFeed ∉ line) :
    marked line = if (units "001").isPrefixOf (trimEnd line) then [trimEnd line] else [] := by
  have trimmed : lineFeed ∉ trimEnd line :=
    fun inside => free ((trimEnd_isPrefix line).subset inside)
  unfold marked
  rw [pieces_of_free trimmed, List.filter_singleton, cond_eq_ite]

theorem holds_trimEnd_iff (text : JsString) :
    HoldsPlayerLine (trimEnd text) ↔ HoldsPlayerLine text := by
  constructor
  · rintro ⟨front, back, whole⟩
    obtain ⟨rest, same⟩ := trimEnd_isPrefix text
    rw [whole] at same
    refine ⟨front, back ++ rest, ?_⟩
    rw [← same]
    simp only [List.append_assoc, List.cons_append]
  · rintro ⟨front, back, rfl⟩
    have kept := trimEnd_append (front ++ lineFeed :: units "00") (u := 49) (by decide) back
    have mark : units "001" = units "00" ++ [49] := rfl
    refine ⟨front, trimEnd back, ?_⟩
    rw [mark]
    simpa only [List.append_assoc, List.cons_append, List.nil_append] using kept

theorem holds_append_iff {front : JsString} (free : lineFeed ∉ front) (text : JsString) :
    HoldsPlayerLine (front ++ text) ↔ HoldsPlayerLine text := by
  induction front with
  | nil => rfl
  | cons u front ih =>
      rw [List.mem_cons, not_or] at free
      rw [← ih free.2]
      constructor
      · rintro ⟨before, back, whole⟩
        cases before with
        | nil => exact absurd (List.cons.inj whole).1.symm free.1
        | cons v before => exact ⟨before, back, (List.cons.inj whole).2⟩
      · rintro ⟨before, back, whole⟩
        exact ⟨u :: before, back, congrArg (u :: ·) whole⟩

/-- The later ones of the lines that a line is read as. -/
theorem later_marked_iff (line : JsString) :
    (∃ later ∈ (pieces line).tail, units "001" <+: later) ↔ HoldsPlayerLine line := by
  have free : ∀ u ∈ units "001", isLineFeed u = false := free_of_all (by decide)
  unfold pieces
  rw [exists_marked_iff rfl free]
  constructor
  · rintro ⟨front, u, back, cut, rfl⟩
    rw [beq_iff_eq.mp cut]
    exact ⟨front, back, rfl⟩
  · rintro ⟨front, back, rfl⟩
    exact ⟨front, lineFeed, back, rfl, rfl⟩

/-- The first header line is read as a player's line exactly when a name in it holds one. -/
theorem marked_first (data : SectionExportData) :
    marked (units "012 " ++ data.tournamentName ++ units " - " ++ data.sectionName) = [] ↔
      ¬ HoldsPlayerLine (data.tournamentName ++ units " - " ++ data.sectionName) := by
  have free : lineFeed ∉ units "012 " := by decide
  have names : units "012 " ++ data.tournamentName ++ units " - " ++ data.sectionName =
      units "012 " ++ (data.tournamentName ++ units " - " ++ data.sectionName) := by
    simp only [List.append_assoc]
  rw [names, ← holds_append_iff free, ← holds_trimEnd_iff, ← later_marked_iff]
  generalize data.tournamentName ++ units " - " ++ data.sectionName = text
  -- The first of the lines begins with the mark of the header.
  obtain ⟨first, more, found, start⟩ : ∃ first more,
      pieces (trimEnd (units "012 " ++ text)) = first :: more ∧ units "012" <+: first := by
    have ends : isLineFeed lineFeed = true := rfl
    obtain ⟨more, found⟩ := split_first ends (trimEnd (units "012 " ++ text))
    refine ⟨_, more, found, (prefix_takeWhile_iff (free_of_all (by decide))).mpr ?_⟩
    exact ⟨trimEnd (32 :: text), (trimEnd_append (units "01") (u := 50) rfl (32 :: text)).symm⟩
  have other : ¬ units "001" <+: first := by
    obtain ⟨back, rfl⟩ := start
    intro mark
    change ([48, 48, 49] : JsString) <+: 48 :: 49 :: 50 :: back at mark
    have second := (List.cons_prefix_cons.mp (List.cons_prefix_cons.mp mark).2).1
    exact absurd second (by decide)
  unfold marked
  rw [found, List.tail_cons, List.filter_cons_of_neg (by simpa using other),
    List.filter_eq_nil_iff]
  simp

end Text

section Ranks

theorem byStartRank_perm (players : List ExportPlayer) : (byStartRank players).Perm players :=
  List.perm_insertionSort _ players

theorem mem_byStartRank {players : List ExportPlayer} {player : ExportPlayer} :
    player ∈ byStartRank players ↔ player ∈ players :=
  (byStartRank_perm players).mem_iff

theorem startRankById_eq_some_iff {players : List ExportPlayer}
    (ids : (players.map ExportPlayer.registrationId).Nodup) {id : PlayerId} {rank : Nat} :
    startRankById players id = some rank ↔
      ∃ player ∈ players, player.registrationId = id ∧ player.startRank = rank := by
  unfold startRankById
  constructor
  · intro known
    obtain ⟨player, found, ranked⟩ := Option.map_eq_some_iff.mp known
    have own : player.registrationId = id := by simpa using List.find?_some found
    exact ⟨player, List.mem_reverse.mp (List.mem_of_find?_eq_some found), own, ranked⟩
  · rintro ⟨player, listed, rfl, rfl⟩
    cases found : players.reverse.find? fun other =>
        other.registrationId = player.registrationId with
    | none =>
        have missing := List.find?_eq_none.mp found player (List.mem_reverse.mpr listed)
        exact absurd missing (by simp)
    | some other =>
        have own : other.registrationId = player.registrationId := by
          simpa using List.find?_some found
        have member := List.mem_reverse.mp (List.mem_of_find?_eq_some found)
        rw [List.inj_on_of_nodup_map ids member listed own]
        rfl

variable {data : SectionExportData} (produced : Producible data)

include produced

/-- The order of the players does not matter for their ranks. -/
theorem startRankById_sorted :
    startRankById (byStartRank data.players) = startRankById data.players := by
  funext id
  have perm := byStartRank_perm data.players
  have sorted := (perm.map ExportPlayer.registrationId).nodup_iff.mpr produced.ids
  ext rank
  rw [startRankById_eq_some_iff sorted, startRankById_eq_some_iff produced.ids]
  simp only [perm.mem_iff]

theorem startRankById_listed {round : ExportRound} (inside : round ∈ data.rounds)
    {pairing : ExportPairing} (paired : pairing ∈ round.pairings) {id : PlayerId}
    (plays : id ∈ pairing.playerIds) :
    ∃ rank ≤ 9999, startRankById data.players id = some rank := by
  obtain ⟨player, listed, own⟩ := produced.listed round inside pairing paired id plays
  exact ⟨player.startRank, produced.ranks player listed,
    (startRankById_eq_some_iff produced.ids).mpr ⟨player, listed, own, rfl⟩⟩

theorem fits_of_produced {player : ExportPlayer} {round : ExportRound}
    (inside : round ∈ byNumber data.rounds) {pairing : ExportPairing}
    (found : findPairing player.registrationId round = some pairing) :
    Fits (byStartRank data.players) player pairing := by
  have known : round ∈ data.rounds := (List.mem_insertionSort _).mp inside
  have paired : pairing ∈ round.pairings := List.mem_of_find?_eq_some found
  constructor
  · intro id plays
    rw [startRankById_sorted produced]
    refine startRankById_listed produced known paired ?_
    exact List.mem_cons.mpr (plays.imp_right fun black => Option.mem_toList.mpr black)
  · intro black
    have bye := produced.byes round known pairing paired black
    cases result : pairing.result with
    | byeFull | byeHalf | byeZero | unplayed => rfl
    | _ =>
        rw [result] at bye
        cases bye

/-- What a player's line says, when it is one line. -/
theorem readLine_player {player : ExportPlayer} (listed : player ∈ data.players) :
    readLine (trimEnd (lineOf data player)) =
      some (expected data player) := by
  unfold lineOf
  rw [readLine_trimmed (produced.ranks player listed) (produced.points player listed)
    fun round inside pairing found => fits_of_produced produced inside found]
  unfold expected
  congr 2
  refine List.map_congr_left fun round _ => ?_
  unfold roundEntry entryOf
  rw [startRankById_sorted produced]

end Ranks

section Players

variable {data : SectionExportData} (produced : Producible data) {player : ExportPlayer}

include produced

theorem player_line_free (listed : player ∈ data.players) :
    lineFeed ∈ lineOf data player ↔
      lineFeed ∈ (playerName player).take 33 :=
  mem_playerLine (produced.columns player listed)

theorem player_line_start (listed : player ∈ data.players) :
    units "001" <+: trimEnd (lineOf data player) := by
  unfold lineOf
  rw [trimEnd_playerLine _ _ (produced.points player listed)]
  have start : units "001" <+: lineStart player := by
    have mark : units "001 " = units "001" ++ units " " := rfl
    unfold lineStart
    rw [mark]
    simp only [List.append_assoc]
    exact List.prefix_append _ _
  exact start.trans (List.prefix_append _ _)

/-- A name without a line feed makes one line. -/
theorem marked_player (listed : player ∈ data.players)
    (free : lineFeed ∉ (playerName player).take 33) :
    marked (lineOf data player) =
      [trimEnd (lineOf data player)] := by
  rw [marked_of_free fun inside => free ((player_line_free produced listed).mp inside),
    if_pos (List.isPrefixOf_iff_prefix.mpr (player_line_start produced listed))]

/-- Every player's line begins one that is read as such. -/
theorem marked_player_first (listed : player ∈ data.players) : ∃ more,
    marked (lineOf data player) =
      ((trimEnd (lineOf data player)).takeWhile
        fun u => !isLineFeed u) :: more := by
  have ends : isLineFeed lineFeed = true := rfl
  obtain ⟨more, found⟩ := split_first ends
    (trimEnd (lineOf data player))
  have mark : ∀ u ∈ units "001", isLineFeed u = false := free_of_all (by decide)
  have start := (prefix_takeWhile_iff mark).mpr (player_line_start produced listed)
  refine ⟨more.filter fun line => (units "001").isPrefixOf line, ?_⟩
  unfold marked pieces
  rw [found, List.filter_cons_of_pos (List.isPrefixOf_iff_prefix.mpr start)]

/-- A line feed in the printed name ends the line in the name. -/
theorem broken_short (listed : player ∈ data.players)
    (broken : lineFeed ∈ (playerName player).take 33) :
    ((trimEnd (lineOf data player)).takeWhile fun u => !isLineFeed u).length < 47 := by
  have name : lineFeed ∈ fixed (playerName player) 33 .left := (mem_fixed_left 33).mpr broken
  have front : ∀ u ∈ lineStart player, isLineFeed u = false :=
    isLineFeed_eq_false.mpr (not_mem_lineStart player)
  unfold lineOf
  rw [trimEnd_playerLine _ _ (produced.points player listed),
    List.takeWhile_append_of_pos fun u inside => by simp [front u inside], List.length_append,
    lineStart_length, List.takeWhile_append]
  have cut : ((fixed (playerName player) 33 .left).takeWhile fun u => !isLineFeed u).length <
      (fixed (playerName player) 33 .left).length := by
    have start := List.takeWhile_prefix (fun u => !isLineFeed u)
      (l := fixed (playerName player) 33 .left)
    refine lt_of_le_of_ne start.length_le fun whole => ?_
    have all := List.takeWhile_eq_self_iff.mp (start.eq_of_length whole)
    exact absurd (all lineFeed name) (by decide)
  rw [if_neg cut.ne]
  rw [fixed_length] at cut
  omega

/-- A line feed in the printed name leaves a line that ends before the points. -/
theorem broken_player (listed : player ∈ data.players)
    (broken : lineFeed ∈ (playerName player).take 33) :
    ∃ line ∈ marked (lineOf data player),
      readLine line = none := by
  obtain ⟨more, found⟩ := marked_player_first produced listed
  rw [found]
  refine ⟨_, List.mem_cons_self, ?_⟩
  have short := broken_short produced listed broken
  have points : cut 80 84 ((trimEnd (lineOf data player)).takeWhile fun u => !isLineFeed u) =
      [] := by
    unfold cut
    rw [List.drop_eq_nil_of_le (by omega), List.take_nil]
  unfold readLine
  rw [points]
  cases readRight (cut 4 8 _) with
  | none => rfl
  | some rank => rfl

end Players

section Report

/-- A header line is no player's line. -/
theorem marked_header {a b : UInt16} {text : JsString}
    (free : lineFeed ∉ a :: b :: 50 :: text) : marked (a :: b :: 50 :: text) = [] := by
  rw [marked_of_free free, if_neg]
  rw [List.isPrefixOf_iff_prefix]
  have kept := trimEnd_append [a, b] (u := 50) rfl text
  intro mark
  change ([48, 48, 49] : JsString) <+: trimEnd ([a, b] ++ 50 :: text) at mark
  rw [kept] at mark
  have third := (List.cons_prefix_cons.mp
    (List.cons_prefix_cons.mp (List.cons_prefix_cons.mp mark).2).2).1
  exact absurd third (by decide)

variable {data : SectionExportData} (produced : Producible data)

include produced

theorem playerLines_eq : playerLines (writeSectionTrf data) =
    marked (units "012 " ++ data.tournamentName ++ units " - " ++ data.sectionName) ++
      (byStartRank data.players).flatMap fun player => marked (lineOf data player) := by
  have plain : ∀ (b : UInt16) (text : JsString), b ≠ 10 → lineFeed ∉ text →
      marked ([48, b, 50, 32] ++ text) = [] := by
    intro b text second free
    refine marked_header ?_
    change lineFeed ∉ 48 :: b :: 50 :: 32 :: text
    simp only [List.mem_cons, not_or]
    exact ⟨by decide, second.symm, by decide, by decide, free⟩
  have header : (headerLines data).flatMap marked =
      marked (units "012 " ++ data.tournamentName ++ units " - " ++ data.sectionName) := by
    obtain ⟨city, federation, startDate, endDate, type⟩ := produced.header
    unfold headerLines
    rw [produced.arbiter]
    dsimp only
    rw [List.append_nil, List.flatMap_cons, List.append_right_eq_self, List.flatMap_eq_nil_iff]
    intro line listed
    simp only [List.mem_cons, List.not_mem_nil, or_false] at listed
    rcases listed with rfl | rfl | rfl | rfl | rfl | rfl | rfl
    · exact plain 50 _ (by decide) city
    · exact plain 51 _ (by decide) federation
    · exact plain 52 _ (by decide) (not_mem_trfDate startDate)
    · exact plain 53 _ (by decide) (not_mem_trfDate endDate)
    · exact plain 54 _ (by decide) (not_mem_natText _)
    · exact plain 55 _ (by decide) (not_mem_natText _)
    · exact plain 57 _ (by decide) type
  rw [playerLines_write, header]
  rfl

/-- Names without a line feed make one line each. -/
theorem marked_players
    (free : ∀ player ∈ data.players, lineFeed ∉ (playerName player).take 33) :
    ((byStartRank data.players).flatMap fun player => marked (lineOf data player)) =
      (byStartRank data.players).map fun player => trimEnd (lineOf data player) := by
  rw [← List.flatMap_pure_eq_map]
  refine List.flatMap_congr fun player inside => ?_
  have listed := mem_byStartRank.mp inside
  exact marked_player produced listed (free player listed)

theorem players_readTrf (free : ∀ player ∈ data.players, lineFeed ∉ (playerName player).take 33)
    (titles : ¬ HoldsPlayerLine (data.tournamentName ++ units " - " ++ data.sectionName)) :
    playerLines (writeSectionTrf data) =
      (byStartRank data.players).map fun player => trimEnd (lineOf data player) := by
  rw [playerLines_eq produced, (marked_first data).mpr titles, List.nil_append,
    marked_players produced free]

end Report

section Games

variable {data : SectionExportData} (produced : Producible data)

/-- A registration is found in its pairing of a round. -/
theorem findPairing_of_mem {round : ExportRound}
    (once : (round.pairings.flatMap ExportPairing.playerIds).Nodup) {pairing : ExportPairing}
    (paired : pairing ∈ round.pairings) {id : PlayerId} (plays : id ∈ pairing.playerIds) :
    findPairing id round = some pairing := by
  have matches' : ∀ other : ExportPairing, (other.whiteRegistrationId = id ∨
      other.blackRegistrationId = some id) ↔ id ∈ other.playerIds := by
    intro other
    unfold ExportPairing.playerIds
    rw [List.mem_cons, Option.mem_toList]
    exact or_congr eq_comm Iff.rfl
  cases found : findPairing id round with
  | none =>
      have missing := List.find?_eq_none.mp found pairing paired
      rw [decide_eq_true_iff, matches'] at missing
      exact absurd plays missing
  | some other =>
      have listed : other ∈ round.pairings := List.mem_of_find?_eq_some found
      have also : id ∈ other.playerIds := by
        have fits := List.find?_some found
        rw [decide_eq_true_iff, matches'] at fits
        exact fits
      by_contra different
      rw [Option.some_inj] at different
      have apart := (List.nodup_flatMap.mp once).2
      have symmetric : Std.Symm (Function.onFun List.Disjoint ExportPairing.playerIds) :=
        ⟨fun _ _ disjoint => disjoint.symm⟩
      exact apart.forall listed paired different also plays

theorem complements_markOf {result : PairingResultValue} {mark mark' : Mark}
    (white : markOf result true = some mark) (black : markOf result false = some mark') :
    mark.Complements mark' := by
  cases result with
  | byeFull | byeHalf | byeZero | unplayed => cases white
  | _ =>
      cases white
      cases black
      trivial

include produced

/-- The two entries of a game with a result. -/
theorem entries_of_game {round : ExportRound} (inside : round ∈ data.rounds)
    {pairing : ExportPairing} (paired : pairing ∈ round.pairings)
    (played : pairing.result ≠ .unplayed)
    (game : Arbiter.Section.isByeResult pairing.result = false) {white black : ExportPlayer}
    (whiteListed : white ∈ data.players) (blackListed : black ∈ data.players)
    (whiteId : pairing.whiteRegistrationId = white.registrationId)
    (blackId : pairing.blackRegistrationId = some black.registrationId) :
    ∃ mark mark' : Mark,
      roundEntry data.players white round = .game black.startRank true mark ∧
      roundEntry data.players black round = .game white.startRank false mark' ∧
      mark.Complements mark' := by
  have once := produced.once round inside
  have sides : pairing.playerIds = [white.registrationId, black.registrationId] := by
    unfold ExportPairing.playerIds
    rw [whiteId, blackId]
    rfl
  have distinct : white.registrationId ≠ black.registrationId := by
    have own := (List.nodup_flatMap.mp once).1 pairing paired
    rw [sides] at own
    simpa using own
  have marks : ∀ isWhite, ∃ mark, markOf pairing.result isWhite = some mark := by
    intro isWhite
    obtain ⟨kind, bye⟩ | marked := played_cases played isWhite
    · cases result : pairing.result with
      | byeFull | byeHalf | byeZero =>
          rw [result] at game
          cases game
      | _ =>
          rw [result] at bye
          cases bye
    · exact marked
  obtain ⟨mark, whiteMark⟩ := marks true
  obtain ⟨mark', blackMark⟩ := marks false
  have rankOf : ∀ player ∈ data.players,
      startRankById data.players player.registrationId = some player.startRank :=
    fun player listed => (startRankById_eq_some_iff produced.ids).mpr ⟨player, listed, rfl, rfl⟩
  refine ⟨mark, mark', ?_, ?_, complements_markOf whiteMark blackMark⟩
  · have side : decide (pairing.whiteRegistrationId = white.registrationId) = true :=
      decide_eq_true whiteId
    have opponent : (opponentOf white pairing).bind (startRankById data.players) =
        some black.startRank := by
      unfold opponentOf
      rw [side, if_pos rfl, blackId]
      exact rankOf black blackListed
    unfold roundEntry
    rw [findPairing_of_mem once paired (by simp [sides])]
    dsimp only
    rw [entryOf_game (side ▸ whiteMark) opponent, side]
  · have side : decide (pairing.whiteRegistrationId = black.registrationId) = false :=
      decide_eq_false (whiteId ▸ distinct)
    have opponent : (opponentOf black pairing).bind (startRankById data.players) =
        some white.startRank := by
      unfold opponentOf
      rw [side, if_neg Bool.false_ne_true, whiteId]
      exact rankOf white whiteListed
    unfold roundEntry
    rw [findPairing_of_mem once paired (by simp [sides])]
    dsimp only
    rw [entryOf_game (side ▸ blackMark) opponent, side]

end Games

section Reports

variable {data : SectionExportData}

theorem mapM_map_some {α β γ : Type} {read : β → Option γ} {write : α → β} {back : α → γ}
    {items : List α} (each : ∀ item ∈ items, read (write item) = some (back item)) :
    (items.map write).mapM read = some (items.map back) := by
  induction items with
  | nil => rfl
  | cons item items ih =>
      rw [List.map_cons, List.mapM_cons, each item List.mem_cons_self,
        ih fun other inside => each other (List.mem_cons_of_mem _ inside)]
      rfl

theorem mapM_eq_none {α β : Type} {read : α → Option β} {items : List α} {item : α}
    (inside : item ∈ items) (fails : read item = none) : items.mapM read = none := by
  induction items with
  | nil => cases inside
  | cons first items ih =>
      rw [List.mapM_cons]
      rcases List.mem_cons.mp inside with rfl | later
      · rw [fails]
        rfl
      · rw [ih later]
        cases read first with
        | none => rfl
        | some value => rfl

theorem readsBack_of_readable (produced : Producible data) (readable : Readable data) :
    ReadsBack data (writeSectionTrf data) := by
  have lines := players_readTrf produced readable.names readable.titles
  have readings : readTrf (writeSectionTrf data) =
      some ((byStartRank data.players).map (expected data)) := by
    unfold readTrf
    rw [lines]
    exact mapM_map_some fun player inside =>
      readLine_player produced (mem_byStartRank.mp inside)
  refine ⟨?_, readings, ?_⟩
  · rw [lines, List.length_map]
    exact (byStartRank_perm data.players).length_eq
  · intro found read k round place pairing paired played game white whiteListed black blackListed
      whiteId blackId
    rw [readings, Option.some_inj] at read
    subst read
    have inside : round ∈ data.rounds :=
      (List.mem_insertionSort _).mp (List.mem_of_getElem? place)
    obtain ⟨mark, mark', whiteEntry, blackEntry, complements⟩ := entries_of_game produced inside
      paired played game whiteListed blackListed whiteId blackId
    have member : ∀ player ∈ data.players,
        expected data player ∈ (byStartRank data.players).map (expected data) :=
      fun player listed => List.mem_map_of_mem (mem_byStartRank.mpr listed)
    have entry : ∀ player, (expected data player).rounds[k]? =
        some (roundEntry data.players player round) := by
      intro player
      unfold expected
      rw [List.getElem?_map, place]
      rfl
    refine ⟨_, member white whiteListed, _, member black blackListed, rfl, rfl, mark, mark', ?_,
      ?_, complements⟩
    · rw [entry, whiteEntry]
    · rw [entry, blackEntry]

/-- A report is read back only if the texts of the users leave its lines alone. -/
theorem readable_of_readsBack (produced : Producible data)
    (back : ReadsBack data (writeSectionTrf data)) : Readable data := by
  have lines := playerLines_eq produced
  have names : ∀ player ∈ data.players, lineFeed ∉ (playerName player).take 33 := by
    intro player listed broken
    obtain ⟨line, inside, fails⟩ := broken_player produced listed broken
    have own : line ∈ playerLines (writeSectionTrf data) := by
      rw [lines]
      exact List.mem_append_right _ (List.mem_flatMap.mpr
        ⟨player, mem_byStartRank.mpr listed, inside⟩)
    have read : readTrf (writeSectionTrf data) = none := mapM_eq_none own fails
    rw [back.readings] at read
    cases read
  refine ⟨names, ?_⟩
  rw [← marked_first]
  have count := back.lines
  have players : ((byStartRank data.players).flatMap fun player =>
      marked (lineOf data player)).length = data.players.length := by
    rw [marked_players produced names, List.length_map]
    exact (byStartRank_perm data.players).length_eq
  rw [lines, List.length_append, players] at count
  exact List.length_eq_zero_iff.mp (by omega)

end Reports

section Source

theorem not_mem_padZero (n width : Nat) : lineFeed ∉ padZero n width := by
  have zeros : lineFeed ∉ List.replicate (width - (natText n).length) (digitUnit 0) :=
    not_mem_replicate (by decide) _
  unfold padZero
  simp only [List.mem_append, zeros, not_mem_natText, or_self, not_false_eq_true]

theorem not_mem_isoDate (d : Day) : lineFeed ∉ isoDate d := by
  have dash : lineFeed ∉ units "-" := by decide
  have year : lineFeed ∉ (if 0 ≤ d.year ∧ d.year ≤ 9999 then padZero d.year.toNat 4
      else (if d.year < 0 then units "-" else units "+") ++ padZero d.year.natAbs 6) := by
    have sign : lineFeed ∉ (if d.year < 0 then units "-" else units "+") := by
      split <;> decide
    split
    · exact not_mem_padZero _ _
    · simp only [List.mem_append, sign, not_mem_padZero, or_self, not_false_eq_true]
  intro inside
  have whole := List.mem_of_mem_take inside
  simp only [List.mem_append, year, dash, not_mem_padZero, or_self] at whole

/-- The rows of a section, as the tables and the checks of the requests leave them. -/
structure RowsFit (rows : SectionExportRows) : Prop where
  ids : (rows.players.map ExportPlayerRow.registrationId).Nodup
  numbers : ∀ player ∈ rows.players, player.pairingNumber ≤ 9999
  points : ∀ player ∈ rows.players, player.points.getD 0 < 1000
  fideIds : ∀ player ∈ rows.players, lineFeed ∉ player.fideId.getD []
  once : ∀ round ∈ rows.rounds, (round.pairings.flatMap ExportPairing.playerIds).Nodup
  listed : ∀ round ∈ rows.rounds, ∀ pairing ∈ round.pairings, ∀ id ∈ pairing.playerIds,
    ∃ player ∈ rows.players, player.registrationId = id
  byes : ∀ round ∈ rows.rounds, ∀ pairing ∈ round.pairings, pairing.blackRegistrationId = none →
    Arbiter.Section.isByeResult pairing.result = true

theorem buildSectionExportData_producible {tashkentDate : Int → JsString}
    (dates : DatesOneLine tashkentDate) (context : SectionContextRow) {rows : SectionExportRows}
    (fit : RowsFit rows) : Producible (buildSectionExportData tashkentDate context rows) where
  ids := by
    unfold buildSectionExportData
    rw [List.map_map]
    exact fit.ids
  ranks := by
    intro player inside
    obtain ⟨row, listed, rfl⟩ := List.mem_map.mp inside
    exact fit.numbers row listed
  points := by
    intro player inside
    obtain ⟨row, listed, rfl⟩ := List.mem_map.mp inside
    exact fit.points row listed
  once := by
    intro round inside
    obtain ⟨row, listed, rfl⟩ := List.mem_map.mp inside
    exact fit.once row listed
  listed := by
    intro round inside pairing paired id plays
    obtain ⟨row, known, rfl⟩ := List.mem_map.mp inside
    obtain ⟨player, listed, own⟩ := fit.listed row known pairing paired id plays
    exact ⟨_, List.mem_map_of_mem listed, own⟩
  byes := by
    intro round inside
    obtain ⟨row, listed, rfl⟩ := List.mem_map.mp inside
    exact fit.byes row listed
  columns := by
    intro player inside
    obtain ⟨row, listed, rfl⟩ := List.mem_map.mp inside
    have host : lineFeed ∉ hostFederation := by decide
    refine ⟨host, fit.fideIds row listed, ?_⟩
    change lineFeed ∉ (row.birthDate.map isoDate).getD []
    cases row.birthDate with
    | none => exact List.not_mem_nil
    | some day => exact not_mem_isoDate day
  header := by
    have city : lineFeed ∉ units "Tashkent" := by decide
    have host : lineFeed ∉ hostFederation := by decide
    refine ⟨city, host, dates _, dates _, ?_⟩
    change lineFeed ∉ trfTournamentType context.pairingSystem
    cases context.pairingSystem <;> decide
  arbiter := rfl

/-- What the requests of arbiters leave in the tables fits, as far as the points and the numbers
stay small and the numbers of FIDE are one line. -/
theorem sectionExportData_fit {s : Arbiter.ArbiterDb} (tabled : s.Tabled)
    {profile : PlayerId → Profile} (pgn : Nat → Option JsString)
    (scheduledStartAt : Nat → Option Int)
    (numbers : ∀ r ∈ s.data.numberedRegistrations, r.pairingNumber.getD 0 ≤ 9999)
    (points : ∀ id row, s.standings id = some row → row.points < 100)
    (fideIds : ∀ id, lineFeed ∉ (profile id).fideId.getD []) :
    RowsFit (sectionExportData profile pgn scheduledStartAt s) where
  ids := by
    unfold sectionExportData
    rw [List.map_map]
    exact Arbiter.numberedRegistrations_nodup tabled.sound.registrations
  numbers := by
    intro player inside
    obtain ⟨r, listed, rfl⟩ := List.mem_map.mp inside
    exact Int.toNat_le.mpr (numbers r listed)
  points := by
    intro player inside
    obtain ⟨r, listed, rfl⟩ := List.mem_map.mp inside
    change ((s.standings r.id).map fun row => ⌊row.points * 10⌋.toNat).getD 0 < 1000
    cases standing : s.standings r.id with
    | none => decide
    | some row =>
        have small := points r.id row standing
        have floor : ⌊row.points * 10⌋ < 1000 := by
          rw [Int.floor_lt]
          push_cast
          linarith
        change ⌊row.points * 10⌋.toNat < 1000
        omega
  fideIds := by
    intro player inside
    obtain ⟨r, listed, rfl⟩ := List.mem_map.mp inside
    exact fideIds r.id
  once := by
    intro round inside
    obtain ⟨stored, sorted, rfl⟩ := List.mem_map.mp inside
    have known := (List.mem_insertionSort _).mp sorted
    have perm := (List.perm_insertionSort
      (fun a b : Arbiter.PairingRow => a.boardNumber ≤ b.boardNumber) stored.pairings).flatMap_right
        Arbiter.PairingRow.playerIds
    have once := perm.nodup_iff.mpr (tabled.sound.structured.once stored known)
    dsimp only
    rw [List.flatMap_map]
    exact once
  listed := by
    intro round inside pairing paired id plays
    obtain ⟨stored, sorted, rfl⟩ := List.mem_map.mp inside
    obtain ⟨row, ordered, rfl⟩ := List.mem_map.mp paired
    have listed : row ∈ s.data.rows := List.mem_flatMap.mpr
      ⟨stored, (List.mem_insertionSort _).mp sorted, (List.mem_insertionSort _).mp ordered⟩
    have numbered := (tabled.fits row listed).players plays
    obtain ⟨r, known, same⟩ := List.mem_map.mp numbered
    exact ⟨_, List.mem_map_of_mem known, same⟩
  byes := by
    intro round inside pairing paired black
    obtain ⟨stored, sorted, rfl⟩ := List.mem_map.mp inside
    obtain ⟨row, ordered, rfl⟩ := List.mem_map.mp paired
    have listed : row ∈ s.data.rows := List.mem_flatMap.mpr
      ⟨stored, (List.mem_insertionSort _).mp sorted, (List.mem_insertionSort _).mp ordered⟩
    exact (tabled.fits row listed).bye black

end Source

section Samples

def sampleContext : SectionContextRow where
  tournamentName := units "Toshkent Ochiq Turniri"
  venueName := none
  startDate := 1784505600000
  endDate := 1784851200000
  name := units "A guruh"
  pairingSystem := .roundRobin

/-- The two days of the sample. -/
def sampleDate (date : Int) : JsString :=
  if date = sampleContext.startDate then units "2026-07-20" else units "2026-07-24"

theorem sampleDate_oneLine : DatesOneLine sampleDate := by
  intro date
  unfold sampleDate
  split <;> decide

/-- Two players, whose game the first has won. -/
def sampleRows (lastName : JsString) : SectionExportRows where
  players :=
    [{ registrationId := 1
       pairingNumber := 1
       ratingAtEntry := some 2400
       titleAtEntry := some (units "IM")
       firstName := units "Bobur"
       lastName := lastName
       gender := some .male
       birthDate := some ⟨1995, 3, 12⟩
       fideId := none
       points := some 10
       rank := some 1 },
     { registrationId := 2
       pairingNumber := 2
       ratingAtEntry := none
       titleAtEntry := none
       firstName := units "Malika"
       lastName := units "Yusupova"
       gender := some .female
       birthDate := none
       fideId := none
       points := some 0
       rank := some 2 }]
  rounds := [⟨1, none, [⟨1, 1, some 2, .whiteWin, none⟩]⟩]

theorem sampleRows_fit (lastName : JsString) : RowsFit (sampleRows lastName) where
  ids := by simp [sampleRows]
  numbers := by simp [sampleRows]
  points := by simp [sampleRows]
  fideIds := by simp [sampleRows]
  once := by simp [sampleRows, ExportPairing.playerIds]
  listed := by simp [sampleRows, ExportPairing.playerIds]
  byes := by simp [sampleRows]

end Samples

/-- A report is read back exactly when no printed name holds a line feed, and the names of the
tournament and the section none with `001` after it. -/
theorem writeSectionTrf_readsBack_iff (data : SectionExportData) (produced : Producible data) :
    ReadsBack data (writeSectionTrf data) ↔ Readable data :=
  ⟨readable_of_readsBack produced, readsBack_of_readable produced⟩

/-- The report of two players with plain names is read back. -/
theorem writeSectionTrf_readsBack_plain :
    ReadsBack (buildSectionExportData sampleDate sampleContext (sampleRows (units "Aliyev")))
      (writeSectionTrf
        (buildSectionExportData sampleDate sampleContext (sampleRows (units "Aliyev")))) := by
  have produced := buildSectionExportData_producible sampleDate_oneLine sampleContext
    (sampleRows_fit (units "Aliyev"))
  refine (writeSectionTrf_readsBack_iff _ produced).mpr ⟨by decide, ?_⟩
  rintro ⟨front, back, text⟩
  have inside : lineFeed ∈ units "Toshkent Ochiq Turniri" ++ units " - " ++ units "A guruh" := by
    change lineFeed ∈ sampleContext.tournamentName ++ units " - " ++ sampleContext.name
    rw [show sampleContext.tournamentName ++ units " - " ++ sampleContext.name = _ from text]
    exact List.mem_append_right _ List.mem_cons_self
  exact absurd inside (by decide)

/-- A line feed in a last name breaks the report. -/
theorem writeSectionTrf_line_feed :
    let data := buildSectionExportData sampleDate sampleContext (sampleRows (units "Ali\nyev"))
    Producible data ∧ ¬ ReadsBack data (writeSectionTrf data) := by
  intro data
  have produced : Producible data :=
    buildSectionExportData_producible sampleDate_oneLine sampleContext (sampleRows_fit _)
  refine ⟨produced, fun back => ?_⟩
  have readable := readable_of_readsBack produced back
  exact readable.names _ List.mem_cons_self (by decide)

end Farzin.Trf
