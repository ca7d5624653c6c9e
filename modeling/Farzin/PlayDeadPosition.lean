import Farzin.Chessboard
import Farzin.PlayRules

set_option autoImplicit false

/- What `isDeadPosition` of `core/chess/rules.ts` promises: no series of legal moves mates. The
package gives the board of a position; here it is the board of the rules. -/
namespace Farzin.Play

def chessColor : ClockSide → Chessboard.Color
  | .w => .white
  | .b => .black

def squareColor (s : Chessboard.Square) : SquareColor :=
  if s.light then .light else .dark

def pieceSquares (board : Chessboard.Board) (side : ClockSide) (kind : Chessboard.Kind) :
    List Chessboard.Square :=
  Chessboard.squares.filter fun s => board s = some ⟨chessColor side, kind⟩

/-- The source counts in one pass over the rows. -/
def countPieces (board : Chessboard.Board) (side : ClockSide) : SidePieces where
  p := (pieceSquares board side .pawn).length
  n := (pieceSquares board side .knight).length
  b := (pieceSquares board side .bishop).length
  r := (pieceSquares board side .rook).length
  q := (pieceSquares board side .queen).length
  bishopSquares := (pieceSquares board side .bishop).map squareColor

/-- The package shows the pieces of the board for a FEN. -/
def ShowsBoard (chess : ChessJs) (fen : String) (board : Chessboard.Board) : Prop :=
  ∀ side, chess.countPieces fen side = countPieces board side

section

variable {board : Chessboard.Board} {side : ClockSide} {kind : Chessboard.Kind}
  {s : Chessboard.Square} {piece : Chessboard.Piece}

theorem mem_pieceSquares :
    s ∈ pieceSquares board side kind ↔ board s = some ⟨chessColor side, kind⟩ := by
  simp [pieceSquares, Chessboard.mem_squares]

theorem chessColor_cases (color : Chessboard.Color) : ∃ side, chessColor side = color := by
  cases color
  · exact ⟨.w, rfl⟩
  · exact ⟨.b, rfl⟩

/-- A piece is among the squares of its side and kind. -/
theorem listed (here : board s = some piece) :
    ∃ side, chessColor side = piece.color ∧ s ∈ pieceSquares board side piece.kind := by
  obtain ⟨side, color⟩ := chessColor_cases piece.color
  refine ⟨side, color, mem_pieceSquares.mpr ?_⟩
  rw [here, color]

/-- Without pawns, rooks and queens what is not a king is a knight or a bishop. -/
theorem minor (none' : ∀ side, ∀ kind ∈ [Chessboard.Kind.pawn, .rook, .queen],
      pieceSquares board side kind = [])
    (here : board s = some piece) (noKing : piece.kind ≠ .king) :
    ∃ side, (piece.kind = .knight ∧ s ∈ pieceSquares board side .knight) ∨
      (piece.kind = .bishop ∧ s ∈ pieceSquares board side .bishop) := by
  obtain ⟨side, _, listed⟩ := listed here
  refine ⟨side, ?_⟩
  have absent : piece.kind ∉ [Chessboard.Kind.pawn, .rook, .queen] := by
    intro heavy
    rw [none' side piece.kind heavy] at listed
    cases listed
  cases kind : piece.kind <;> simp_all

theorem squareColor_inj {t : Chessboard.Square} (same : squareColor s = squareColor t) :
    s.light = t.light := by
  unfold squareColor at same
  cases first : s.light <;> cases second : t.light <;> simp_all

/-- The squares of a kind on both sides. -/
def onBoard (board : Chessboard.Board) (kind : Chessboard.Kind) : List Chessboard.Square :=
  pieceSquares board .w kind ++ pieceSquares board .b kind

theorem mem_onBoard (listed : s ∈ pieceSquares board side kind) : s ∈ onBoard board kind := by
  cases side
  · exact List.mem_append_left _ listed
  · exact List.mem_append_right _ listed

theorem bishops_of (heavy : ∀ side, ∀ kind ∈ [Chessboard.Kind.pawn, .rook, .queen],
      pieceSquares board side kind = [])
    (knights : onBoard board .knight = []) (light : Bool)
    (same : ∀ s ∈ onBoard board .bishop, s.light = light) : board.Bishops light := by
  intro s piece here noKing
  obtain ⟨side, ⟨_, listed⟩ | ⟨kind, listed⟩⟩ := minor heavy here noKing
  · have inside := mem_onBoard listed
    rw [knights] at inside
    cases inside
  · exact ⟨kind, same s (mem_onBoard listed)⟩

theorem oneKnight_of (heavy : ∀ side, ∀ kind ∈ [Chessboard.Kind.pawn, .rook, .queen],
      pieceSquares board side kind = [])
    (bishops : onBoard board .bishop = []) (one : (onBoard board .knight).length ≤ 1) :
    board.OneKnight := by
  have knight : ∀ s piece, board s = some piece → piece.kind ≠ .king →
      piece.kind = .knight ∧ s ∈ onBoard board .knight := by
    intro s piece here noKing
    obtain ⟨side, ⟨kind, listed⟩ | ⟨_, listed⟩⟩ := minor heavy here noKing
    · exact ⟨kind, mem_onBoard listed⟩
    · have inside := mem_onBoard listed
      rw [bishops] at inside
      cases inside
  refine ⟨fun s piece here noKing => (knight s piece here noKing).1, ?_⟩
  intro s t piece other here noKing here' noKing'
  have first := (knight s piece here noKing).2
  have second := (knight t other here' noKing').2
  match list : onBoard board .knight with
  | [] => rw [list] at first; cases first
  | [n] =>
      rw [list, List.mem_singleton] at first second
      rw [first, second]
  | _ :: _ :: _ => rw [list] at one; simp at one

end

/-- The rows of the table: no heavy piece, and one minor piece at most or a bishop on each side. -/
theorem isDeadPosition_cases {chess : ChessJs} {fen : String} {w b : SidePieces}
    (white : chess.countPieces fen .w = w) (black : chess.countPieces fen .b = b)
    (dead : chess.isDeadPosition fen = true) :
    (w.p + b.p = 0 ∧ w.r + b.r = 0 ∧ w.q + b.q = 0) ∧
      (w.n + b.n + (w.b + b.b) ≤ 1 ∨
        w.n + b.n = 0 ∧ w.b = 1 ∧ b.b = 1 ∧ w.bishopSquares[0]? = b.bishopSquares[0]?) := by
  simp only [ChessJs.isDeadPosition, white, black] at dead
  split at dead
  case isTrue => cases dead
  case isFalse light =>
  refine ⟨by omega, ?_⟩
  split at dead
  case isTrue bare => exact .inl (by omega)
  case isFalse =>
  split at dead
  case isTrue minor => exact .inl (by omega)
  case isFalse =>
  split at dead
  case isTrue bishops =>
    exact .inr ⟨by omega, bishops.1, bishops.2.1, of_decide_eq_true dead⟩
  case isFalse => cases dead

/-- The material that the table of dead positions names is harmless. -/
theorem isDeadPosition_harmless {chess : ChessJs} {fen : String} {board : Chessboard.Board}
    (shows : ShowsBoard chess fen board) (dead : chess.isDeadPosition fen = true) :
    board.Harmless := by
  obtain ⟨light, material⟩ := isDeadPosition_cases (shows .w) (shows .b) dead
  simp only [countPieces] at light material
  have heavy : ∀ side, ∀ kind ∈ [Chessboard.Kind.pawn, .rook, .queen],
      pieceSquares board side kind = [] := by
    intro side kind heavy
    apply List.eq_nil_of_length_eq_zero
    simp only [List.mem_cons, List.not_mem_nil, or_false] at heavy
    rcases heavy with rfl | rfl | rfl <;> cases side <;> omega
  have knights : (onBoard board .knight).length = (pieceSquares board .w .knight).length +
      (pieceSquares board .b .knight).length := List.length_append
  have bishops : (onBoard board .bishop).length = (pieceSquares board .w .bishop).length +
      (pieceSquares board .b .bishop).length := List.length_append
  rcases material with few | ⟨noKnight, white, black, sameColor⟩
  · by_cases knight : (onBoard board .knight).length = 0
    · have noKnight := List.eq_nil_of_length_eq_zero knight
      match list : onBoard board .bishop with
      | [] => exact .inl ⟨true, bishops_of heavy noKnight true (by simp [list])⟩
      | [s] => exact .inl ⟨s.light, bishops_of heavy noKnight s.light (by simp [list])⟩
      | _ :: _ :: _ =>
          rw [list] at bishops
          simp only [List.length_cons] at bishops
          omega
    · exact .inr (oneKnight_of heavy (List.eq_nil_of_length_eq_zero (by omega)) (by omega))
  · obtain ⟨s, first⟩ := List.length_eq_one_iff.mp white
    obtain ⟨t, second⟩ := List.length_eq_one_iff.mp black
    rw [first, second] at sameColor
    have light := squareColor_inj (Option.some.inj sameColor)
    have noKnight : onBoard board .knight = [] := List.eq_nil_of_length_eq_zero (by omega)
    refine .inl ⟨s.light, bishops_of heavy noKnight s.light fun u inside => ?_⟩
    rw [onBoard, first, second] at inside
    rcases List.mem_append.mp inside with listed | listed
    · rw [List.mem_singleton.mp listed]
    · rw [List.mem_singleton.mp listed, light]

/-- A position that the server calls dead is dead: whatever both sides play from there on, nobody
is mated. -/
theorem dead_position_sound (chess : ChessJs) (fen : String) (p : Chessboard.Position)
    (shows : ShowsBoard chess fen p.board) (lawful : p.Lawful)
    (dead : chess.isDeadPosition fen = true) : ¬ ∃ q, p.Reaches q ∧ q.Checkmate := by
  rintro ⟨q, reaches, mate⟩
  exact lawful.never_checkmate (isDeadPosition_harmless shows dead) reaches mate

/-- `8/8/4k3/8/8/3BK3/8/8 w - - 0 1`: a bishop more, and no win. -/
def bishopEnding : Chessboard.Position where
  board s :=
    if (s.row.val, s.file.val) = (2, 4) then some ⟨.black, .king⟩
    else if (s.row.val, s.file.val) = (5, 3) then some ⟨.white, .bishop⟩
    else if (s.row.val, s.file.val) = (5, 4) then some ⟨.white, .king⟩
    else none
  turn := .white
  castling _ _ := false
  enPassant := none

/-- chess.js on that position; nothing else is asked of it. -/
def bishopEndingJs : ChessJs where
  move _ _ _ _ := none
  isCheckmate _ := false
  isStalemate _ := false
  countPieces _ side := countPieces bishopEnding.board side
  zobristHash _ := "0000000000000000"

theorem square_eq {s : Chessboard.Square} {row file : Fin 8} :
    s = ⟨row, file⟩ ↔ (s.row.val, s.file.val) = (row.val, file.val) := by
  obtain ⟨r, f⟩ := s
  simp [Fin.ext_iff]

theorem bishopEnding_lawful : bishopEnding.Lawful where
  kings := by
    intro color
    cases color
    · refine ⟨⟨5, 4⟩, fun s => ?_⟩
      rw [square_eq]
      simp only [bishopEnding]
      split_ifs with black bishop white <;> simp_all
    · refine ⟨⟨2, 4⟩, fun s => ?_⟩
      rw [square_eq]
      simp only [bishopEnding]
      split_ifs with black bishop white <;> simp_all
  safe := by
    rintro ⟨k, king, s, piece, here, theirs, mover, same, points, _⟩
    obtain rfl := Option.some.inj (here.symm.trans same)
    have place : k = ⟨2, 4⟩ := by
      have king' : (if (k.row.val, k.file.val) = (2, 4) then some ⟨.black, .king⟩
          else if (k.row.val, k.file.val) = (5, 3) then some ⟨.white, .bishop⟩
          else if (k.row.val, k.file.val) = (5, 4) then some ⟨.white, .king⟩
          else none) = some (⟨.black, .king⟩ : Chessboard.Piece) := king
      split_ifs at king' with black bishop white
      · exact square_eq.mpr black
      · cases king'
      · cases king'
    subst place
    simp only [bishopEnding] at here theirs
    split_ifs at here with black bishop white
    · cases here
      cases theirs
    · cases here
      obtain rfl : s = ⟨5, 3⟩ := square_eq.mpr bishop
      exact absurd points.2 (by decide)
    · cases here
      obtain rfl : s = ⟨5, 4⟩ := square_eq.mpr white
      exact absurd points.2.1 (by decide)

theorem dead_position_sound_bishop : ¬ ∃ q, bishopEnding.Reaches q ∧ q.Checkmate :=
  dead_position_sound bishopEndingJs "8/8/4k3/8/8/3BK3/8/8 w - - 0 1" bishopEnding (fun _ => rfl)
    bishopEnding_lawful (by decide)

end Farzin.Play
