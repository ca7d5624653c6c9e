import Mathlib.Data.List.FinRange
import Mathlib.Logic.Function.Basic
import Mathlib.Logic.Relation
import Mathlib.Tactic.Linarith

set_option autoImplicit false

/- The rules of chess: how the pieces attack, which boards a move can leave, check and mate. Row
0 is the top row of the diagram, so white pawns walk towards it. -/
namespace Farzin.Chessboard

inductive Color where
  | white
  | black
  deriving DecidableEq, Repr

def Color.other : Color → Color
  | .white => .black
  | .black => .white

inductive Kind where
  | pawn
  | knight
  | bishop
  | rook
  | queen
  | king
  deriving DecidableEq, Repr

structure Piece where
  color : Color
  kind : Kind
  deriving DecidableEq, Repr

structure Square where
  row : Fin 8
  file : Fin 8
  deriving DecidableEq, Repr

abbrev Board := Square → Option Piece

def squares : List Square :=
  (List.finRange 8).flatMap fun row => (List.finRange 8).map fun file => ⟨row, file⟩

namespace Square

def rows (s t : Square) : Int := (t.row : Int) - s.row

def files (s t : Square) : Int := (t.file : Int) - s.file

/-- Light squares have the parity of the corner at the top left. -/
def light (s : Square) : Bool := decide ((s.row.val + s.file.val) % 2 = 0)

/-- Two different squares that touch. -/
def Near (s t : Square) : Prop := s ≠ t ∧ (s.rows t).natAbs ≤ 1 ∧ (s.files t).natAbs ≤ 1

/-- `u` lies strictly inside the segment from `s` to `t`. -/
def Between (s t u : Square) : Prop :=
  u ≠ s ∧ u ≠ t ∧ s.rows t * s.files u = s.files t * s.rows u ∧
    min s.row t.row ≤ u.row ∧ u.row ≤ max s.row t.row ∧
    min s.file t.file ≤ u.file ∧ u.file ≤ max s.file t.file

end Square

def Color.forward : Color → Int
  | .white => -1
  | .black => 1

/-- Where a piece of a kind points from `s`, whatever stands in between. -/
def Kind.Points (color : Color) (s t : Square) : Kind → Prop
  | .pawn => s.rows t = color.forward ∧ (s.files t).natAbs = 1
  | .knight => (s.rows t).natAbs * (s.files t).natAbs = 2
  | .bishop => s ≠ t ∧ (s.rows t).natAbs = (s.files t).natAbs
  | .rook => s ≠ t ∧ (s.rows t = 0 ∨ s.files t = 0)
  | .queen => s ≠ t ∧ (s.rows t = 0 ∨ s.files t = 0 ∨ (s.rows t).natAbs = (s.files t).natAbs)
  | .king => s.Near t

namespace Board

def Attacks (board : Board) (s t : Square) : Prop :=
  ∃ piece, board s = some piece ∧ piece.kind.Points piece.color s t ∧
    ∀ u, s.Between t u → board u = none

def Attacked (board : Board) (by' : Color) (t : Square) : Prop :=
  ∃ s piece, board s = some piece ∧ piece.color = by' ∧ board.Attacks s t

def InCheck (board : Board) (color : Color) : Prop :=
  ∃ k, board k = some ⟨color, .king⟩ ∧ board.Attacked color.other k

def put (board : Board) (s : Square) (piece : Option Piece) : Board :=
  Function.update board s piece

/-- The piece goes from `s` to `t`, where it may take another one. -/
def travel (board : Board) (s t : Square) (piece : Piece) : Board :=
  (board.put s none).put t (some piece)

end Board

structure Position where
  board : Board
  turn : Color
  /-- May the side still castle towards the h file, and towards the a file. -/
  castling : Color → Bool → Bool
  enPassant : Option Square

namespace Position

def home : Color → Fin 8
  | .white => 7
  | .black => 0

def lastRow (color : Color) : Fin 8 := home color.other

/-- What a pawn is after its arrival. -/
def Arrives (color : Color) (t : Square) (piece : Piece) : Prop :=
  piece.color = color ∧
    if t.row = lastRow color then piece.kind ∈ [.knight, .bishop, .rook, .queen]
    else piece.kind = .pawn

/-- The boards that the side to move can leave, its own king's safety aside. -/
inductive Leaves (p : Position) : Board → Prop where
  | piece (s t : Square) (piece : Piece) (here : p.board s = some piece)
      (own : piece.color = p.turn) (noPawn : piece.kind ≠ .pawn) (attacks : p.board.Attacks s t)
      (target : ∀ other, p.board t = some other → other.color ≠ p.turn) :
      Leaves p (p.board.travel s t piece)
  | push (s t : Square) (arrived : Piece) (here : p.board s = some ⟨p.turn, .pawn⟩)
      (ahead : s.rows t = p.turn.forward ∧ s.files t = 0) (free : p.board t = none)
      (arrives : Arrives p.turn t arrived) : Leaves p (p.board.travel s t arrived)
  | doublePush (s m t : Square) (here : p.board s = some ⟨p.turn, .pawn⟩)
      (first : s.rows m = p.turn.forward ∧ s.files m = 0)
      (second : m.rows t = p.turn.forward ∧ m.files t = 0)
      (unmoved : (s.row : Int) = home p.turn + p.turn.forward)
      (free : p.board m = none ∧ p.board t = none) :
      Leaves p (p.board.travel s t ⟨p.turn, .pawn⟩)
  | pawnTakes (s t : Square) (arrived taken : Piece) (here : p.board s = some ⟨p.turn, .pawn⟩)
      (attacks : p.board.Attacks s t) (target : p.board t = some taken)
      (theirs : taken.color ≠ p.turn) (arrives : Arrives p.turn t arrived) :
      Leaves p (p.board.travel s t arrived)
  | enPassant (s t passed : Square) (here : p.board s = some ⟨p.turn, .pawn⟩)
      (attacks : p.board.Attacks s t) (marked : p.enPassant = some t) (free : p.board t = none)
      (beside : passed.row = s.row ∧ passed.file = t.file)
      (target : p.board passed = some ⟨p.turn.other, .pawn⟩) :
      Leaves p ((p.board.travel s t ⟨p.turn, .pawn⟩).put passed none)
  | castle (kingside : Bool) (allowed : p.castling p.turn kingside = true)
      (king : p.board ⟨home p.turn, 4⟩ = some ⟨p.turn, .king⟩)
      (rook : p.board ⟨home p.turn, if kingside then 7 else 0⟩ = some ⟨p.turn, .rook⟩)
      (free : ∀ u, Square.Between ⟨home p.turn, 4⟩ ⟨home p.turn, if kingside then 7 else 0⟩ u →
        p.board u = none)
      (safe : ∀ file ∈ ([4, if kingside then 5 else 3] : List (Fin 8)),
        ¬ p.board.Attacked p.turn.other ⟨home p.turn, file⟩) :
      Leaves p ((p.board.travel ⟨home p.turn, 4⟩ ⟨home p.turn, if kingside then 6 else 2⟩
          ⟨p.turn, .king⟩).travel ⟨home p.turn, if kingside then 7 else 0⟩
        ⟨home p.turn, if kingside then 5 else 3⟩ ⟨p.turn, .rook⟩)

/-- One legal move. The marks for castling and en passant that it leaves are any, so at least
the positions of a real game are reached. -/
def Moves (p q : Position) : Prop :=
  p.Leaves q.board ∧ q.turn = p.turn.other ∧ ¬ q.board.InCheck p.turn

abbrev Reaches : Position → Position → Prop := Relation.ReflTransGen Moves

def Checkmate (p : Position) : Prop :=
  p.board.InCheck p.turn ∧ ∀ q, ¬ p.Moves q

/-- Each side has one king, and the side that has moved is not in check. -/
structure Lawful (p : Position) : Prop where
  kings : ∀ color, ∃ k, ∀ s, p.board s = some ⟨color, .king⟩ ↔ s = k
  safe : ¬ p.board.InCheck p.turn.other

end Position

@[simp] theorem Color.other_other (color : Color) : color.other.other = color := by
  cases color <;> rfl

theorem Color.other_ne (color : Color) : color.other ≠ color := by
  cases color <;> decide

theorem mem_squares (s : Square) : s ∈ squares := by
  simp only [squares, List.mem_flatMap, List.mem_map]
  exact ⟨s.row, List.mem_finRange _, s.file, List.mem_finRange _, rfl⟩

namespace Square

theorem ext' {s t : Square} (row : s.row.val = t.row.val) (file : s.file.val = t.file.val) :
    s = t := by
  cases s
  cases t
  congr
  · exact Fin.ext row
  · exact Fin.ext file

theorem Near.symm {s t : Square} (near : s.Near t) : t.Near s := by
  obtain ⟨apart, rows, files⟩ := near
  simp only [Square.rows, Square.files] at rows files
  refine ⟨apart.symm, ?_, ?_⟩
  · simp only [Square.rows]
    omega
  · simp only [Square.files]
    omega

/-- Nothing stands between squares that touch. -/
theorem Near.between {s t u : Square} (near : s.Near t) : ¬ s.Between t u := by
  obtain ⟨_, rows, files⟩ := near
  rintro ⟨notStart, notEnd, line, lowRow, highRow, lowFile, highFile⟩
  simp only [Square.rows, Square.files] at rows files line
  simp only [Fin.le_def, Fin.coe_min, Fin.coe_max] at lowRow highRow lowFile highFile
  have start : ¬ (u.row.val = s.row.val ∧ u.file.val = s.file.val) :=
    fun same => notStart (ext' same.1 same.2)
  have stop : ¬ (u.row.val = t.row.val ∧ u.file.val = t.file.val) :=
    fun same => notEnd (ext' same.1 same.2)
  have byRow : (t.row : Int) - s.row = -1 ∨ (t.row : Int) - s.row = 0 ∨
      (t.row : Int) - s.row = 1 := by omega
  have byFile : (t.file : Int) - s.file = -1 ∨ (t.file : Int) - s.file = 0 ∨
      (t.file : Int) - s.file = 1 := by omega
  rcases byRow with row | row | row <;> rcases byFile with file | file | file <;>
    (rw [row, file] at line; omega)

/-- A king that another king does not touch has a neighbour on its row or its file that the
other king does not touch either. -/
theorem flight {k other : Square} (apart : k ≠ other) (far : ¬ k.Near other) :
    ∃ t, (k.rows t).natAbs + (k.files t).natAbs = 1 ∧ t ≠ other ∧ ¬ t.Near other := by
  have step (i : Fin 8) : ∃ j : Fin 8, ((j : Int) - i).natAbs = 1 := by
    by_cases top : i.val < 7
    · exact ⟨⟨i + 1, by omega⟩, by simp only; omega⟩
    · exact ⟨⟨i - 1, by omega⟩, by simp only; omega⟩
  by_cases rows : 2 ≤ (k.rows other).natAbs
  · obtain ⟨file, beside⟩ := step k.file
    refine ⟨⟨k.row, file⟩, ?_, ?_, ?_⟩
    · simpa [Square.rows, Square.files] using beside
    · rintro rfl
      simp [Square.rows] at rows
    · intro near
      have touching : (k.rows other).natAbs ≤ 1 := near.2.1
      omega
  · have files : 2 ≤ (k.files other).natAbs := by
      by_contra close
      exact far ⟨apart, by omega, by omega⟩
    obtain ⟨row, beside⟩ := step k.row
    refine ⟨⟨row, k.file⟩, ?_, ?_, ?_⟩
    · simpa [Square.rows, Square.files] using beside
    · rintro rfl
      simp [Square.files] at files
    · intro near
      have touching : (k.files other).natAbs ≤ 1 := near.2.2
      omega

/-- Along a diagonal the colour stays. -/
theorem light_diagonal {s t : Square} (diagonal : (s.rows t).natAbs = (s.files t).natAbs) :
    t.light = s.light := by
  simp only [light, decide_eq_decide]
  simp only [Square.rows, Square.files] at diagonal
  omega

/-- A knight's move is one by two. -/
theorem knight_cases {s t : Square} (jump : (s.rows t).natAbs * (s.files t).natAbs = 2) :
    ((s.rows t).natAbs = 1 ∧ (s.files t).natAbs = 2) ∨
      ((s.rows t).natAbs = 2 ∧ (s.files t).natAbs = 1) := by
  have bound : (s.rows t).natAbs ≤ 2 := Nat.le_of_dvd (by omega) (Dvd.intro _ jump)
  have cases' : (s.rows t).natAbs = 0 ∨ (s.rows t).natAbs = 1 ∨ (s.rows t).natAbs = 2 := by omega
  rcases cases' with rows | rows | rows <;> (rw [rows] at jump; omega)

theorem light_knight {s t : Square} (jump : (s.rows t).natAbs * (s.files t).natAbs = 2) :
    t.light = !s.light := by
  have steps := knight_cases jump
  simp only [Square.rows, Square.files] at steps
  simp only [light]
  by_cases even : (s.row.val + s.file.val) % 2 = 0
  · rw [decide_eq_true even, Bool.not_true, decide_eq_false_iff_not]
    omega
  · rw [decide_eq_false even, Bool.not_false, decide_eq_true_iff]
    omega

theorem light_beside {s t : Square} (beside : (s.rows t).natAbs + (s.files t).natAbs = 1) :
    t.light = !s.light := by
  simp only [Square.rows, Square.files] at beside
  simp only [light]
  by_cases even : (s.row.val + s.file.val) % 2 = 0
  · rw [decide_eq_true even, Bool.not_true, decide_eq_false_iff_not]
    omega
  · rw [decide_eq_false even, Bool.not_false, decide_eq_true_iff]
    omega

end Square

namespace Board

variable {board : Board}

@[simp] theorem travel_target (s t : Square) (piece : Piece) :
    board.travel s t piece t = some piece := by
  simp [travel, put]

theorem travel_start {s t : Square} (apart : s ≠ t) (piece : Piece) :
    board.travel s t piece s = none := by
  simp [travel, put, apart]

theorem travel_other {s t u : Square} (notStart : u ≠ s) (notTarget : u ≠ t) (piece : Piece) :
    board.travel s t piece u = board u := by
  simp [travel, put, notStart, notTarget]

/-- What stands on the board after a move is the piece that moved, or has not moved. -/
theorem travel_cases {s t u : Square} {piece found : Piece}
    (here : board.travel s t piece u = some found) :
    (u = t ∧ found = piece) ∨ (u ≠ s ∧ u ≠ t ∧ board u = some found) := by
  by_cases target : u = t
  · subst target
    rw [travel_target] at here
    exact .inl ⟨rfl, (Option.some.inj here).symm⟩
  · by_cases start : u = s
    · subst start
      rw [travel_start target] at here
      cases here
    · rw [travel_other start target] at here
      exact .inr ⟨start, target, here⟩

/-- Next to the kings there are only bishops on squares of one colour. -/
def Bishops (board : Board) (light : Bool) : Prop :=
  ∀ s piece, board s = some piece → piece.kind ≠ .king → piece.kind = .bishop ∧ s.light = light

/-- Next to the kings there is only one knight. -/
def OneKnight (board : Board) : Prop :=
  (∀ s piece, board s = some piece → piece.kind ≠ .king → piece.kind = .knight) ∧
    ∀ s t piece other, board s = some piece → piece.kind ≠ .king → board t = some other →
      other.kind ≠ .king → s = t

/-- Material that cannot mate, whoever has it. -/
def Harmless (board : Board) : Prop :=
  (∃ light, board.Bishops light) ∨ board.OneKnight

theorem Harmless.kinds (harmless : board.Harmless) {s : Square} {piece : Piece}
    (here : board s = some piece) : piece.kind ∈ [Kind.king, .bishop, .knight] := by
  by_cases king : piece.kind = .king
  · simp [king]
  · rcases harmless with ⟨light, bishops⟩ | ⟨knight, _⟩
    · simp [(bishops s piece here king).1]
    · simp [knight s piece here king]

/-- Only kings, bishops and knights are there to move. -/
theorem Harmless.leaves {p : Position} {next : Board} (harmless : p.board.Harmless)
    (leaves : p.Leaves next) :
    ∃ s t piece, p.board s = some piece ∧ piece.color = p.turn ∧ p.board.Attacks s t ∧
      (∀ other, p.board t = some other → other.color ≠ p.turn) ∧
      next = p.board.travel s t piece := by
  have noPawn : ∀ s, p.board s ≠ some ⟨p.turn, .pawn⟩ := by
    intro s here
    have kind := harmless.kinds here
    simp at kind
  cases leaves with
  | piece s t piece here own _ attacks target =>
      exact ⟨s, t, piece, here, own, attacks, target, rfl⟩
  | push s t arrived here => exact absurd here (noPawn s)
  | doublePush s m t here => exact absurd here (noPawn s)
  | pawnTakes s t arrived taken here => exact absurd here (noPawn s)
  | enPassant s t passed here => exact absurd here (noPawn s)
  | castle kingside allowed king rook =>
      have kind := harmless.kinds rook
      simp at kind

theorem Bishops.travel {light : Bool} (bishops : board.Bishops light) {s t : Square}
    {piece : Piece} (here : board s = some piece) (attacks : board.Attacks s t) :
    (board.travel s t piece).Bishops light := by
  intro u found standing noKing
  rcases travel_cases standing with ⟨rfl, rfl⟩ | ⟨_, _, before⟩
  · obtain ⟨kind, square⟩ := bishops s found here noKing
    obtain ⟨mover, same, points, _⟩ := attacks
    obtain rfl := Option.some.inj (here.symm.trans same)
    rw [kind] at points
    exact ⟨kind, by rw [Square.light_diagonal points.2, square]⟩
  · exact bishops u found before noKing

theorem OneKnight.travel (knight : board.OneKnight) {s t : Square} {piece : Piece}
    (here : board s = some piece) : (board.travel s t piece).OneKnight := by
  constructor
  · intro u found standing noKing
    rcases travel_cases standing with ⟨rfl, rfl⟩ | ⟨_, _, before⟩
    · exact knight.1 s found here noKing
    · exact knight.1 u found before noKing
  · intro u v found other standing noKing standing' noKing'
    rcases travel_cases standing with ⟨rfl, rfl⟩ | ⟨start, _, before⟩
    · rcases travel_cases standing' with ⟨rfl, rfl⟩ | ⟨start', _, before'⟩
      · rfl
      · exact absurd (knight.2 v s other found before' noKing' here noKing) start'
    · rcases travel_cases standing' with ⟨rfl, rfl⟩ | ⟨_, _, before'⟩
      · exact absurd (knight.2 u s found other before noKing here noKing') start
      · exact knight.2 u v found other before noKing before' noKing'

theorem Harmless.travel (harmless : board.Harmless) {s t : Square} {piece : Piece}
    (here : board s = some piece) (attacks : board.Attacks s t) :
    (board.travel s t piece).Harmless := by
  rcases harmless with ⟨light, bishops⟩ | knight
  · exact .inl ⟨light, bishops.travel here attacks⟩
  · exact .inr (knight.travel here)

/-- A piece that gives check attacks nothing next to the king on its row or its file, and does not
stand there; nor does any other piece but a king. -/
theorem Harmless.beside (harmless : board.Harmless) {s k t : Square} {piece : Piece}
    (here : board s = some piece) (noKing : piece.kind ≠ .king)
    (checks : piece.kind.Points piece.color s k)
    (beside : (k.rows t).natAbs + (k.files t).natAbs = 1) {u : Square} {other : Piece}
    (standing : board u = some other) (noKing' : other.kind ≠ .king) :
    u ≠ t ∧ ¬ other.kind.Points other.color u t := by
  have turned := Square.light_beside beside
  rcases harmless with ⟨light, bishops⟩ | knight
  · obtain ⟨kind, square⟩ := bishops s piece here noKing
    obtain ⟨kind', square'⟩ := bishops u other standing noKing'
    rw [kind] at checks
    rw [Square.light_diagonal checks.2, square] at turned
    constructor
    · rintro rfl
      simp [square'] at turned
    · intro points
      rw [kind'] at points
      rw [Square.light_diagonal points.2, square'] at turned
      simp at turned
  · obtain rfl := knight.2 s u piece other here noKing standing noKing'
    obtain rfl := Option.some.inj (here.symm.trans standing)
    rw [knight.1 s piece here noKing] at checks ⊢
    constructor
    · rintro rfl
      have steps := Square.knight_cases checks
      simp only [Square.rows, Square.files] at steps beside
      omega
    · intro points
      rw [Square.light_knight checks, Square.light_knight points] at turned
      simp at turned

end Board

namespace Position

variable {p q : Position}

/-- The kings never touch. -/
theorem Lawful.apart (lawful : p.Lawful) {color : Color} {k other : Square}
    (king : p.board k = some ⟨color, .king⟩) (king' : p.board other = some ⟨color.other, .king⟩) :
    ¬ k.Near other := by
  intro near
  have attack {s t : Square} {piece : Piece} (here : p.board s = some piece)
      (kind : piece.kind = .king) (touch : s.Near t) : p.board.Attacks s t :=
    ⟨piece, here, by rw [kind]; exact touch, fun u between => absurd between touch.between⟩
  by_cases turn : color = p.turn
  · subst turn
    exact lawful.safe ⟨other, king', k, _, king, by simp, attack king rfl near⟩
  · have other' : p.turn.other = color := by
      cases color <;> cases side : p.turn <;> simp_all [Color.other]
    exact lawful.safe ⟨k, other' ▸ king, other, _, king', by rw [other'],
      attack king' rfl near.symm⟩

theorem Moves.lawful (lawful : p.Lawful) (harmless : p.board.Harmless) (moves : p.Moves q) :
    q.Lawful ∧ q.board.Harmless := by
  obtain ⟨leaves, turn, safe⟩ := moves
  obtain ⟨s, t, piece, here, own, attacks, target, next⟩ := harmless.leaves leaves
  refine ⟨⟨?_, ?_⟩, ?_⟩
  · intro color
    obtain ⟨k, king⟩ := lawful.kings color
    rw [next]
    by_cases moved : piece = ⟨color, .king⟩
    · subst moved
      obtain rfl := (king s).mp here
      refine ⟨t, fun u => ⟨fun standing => ?_, ?_⟩⟩
      · rcases Board.travel_cases standing with ⟨arrived, _⟩ | ⟨start, _, before⟩
        · exact arrived
        · exact absurd ((king u).mp before) start
      · rintro rfl
        exact Board.travel_target _ _ _
    · have standing := (king k).mpr rfl
      have notStart : k ≠ s := by
        rintro rfl
        exact moved (Option.some.inj (here.symm.trans standing))
      have notTarget : k ≠ t := by
        rintro rfl
        have theirs : color ≠ p.turn := target _ standing
        have other : p.turn.other = color := by
          cases color <;> cases side : p.turn <;> simp_all [Color.other]
        exact lawful.safe ⟨k, other ▸ standing, s, piece, here, by simpa using own, attacks⟩
      refine ⟨k, fun u => ⟨fun found => ?_, ?_⟩⟩
      · rcases Board.travel_cases found with ⟨_, same⟩ | ⟨_, _, before⟩
        · exact absurd same.symm moved
        · exact (king u).mp before
      · rintro rfl
        rw [Board.travel_other notStart notTarget]
        exact standing
  · rw [turn, Color.other_other]
    exact safe
  · rw [next]
    exact harmless.travel here attacks

/-- The king that is in check steps aside: away from the other king along its row or its file, to
a square of the colour that the checking piece does not attack. -/
theorem Lawful.not_checkmate (lawful : p.Lawful) (harmless : p.board.Harmless) :
    ¬ p.Checkmate := by
  rintro ⟨⟨k, king, s, piece, here, theirs, _, same, checks, _⟩, stuck⟩
  obtain rfl := Option.some.inj (here.symm.trans same)
  obtain ⟨own, ours⟩ := lawful.kings p.turn
  obtain ⟨other, enemy⟩ := lawful.kings p.turn.other
  have king' := (enemy other).mpr rfl
  have noKing : piece.kind ≠ .king := by
    intro kind
    obtain rfl : piece = ⟨p.turn.other, .king⟩ := by
      cases piece
      simp_all
    exact lawful.apart king here (Square.Near.symm checks)
  have apart : k ≠ other := by
    rintro rfl
    rw [king] at king'
    exact p.turn.other_ne (congrArg Piece.color (Option.some.inj king')).symm
  obtain ⟨t, beside, notEnemy, notNear⟩ := Square.flight apart (lawful.apart king king')
  have near : k.Near t := by
    refine ⟨?_, by omega, by omega⟩
    rintro rfl
    simp [Square.rows, Square.files] at beside
  have kingCases {u : Square} {found : Piece} (standing : p.board u = some found)
      (kind : found.kind = .king) : u = k ∨ u = other ∧ found.color = p.turn.other := by
    by_cases mine : found.color = p.turn
    · have found' : found = ⟨p.turn, .king⟩ := by
        cases found
        simp_all
      exact .inl (((ours u).mp (found' ▸ standing)).trans ((ours k).mp king).symm)
    · have color : found.color = p.turn.other := by
        cases side : p.turn <;> cases hue : found.color <;> simp_all [Color.other]
      have found' : found = ⟨p.turn.other, .king⟩ := by
        cases found
        simp_all
      exact .inr ⟨(enemy u).mp (found' ▸ standing), color⟩
  have free : p.board t = none := by
    cases standing : p.board t with
    | none => rfl
    | some found =>
        by_cases kind : found.kind = .king
        · rcases kingCases standing kind with same | ⟨same, _⟩
          · exact absurd same near.1.symm
          · exact absurd same notEnemy
        · exact absurd rfl (harmless.beside here noKing checks beside standing kind).1
  let next : Board := p.board.travel k t ⟨p.turn, .king⟩
  refine stuck ⟨next, p.turn.other, p.castling, none⟩ ⟨?_, rfl, ?_⟩
  · refine .piece k t ⟨p.turn, .king⟩ king rfl nofun ?_ fun found standing => ?_
    · exact ⟨⟨p.turn, .king⟩, king, near, fun u between => absurd between near.between⟩
    · rw [free] at standing
      cases standing
  · rintro ⟨k', kingThere, u, found, standing, theirs', _, same', points, _⟩
    obtain rfl := Option.some.inj (standing.symm.trans same')
    have arrived : k' = t := by
      rcases Board.travel_cases kingThere with ⟨same, _⟩ | ⟨start, _, before⟩
      · exact same
      · exact absurd (((ours k').mp before).trans ((ours k).mp king).symm) start
    subst arrived
    rcases Board.travel_cases standing with ⟨_, rfl⟩ | ⟨start, _, before⟩
    · exact p.turn.other_ne theirs'.symm
    · by_cases kind : found.kind = .king
      · rcases kingCases before kind with same | ⟨rfl, _⟩
        · exact start same
        · rw [kind] at points
          exact notNear (Square.Near.symm points)
      · exact (harmless.beside here noKing checks beside before kind).2 points

/-- No mate by any sequence of moves. -/
theorem Lawful.never_checkmate (lawful : p.Lawful) (harmless : p.board.Harmless)
    (reaches : p.Reaches q) : ¬ q.Checkmate := by
  have kept : q.Lawful ∧ q.board.Harmless := by
    induction reaches with
    | refl => exact ⟨lawful, harmless⟩
    | tail _ moves ih => exact moves.lawful ih.1 ih.2
  exact kept.1.not_checkmate kept.2

end Position

end Farzin.Chessboard
