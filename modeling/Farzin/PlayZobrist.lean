import Farzin.PlayRules

set_option autoImplicit false

/- The Zobrist hash of a position, the index by which repetitions are looked up
(`core/chess/rules.ts`). What chess.js reads off a FEN is a parameter. -/
namespace Farzin.Play

inductive PieceType where
  | p
  | n
  | b
  | r
  | q
  | k
  deriving DecidableEq, Repr

structure BoardSquare where
  type : PieceType
  color : ClockSide
  deriving DecidableEq, Repr

/-- `board()` and `turn()` of `new Chess(fen)`. -/
structure FenReader where
  board : String → List (List (Option BoardSquare))
  turn : String → ClockSide

/-- `Xorshift64.next`: the value it returns is also its new state. -/
def xorshift64 (s : BitVec 64) : BitVec 64 :=
  let x := s ^^^ (s <<< 13)
  let x := x ^^^ (x >>> 7)
  x ^^^ (x <<< 17)

def xorshift64Seed (seed : BitVec 64) : BitVec 64 :=
  if seed = 0 then 0x9e3779b97f4a7c15 else seed

/-- The next values of the generator, and the state it is left in. -/
def drawKeys : Nat → BitVec 64 → List (BitVec 64) × BitVec 64
  | 0, s => ([], s)
  | count + 1, s =>
      let key := xorshift64 s
      let (keys, last) := drawKeys count key
      (key :: keys, last)

def drawRows (width : Nat) : Nat → BitVec 64 → List (List (BitVec 64)) × BitVec 64
  | 0, s => ([], s)
  | count + 1, s =>
      let (row, middle) := drawKeys width s
      let (rows, last) := drawRows width count middle
      (row :: rows, last)

structure ZobristHasher where
  pieceKeys : List (List (BitVec 64))
  sideKey : BitVec 64
  castlingKeys : List (BitVec 64)
  epFileKeys : List (BitVec 64)
  deriving DecidableEq, Repr

/-- The constructor of `ZobristHasher`. -/
def ZobristHasher.new (seed : BitVec 64) : ZobristHasher :=
  let (pieceKeys, s) := drawRows 64 12 (xorshift64Seed seed)
  let sideKey := xorshift64 s
  let (castlingKeys, s) := drawKeys 16 sideKey
  let (epFileKeys, _) := drawKeys 8 s
  { pieceKeys, sideKey, castlingKeys, epFileKeys }

def zobristSeed : BitVec 64 := 0x515279f384d1c0de

def pieceIndex (square : BoardSquare) : Nat :=
  let order := [PieceType.p, .n, .b, .r, .q, .k]
  order.idxOf square.type + if square.color = .w then 0 else 6

def castlingMask (fen : String) : Nat :=
  let field := ((fenFields fen)[2]?.getD "-").toList
  (if 'K' ∈ field then 1 else 0) ||| (if 'Q' ∈ field then 2 else 0) |||
    (if 'k' ∈ field then 4 else 0) ||| (if 'q' ∈ field then 8 else 0)

/-- The file of the en-passant square. An empty field has no first character: its code is not
a number, and no key is found for it. -/
def enPassantFile (fen : String) : Option Int :=
  match ((fenFields fen)[3]?.getD "-").toList with
  | [] => none
  | ['-'] => none
  | file :: _ => some ((file.toNat : Int) - ('a'.toNat : Int))

/-- A key of a table, where the index is in range. -/
def xorKey (h : BitVec 64) : Option (BitVec 64) → BitVec 64
  | none => h
  | some key => h ^^^ key

namespace ZobristHasher

variable (hasher : ZobristHasher) (reader : FenReader)

def squareKey (square : BoardSquare) (squareIdx : Nat) : Option (BitVec 64) :=
  hasher.pieceKeys[pieceIndex square]?.bind fun keys => keys[squareIdx]?

def hashRow (h : BitVec 64) (rank : List (Option BoardSquare) × Nat) : BitVec 64 :=
  rank.1.zipIdx.foldl (fun h file => match file.1 with
    | none => h
    | some square => xorKey h (hasher.squareKey square (rank.2 * 8 + file.2))) h

def hash (fen : String) : BitVec 64 :=
  let h := (reader.board fen).zipIdx.foldl hasher.hashRow 0
  let h := if reader.turn fen = .w then h ^^^ hasher.sideKey else h
  let h := xorKey h hasher.castlingKeys[castlingMask fen]?
  xorKey h ((enPassantFile fen).bind fun ep =>
    if ep < 0 then none else hasher.epFileKeys[ep.toNat]?)

/-- `zobristHash`: sixteen hexadecimal digits. -/
def zobristHash (fen : String) : String :=
  String.ofList ((Nat.toDigits 16 (hasher.hash reader fen).toNat).leftpad 16 '0')

end ZobristHasher

/-- What chess.js reads off a FEN for the hash is in its first two fields. -/
structure FenReader.ReadsKey (reader : FenReader) : Prop where
  board : ∀ f g, positionKey f = positionKey g → reader.board f = reader.board g
  turn : ∀ f g, positionKey f = positionKey g → reader.turn f = reader.turn g

section Fields

theorem not_mem_splitOn {α : Type} [DecidableEq α] (x : α) (xs l : List α)
    (part : l ∈ xs.splitOn x) : x ∉ l := by
  induction xs generalizing l with
  | nil =>
      rw [List.splitOn_nil, List.mem_singleton] at part
      rw [part]
      exact List.not_mem_nil
  | cons a xs ih =>
      rw [List.splitOn_cons_eq_if_modifyHead] at part
      split at part
      · rcases List.mem_cons.mp part with rfl | later
        · exact List.not_mem_nil
        · exact ih l later
      · rename_i apart
        cases parts : xs.splitOn x with
        | nil =>
            rw [parts] at part
            cases part
        | cons first rest =>
            rw [parts, List.modifyHead_cons] at part
            rcases List.mem_cons.mp part with rfl | later
            · have clear := ih first (parts ▸ List.mem_cons_self)
              rw [List.mem_cons, not_or]
              exact ⟨fun same => apart (by simp [same]), clear⟩
            · exact ih l (parts ▸ List.mem_cons_of_mem _ later)

/-- The fields of a FEN contain no blank, so its key has just its first four fields. -/
theorem fenFields_positionKey (fen : String) :
    fenFields (positionKey fen) = (fenFields fen).take 4 := by
  have parts : (positionKey fen).toList =
      [' '].intercalate (((fen.toList.splitOn ' ')).take 4) := by
    unfold positionKey fenFields
    rw [String.toList_intercalate, ← List.map_take, List.map_map]
    congr 1
    conv_rhs => rw [← List.map_id ((fen.toList.splitOn ' ').take 4)]
    apply List.map_congr_left
    intro part _
    exact String.toList_ofList
  unfold fenFields
  rw [parts, List.splitOn_intercalate, List.map_take]
  · intro part inside
    exact not_mem_splitOn ' ' _ part (List.mem_of_mem_take inside)
  · have parted := List.splitOn_ne_nil ' ' fen.toList
    cases fields : fen.toList.splitOn ' ' with
    | nil => exact absurd fields parted
    | cons first rest => exact List.cons_ne_nil _ _

theorem field_eq {f g : String} (same : positionKey f = positionKey g) {i : Nat} (early : i < 4) :
    (fenFields f)[i]? = (fenFields g)[i]? := by
  have fields : (fenFields f).take 4 = (fenFields g).take 4 := by
    rw [← fenFields_positionKey, same, fenFields_positionKey]
  rw [← List.getElem?_take_of_lt early, fields, List.getElem?_take_of_lt early]

end Fields

/-- Positions with one key have one hash; the converse may fail. -/
theorem zobristHash_congr (hasher : ZobristHasher) {reader : FenReader} (reads : reader.ReadsKey)
    {f g : String} (same : positionKey f = positionKey g) :
    hasher.zobristHash reader f = hasher.zobristHash reader g := by
  have castling : castlingMask f = castlingMask g := by
    unfold castlingMask
    rw [field_eq same (by decide)]
  have enPassant : enPassantFile f = enPassantFile g := by
    unfold enPassantFile
    rw [field_eq same (by decide)]
  unfold ZobristHasher.zobristHash ZobristHasher.hash
  rw [reads.board f g same, reads.turn f g same, castling, enPassant]

end Farzin.Play
