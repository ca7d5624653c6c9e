import Farzin.Table
import Farzin.Transition
import Mathlib.Data.List.Sort

set_option autoImplicit false

/- Keyset pagination: a listing in a linear order of positions, whose pages begin after the row
of a cursor, read by a client while the rows change. The cursor is the id of a row, and its
position is the one that the row has when the next page is asked for. -/
namespace Farzin.Keyset

open Transition

variable {Row Id Pos : Type}

structure Page (Row Id : Type) where
  items : List Row
  hasNextPage : Bool
  endCursor : Option Id
  deriving DecidableEq, Repr

/-- A page of as many rows from one row more. -/
def toPage (id : Row → Id) (rows : List Row) (first : Nat) : Page Row Id where
  items := if first < rows.length then rows.take first else rows
  hasNextPage := first < rows.length
  endCursor := (if first < rows.length then rows.take first else rows).getLast?.map id

/-- What is listed in which order, and how the rows after a cursor are fetched. -/
structure Listing (Row Id Pos : Type) where
  id : Row → Id
  pos : Row → Pos
  shown : Row → Bool
  fetch : List Row → Nat → Option Id → List Row

namespace Listing

variable [DecidableEq Id] [LinearOrder Pos] (listing : Listing Row Id Pos)

def rowsAfter (rows : List Row) (after : Option Pos) : List Row :=
  (rows.filter fun row => listing.shown row && after.all fun p => p < listing.pos row).insertionSort
    fun a b => listing.pos a ≤ listing.pos b

/-- Positions tell rows apart, and a fetch takes the first rows after its cursor, and one more. -/
structure Lawful : Prop where
  apart : ∀ a b, listing.pos a = listing.pos b → listing.id a = listing.id b
  start : ∀ rows first,
    listing.fetch rows first none = (listing.rowsAfter rows none).take (first + 1)
  next : ∀ rows first cursor row, Table.findUnique listing.id rows cursor = some row →
    listing.fetch rows first (some cursor) =
      (listing.rowsAfter rows (some (listing.pos row))).take (first + 1)

end Listing

/-- A client with the ids that it has received. Of its cursor it would have to know the position
at which it was delivered. -/
structure Reader (Row Id Pos : Type) where
  rows : List Row
  cursor : Option (Id × Pos)
  received : List Id
  finished : Bool

inductive ReaderLabel (Row : Type) where
  | request
  | change (rows : List Row)

structure Reader.Initial (listing : Listing Row Id Pos) (s : Reader Row Id Pos) : Prop where
  unique : Table.Unique listing.id s.rows
  cursor : s.cursor = none
  received : s.received = []
  finished : s.finished = false

section Reading

variable [DecidableEq Id] [LinearOrder Pos] (listing : Listing Row Id Pos) (first : Nat)

/-- The page that the client asks for next. -/
def Reader.page (s : Reader Row Id Pos) : Page Row Id :=
  toPage listing.id (listing.fetch s.rows first (s.cursor.map Prod.fst)) first

def Reader.request (s : Reader Row Id Pos) : Reader Row Id Pos where
  rows := s.rows
  cursor := (s.page listing first).items.getLast?.map fun row => (listing.id row, listing.pos row)
  received := s.received ++ (s.page listing first).items.map listing.id
  finished := !(s.page listing first).hasNextPage

/-- The client goes on until there is no next page, while the rows may become any others. -/
def reading : System (Reader Row Id Pos) (ReaderLabel Row) where
  initial := Reader.Initial listing
  step s label := match label with
    | .request => if s.finished then none else some (s.request listing first)
    | .change rows =>
        if Table.Unique listing.id rows then some { s with rows := rows } else none

/-- The row is listed at its position all the time, and the row of a cursor has not moved from one
side of it to the other when the cursor is used. -/
def Undisturbed (id : Id) (p : Pos) (s : Reader Row Id Pos) : ReaderLabel Row → Prop
  | .change rows => ∃ row ∈ rows, listing.id row = id ∧ listing.pos row = p ∧ listing.shown row
  | .request => ∀ c ∈ s.cursor,
      ∃ row ∈ s.rows, listing.id row = c.1 ∧ (p ≤ listing.pos row ↔ p ≤ c.2)

instance decidableUndisturbed (id : Id) (p : Pos) (s : Reader Row Id Pos) :
    (label : ReaderLabel Row) → Decidable (Undisturbed listing id p s label)
  | .change rows => inferInstanceAs (Decidable
      (∃ row ∈ rows, listing.id row = id ∧ listing.pos row = p ∧ listing.shown row))
  | .request => inferInstanceAs (Decidable (∀ c ∈ s.cursor,
      ∃ row ∈ s.rows, listing.id row = c.1 ∧ (p ≤ listing.pos row ↔ p ≤ c.2)))

end Reading

section Order

variable [LinearOrder Pos] {listing : Listing Row Id Pos} {rows : List Row}
  {after : Option Pos} {row : Row}

theorem mem_rowsAfter : row ∈ listing.rowsAfter rows after ↔
    row ∈ rows ∧ listing.shown row = true ∧ ∀ p ∈ after, p < listing.pos row := by
  rw [Listing.rowsAfter, (List.perm_insertionSort _ _).mem_iff, List.mem_filter, Bool.and_eq_true]
  cases after <;> simp

theorem rowsAfter_unique (unique : Table.Unique listing.id rows) (after : Option Pos) :
    Table.Unique listing.id (listing.rowsAfter rows after) := by
  apply ((List.perm_insertionSort _ _).map listing.id).nodup_iff.mpr
  exact List.Nodup.sublist (List.filter_sublist.map _) unique

/-- The rows of a listing stand in the strict order of their positions. -/
theorem rowsAfter_sorted [DecidableEq Id] (lawful : listing.Lawful)
    (unique : Table.Unique listing.id rows) (after : Option Pos) :
    (listing.rowsAfter rows after).Pairwise fun a b => listing.pos a < listing.pos b := by
  have sorted : (listing.rowsAfter rows after).Pairwise fun a b =>
      listing.pos a ≤ listing.pos b := List.pairwise_insertionSort _ _
  have distinct := List.pairwise_map.mp (rowsAfter_unique unique after)
  apply (sorted.and distinct).imp
  intro a b both
  exact lt_of_le_of_ne both.1 fun same => both.2 (lawful.apart a b same)

/-- Relations that agree sort alike. -/
theorem insertionSort_agree {α : Type} {r s : α → α → Prop} [DecidableRel r] [DecidableRel s]
    (agree : ∀ a b, r a b ↔ s a b) (l : List α) : l.insertionSort r = l.insertionSort s := by
  obtain rfl : r = s := funext fun a => funext fun b => propext (agree a b)
  congr!

theorem take_before {sorted : List Row}
    (order : sorted.Pairwise fun a b => listing.pos a < listing.pos b) {count : Nat} {a b : Row}
    (early : a ∈ sorted.take count) (late : b ∈ sorted.drop count) :
    listing.pos a < listing.pos b := by
  rw [← List.take_append_drop count sorted] at order
  exact (List.pairwise_append.mp order).2.2 a early b late

theorem le_last {sorted : List Row}
    (order : sorted.Pairwise fun a b => listing.pos a < listing.pos b) {last a : Row}
    (ends : last ∈ sorted.getLast?) (listed : a ∈ sorted) : listing.pos a ≤ listing.pos last := by
  obtain ⟨front, rfl⟩ := List.getLast?_eq_some_iff.mp ends
  rcases List.mem_append.mp listed with before | same
  · exact le_of_lt ((List.pairwise_append.mp order).2.2 a before last (List.mem_singleton_self _))
  · rw [List.mem_singleton.mp same]

/-- The items of a page are the first rows after its cursor, and there is a next page when there
are more of them. -/
theorem toPage_take (id : Row → Id) (sorted : List Row) (first : Nat) :
    toPage id (sorted.take (first + 1)) first =
      ⟨sorted.take first, first < sorted.length, (sorted.take first).getLast?.map id⟩ := by
  rw [toPage]
  by_cases more : first < sorted.length
  · have enough : first < (sorted.take (first + 1)).length := by
      rw [List.length_take]
      omega
    rw [if_pos enough, List.take_take, min_eq_left (Nat.le_succ first)]
    simp [more]
  · have all : sorted.take (first + 1) = sorted := List.take_of_length_le (by omega)
    rw [all, if_neg more, List.take_of_length_le (by omega)]

end Order

section Receiving

variable [DecidableEq Id] [LinearOrder Pos] {listing : Listing Row Id Pos} {first : Nat} {id : Id} {p : Pos}

/-- Before the end a row has been received once when the cursor was delivered at its position or
after it, and never otherwise. -/
structure Reader.Steady (listing : Listing Row Id Pos) (id : Id) (p : Pos)
    (s : Reader Row Id Pos) : Prop where
  unique : Table.Unique listing.id s.rows
  listed : ∃ row ∈ s.rows, listing.id row = id ∧ listing.pos row = p ∧ listing.shown row = true
  reading : s.finished = false →
    s.received.count id = if ∃ c ∈ s.cursor, p ≤ c.2 then 1 else 0
  finished : s.finished = true → s.received.count id = 1

/-- The first rows of what is listed after a boundary bring the row if they come to it. -/
theorem items_cases (lawful : listing.Lawful) {rows : List Row}
    (unique : Table.Unique listing.id rows) {row : Row} (inside : row ∈ rows)
    (shown : listing.shown row = true) (after : Option Pos) (count : Nat) :
    let sorted := listing.rowsAfter rows after
    let received := ((sorted.take count).map listing.id).count (listing.id row)
    if ∃ q ∈ after, listing.pos row ≤ q then
      received = 0 ∧ ∀ a ∈ sorted.take count, listing.pos row ≤ listing.pos a
    else (received = 1 ∧ ∀ last ∈ (sorted.take count).getLast?,
        listing.pos row ≤ listing.pos last) ∨
      received = 0 ∧ count < sorted.length ∧
        ∀ a ∈ sorted.take count, listing.pos a < listing.pos row := by
  intro sorted received
  have order := rowsAfter_sorted lawful unique after
  have distinct : Table.Unique listing.id (listing.rowsAfter rows after) :=
    rowsAfter_unique unique after
  have absent (missing : row ∉ sorted.take count) : received = 0 := by
    apply List.count_eq_zero.mpr
    intro there
    obtain ⟨other, listed, same⟩ := List.mem_map.mp there
    have stored := (mem_rowsAfter.mp (List.mem_of_mem_take listed)).1
    rw [List.inj_on_of_nodup_map unique stored inside same] at listed
    exact missing listed
  split
  · rename_i before
    obtain ⟨q, its, behind⟩ := before
    constructor
    · apply absent
      intro listed
      have beyond := (mem_rowsAfter.mp (List.mem_of_mem_take listed)).2.2 q its
      exact absurd behind (not_le_of_gt beyond)
    · intro a listed
      exact behind.trans (le_of_lt ((mem_rowsAfter.mp (List.mem_of_mem_take listed)).2.2 q its))
  · rename_i ahead
    have listed : row ∈ sorted := by
      refine mem_rowsAfter.mpr ⟨inside, shown, fun q its => ?_⟩
      exact lt_of_not_ge fun behind => ahead ⟨q, its, behind⟩
    rw [← List.take_append_drop count sorted] at listed
    rcases List.mem_append.mp listed with early | late
    · left
      refine ⟨List.count_eq_one_of_mem ?_ (List.mem_map_of_mem early), fun last ends => ?_⟩
      · exact List.Nodup.sublist ((List.take_sublist _ _).map _) distinct
      · exact le_last (order.sublist (List.take_sublist count sorted)) ends early
    · right
      have room := List.length_pos_of_mem late
      rw [List.length_drop] at room
      refine ⟨absent fun early => ?_, by omega, fun a early => take_before order early late⟩
      exact lt_irrefl _ (take_before order early late)

/-- A page whose boundary is on the side of the row on which the cursor was delivered leaves the
reader steady. -/
theorem request_steady (lawful : listing.Lawful) (positive : 0 < first)
    {s : Reader Row Id Pos} (steady : s.Steady listing id p) (goes : s.finished = false)
    (after : Option Pos) (side : (∃ q ∈ after, p ≤ q) ↔ ∃ c ∈ s.cursor, p ≤ c.2)
    (fetched : listing.fetch s.rows first (s.cursor.map Prod.fst) =
      (listing.rowsAfter s.rows after).take (first + 1)) :
    (s.request listing first).Steady listing id p := by
  obtain ⟨row, inside, rfl, rfl, shown⟩ := steady.listed
  have counted := steady.reading goes
  have parts := items_cases lawful steady.unique inside shown after first
  generalize listing.rowsAfter s.rows after = sorted at fetched parts
  dsimp only at parts
  have page : s.page listing first = ⟨sorted.take first, first < sorted.length,
      (sorted.take first).getLast?.map listing.id⟩ := by
    rw [Reader.page, fetched, toPage_take]
  have received : (s.request listing first).received.count (listing.id row) =
      s.received.count (listing.id row) +
        ((sorted.take first).map listing.id).count (listing.id row) := by
    rw [Reader.request, List.count_append, page]
  have cursor : (s.request listing first).cursor =
      (sorted.take first).getLast?.map fun row => (listing.id row, listing.pos row) := by
    rw [Reader.request, page]
  have finished : (s.request listing first).finished = !decide (first < sorted.length) := by
    rw [Reader.request, page]
  -- While there is a next page, the page has a last row.
  have last (more : first < sorted.length) : ∃ last, (sorted.take first).getLast? = some last := by
    apply Option.ne_none_iff_exists'.mp
    intro none
    have empty := congrArg List.length (List.getLast?_eq_none_iff.mp none)
    rw [List.length_take, List.length_nil] at empty
    omega
  refine ⟨steady.unique, ⟨row, inside, rfl, rfl, shown⟩, fun still => ?_, fun ended => ?_⟩
  · rw [finished, Bool.not_eq_false', decide_eq_true_eq] at still
    obtain ⟨l, ends⟩ := last still
    have listed := List.mem_of_getLast? ends
    rw [received, cursor, ends, counted]
    split at parts
    · rename_i behind
      rw [if_pos (side.mp behind), if_pos ⟨_, rfl, parts.2 l listed⟩, parts.1]
    · rename_i ahead
      rw [if_neg fun c => ahead (side.mpr c)]
      rcases parts with ⟨one, reached⟩ | ⟨none, _, short⟩
      · rw [if_pos ⟨_, rfl, reached l ends⟩, one]
      · rw [if_neg, none]
        rintro ⟨c, its, reached⟩
        cases its
        exact absurd reached (not_le_of_gt (short l listed))
  · rw [finished, Bool.not_eq_true', decide_eq_false_iff_not] at ended
    rw [received, counted]
    split at parts
    · rename_i behind
      rw [if_pos (side.mp behind), parts.1]
    · rename_i ahead
      rw [if_neg fun c => ahead (side.mpr c)]
      rcases parts with ⟨one, _⟩ | ⟨_, more, _⟩
      · rw [one]
      · exact absurd more ended

theorem step_steady (lawful : listing.Lawful) (positive : 0 < first) {s t : Reader Row Id Pos}
    (steady : s.Steady listing id p) {label : ReaderLabel Row}
    (undisturbed : Undisturbed listing id p s label)
    (taken : (reading listing first).step s label = some t) : t.Steady listing id p := by
  cases label with
  | change rows =>
      change (if Table.Unique listing.id rows then some _ else none) = some t at taken
      split at taken
      · rename_i unique
        cases taken
        exact ⟨unique, undisturbed, steady.reading, steady.finished⟩
      · cases taken
  | request =>
      change (if s.finished then none else some (s.request listing first)) = some t at taken
      split at taken
      · cases taken
      · rename_i goes
        cases taken
        have goes := Bool.eq_false_of_not_eq_true goes
        cases its : s.cursor with
        | none =>
            apply request_steady lawful positive steady goes none
            · rw [its]
              exact iff_of_false (fun ⟨_, no, _⟩ => by cases no) (fun ⟨_, no, _⟩ => by cases no)
            · rw [its]
              exact lawful.start s.rows first
        | some c =>
            obtain ⟨row, inside, same, side⟩ := undisturbed c its
            apply request_steady lawful positive steady goes (some (listing.pos row))
            · rw [its]
              simpa using side
            · rw [its]
              apply lawful.next
              rw [← same]
              exact steady.unique.find inside

/-- A row that is listed at its position all the time is received exactly once, unless the row of
a cursor moves past it before the cursor is used. -/
theorem received_once (lawful : listing.Lawful) (positive : 0 < first)
    {start s : Reader Row Id Pos} (initial : start.Initial listing)
    (listed : ∃ row ∈ start.rows, listing.id row = id ∧ listing.pos row = p ∧
      listing.shown row = true)
    (steps : (reading listing first).Steps (Undisturbed listing id p) start s)
    (finished : s.finished = true) : s.received.count id = 1 := by
  have steady : s.Steady listing id p := by
    apply steps.preserve fun s => s.Steady listing id p
    · intro s label t steady undisturbed taken
      exact step_steady lawful positive steady undisturbed taken
    · refine ⟨initial.unique, listed, fun _ => ?_, fun ended => ?_⟩
      · rw [initial.received, initial.cursor]
        exact (if_neg fun ⟨_, no, _⟩ => by cases no).symm
      · rw [initial.finished] at ended
        cases ended
  exact steady.finished finished

end Receiving

end Farzin.Keyset
