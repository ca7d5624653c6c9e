import Farzin.Json
import Farzin.Listings
import Mathlib.Data.List.Lex

set_option autoImplicit false

/- Opaque cursors (`shared/pagination/cursor.ts`): their texts, the pages that carry them, and what a
client receives that follows them through a listing by id. -/
namespace Farzin.Cursor

open JsText TextCodecs
open Keyset (Listing)

/-- `JSON.stringify` of an object with an `id` only. -/
def stringifyId (id : JsString) : JsString :=
  [123] ++ Json.quoteString (units "id") ++ [58] ++ Json.quoteString id ++ [125]

def encodeCursor (id : JsString) : JsString := toBase64url (encodeUtf8 (stringifyId id))

/-- What cannot be read, or has no text for an `id`, is no cursor. -/
def decodeCursor (cursor : JsString) : Option JsString := do
  let parsed ← Json.parse (decodeUtf8 (fromBase64url cursor))
  match parsed.member (units "id") with
  | some (.string id) => some id
  | _ => none

section Codec

theorem stringifyId_wellFormed (id : JsString) : WellFormed (stringifyId id) := by
  have name : WellFormed (Json.quoteUnits (units "id")) := Json.quoteUnits_wellFormed _
  have value : WellFormed (Json.quoteUnits id) := Json.quoteUnits_wellFormed id
  have mark : WellFormed [Json.quote] := .unit (by decide) (by decide) .nil
  unfold stringifyId Json.quoteString
  refine ((((?_ : WellFormed _).append ?_).append ?_).append ?_).append ?_
  · exact .unit (by decide) (by decide) .nil
  · exact (WellFormed.unit (by decide) (by decide) name).append mark
  · exact .unit (by decide) (by decide) .nil
  · exact (WellFormed.unit (by decide) (by decide) value).append mark
  · exact .unit (by decide) (by decide) .nil

theorem skipSpace_cons {u : UInt16} (solid : decide (u ∈ units " \t\n\r") = false)
    (text : JsString) : Json.skipSpace (u :: text) = u :: text :=
  List.dropWhile_cons_of_neg (by simp [solid])

theorem readValue_quoted (depth : Nat) (text rest : JsString) :
    Json.readValue (depth + 1) (Json.quote :: (Json.quoteUnits text ++ Json.quote :: rest)) =
      some (.string text, rest) := by
  rw [Json.readValue, skipSpace_cons (by decide)]
  dsimp only
  rw [if_neg (by decide), if_neg (by decide), if_pos rfl, Json.readString_quoteUnits]
  rfl

/-- One member and the end of the object. -/
theorem readMembers_single (depth count : Nat) (name text : JsString) :
    Json.readMembers (Json.readValue (depth + 1)) (count + 1) []
        (Json.quote :: (Json.quoteUnits name ++ Json.quote :: 58 :: Json.quote ::
          (Json.quoteUnits text ++ Json.quote :: [125]))) =
      some (.object [(name, .string text)], []) := by
  rw [Json.readMembers, skipSpace_cons (by decide)]
  change (Json.readString _ >>= _) = _
  rw [Json.readString_quoteUnits, Option.bind_eq_bind, Option.bind_some]
  dsimp only
  rw [skipSpace_cons (by decide)]
  change (Json.readValue _ _ >>= _) = _
  rw [readValue_quoted, Option.bind_eq_bind, Option.bind_some]
  dsimp only
  rw [skipSpace_cons (by decide)]
  rfl

/-- The text of an object is read as the object. -/
theorem parse_stringifyId (id : JsString) :
    Json.parse (stringifyId id) = some (.object [(units "id", .string id)]) := by
  have text : stringifyId id = 123 :: Json.quote :: (Json.quoteUnits (units "id") ++ Json.quote ::
      58 :: Json.quote :: (Json.quoteUnits id ++ Json.quote :: [125])) := by
    unfold stringifyId Json.quoteString
    simp only [List.append_assoc, List.cons_append, List.nil_append]
  rw [Json.parse, text, List.length_cons, List.length_cons, Json.readValue,
    skipSpace_cons (by decide)]
  dsimp only
  rw [if_pos rfl, skipSpace_cons (by decide)]
  change (Json.readMembers _ _ _ _ >>= _) = _
  rw [List.length_cons, readMembers_single]
  rfl

theorem decodeCursor_encodeCursor (id : JsString) : decodeCursor (encodeCursor id) = some id := by
  rw [decodeCursor, encodeCursor, fromBase64url_toBase64url,
    decodeUtf8_encodeUtf8 (stringifyId_wellFormed id), parse_stringifyId]
  rfl

/-- Whatever the id is, its cursor is read back as the id and stands in a URL as it is. -/
theorem encodeCursor_exact (id : JsString) :
    decodeCursor (encodeCursor id) = some id ∧ ∀ u ∈ encodeCursor id, isUrlSafe u = true :=
  ⟨decodeCursor_encodeCursor id, toBase64url_isUrlSafe _⟩

end Codec

section Pages

variable {Row Pos : Type}

/-- A page of as many rows from one row more, with the text of its last row as the cursor. -/
def toPage (id : Row → JsString) (rows : List Row) (first : Nat) : Keyset.Page Row JsString :=
  let hasNextPage := decide (first < rows.length)
  let items := if hasNextPage then rows.take first else rows
  ⟨items, hasNextPage, items.getLast?.map fun last => encodeCursor (id last)⟩

theorem toPage_eq (id : Row → JsString) (rows : List Row) (first : Nat) :
    toPage id rows first =
      { Keyset.toPage id rows first with
        endCursor := (Keyset.toPage id rows first).items.getLast?.map fun last =>
          encodeCursor (id last) } := by
  unfold toPage Keyset.toPage
  simp only [decide_eq_true_eq]

section Listings

variable [LinearOrder Pos] (id : Row → JsString) (pos : JsString → Pos) (shown : Row → Bool)

/-- Listings by id: those after the cursor, if there is one, in the order of the ids. -/
def fetchById (rows : List Row) (first : Nat) (afterId : Option JsString) : List Row :=
  ((rows.filter fun row => shown row && afterId.all fun after =>
    decide (pos after < pos (id row))).insertionSort fun a b =>
      pos (id a) ≤ pos (id b)).take (first + 1)

def idListing : Listing Row JsString Pos where
  id := id
  pos row := pos (id row)
  shown := shown
  fetch := fetchById id pos shown

theorem idListing_lawful (injective : Function.Injective pos) :
    (idListing id pos shown).Lawful where
  apart _ _ same := injective same
  start rows first := rfl
  next rows first cursor row found := by
    have same : id row = cursor := Table.findUnique_key found
    change fetchById id pos shown rows first (some cursor) = _
    rw [fetchById, ← same]
    rfl

end Listings

variable [LinearOrder Pos] (listing : Listing Row JsString Pos) (rows : List Row) (first : Nat)

/-- What a client receives that goes on with the end cursor of each page. -/
def visit : Nat → Option JsString → List Row
  | 0, _ => []
  | requests + 1, after =>
      let page := toPage listing.id (listing.fetch rows first (after.bind decodeCursor)) first
      page.items ++ if page.hasNextPage then visit requests page.endCursor else []

variable {listing rows first}

/-- What is listed after a row is what follows it. -/
theorem rowsAfter_later (lawful : listing.Lawful) (unique : Table.Unique listing.id rows)
    {front rest : List Row} {last : Row}
    (whole : listing.rowsAfter rows none = front ++ last :: rest) :
    listing.rowsAfter rows (some (listing.pos last)) = rest := by
  have order := Keyset.rowsAfter_sorted lawful unique none
  rw [whole] at order
  obtain ⟨-, later, before⟩ := List.pairwise_append.mp order
  obtain ⟨behind, sorted⟩ := List.pairwise_cons.mp later
  have same : ∀ row, row ∈ listing.rowsAfter rows (some (listing.pos last)) ↔ row ∈ rest := by
    intro row
    have all : row ∈ listing.rowsAfter rows none ↔ row ∈ rows ∧ listing.shown row = true := by
      rw [Keyset.mem_rowsAfter]
      simp
    rw [Keyset.mem_rowsAfter, ← and_assoc, ← all, whole]
    constructor
    · rintro ⟨listed, beyond⟩
      have beyond := beyond _ rfl
      rcases List.mem_append.mp listed with early | here
      · exact absurd beyond (lt_asymm (before row early last List.mem_cons_self))
      · rcases List.mem_cons.mp here with rfl | inRest
        · exact absurd beyond (lt_irrefl _)
        · exact inRest
    · intro inRest
      refine ⟨List.mem_append_right _ (List.mem_cons_of_mem _ inRest), ?_⟩
      rintro p ⟨⟩
      exact behind row inRest
  have distinct := Keyset.rowsAfter_sorted lawful unique (some (listing.pos last))
  have perm : (listing.rowsAfter rows (some (listing.pos last))).Perm rest := by
    refine (List.perm_ext_iff_of_nodup ?_ ?_).mpr same
    · exact distinct.imp fun below => ne_of_apply_ne listing.pos (ne_of_lt below)
    · exact sorted.imp fun below => ne_of_apply_ne listing.pos (ne_of_lt below)
  refine List.Perm.eq_of_pairwise ?_ distinct sorted perm
  intro a b _ _ (below : listing.pos a < listing.pos b) (above : listing.pos b < listing.pos a)
  exact (lt_asymm below above).elim

/-- After some rows of the listing, the pages of its cursors bring the others. -/
theorem visit_rest (lawful : listing.Lawful) (unique : Table.Unique listing.id rows)
    (positive : 0 < first) (requests : Nat) :
    ∀ front rest : List Row, listing.rowsAfter rows none = front ++ rest → rest.length < requests →
      visit listing rows first requests
        (front.getLast?.map fun last => encodeCursor (listing.id last)) = rest := by
  induction requests with
  | zero => exact fun front rest _ none => absurd none (Nat.not_lt_zero _)
  | succ requests ih =>
      intro front rest whole enough
      have cursor : (front.getLast?.map fun last => encodeCursor (listing.id last)).bind
          decodeCursor = front.getLast?.map listing.id := by
        cases front.getLast? with
        | none => rfl
        | some last =>
            rw [Option.map_some, Option.bind_some, decodeCursor_encodeCursor, Option.map_some]
      have fetched : listing.fetch rows first (front.getLast?.map listing.id) =
          rest.take (first + 1) := by
        rcases List.eq_nil_or_concat front with rfl | ⟨before, last, rfl⟩
        · rw [List.nil_append] at whole
          rw [← whole]
          exact lawful.start rows first
        · rw [List.concat_eq_append, List.append_assoc, List.singleton_append] at whole
          have listed : last ∈ listing.rowsAfter rows none := whole ▸ by simp
          have found := Table.Unique.find unique (Keyset.mem_rowsAfter.mp listed).1
          rw [List.concat_eq_append, List.getLast?_concat, Option.map_some,
            lawful.next rows first _ last found, rowsAfter_later lawful unique whole]
      rw [visit, cursor, fetched, toPage_eq, Keyset.toPage_take]
      dsimp only
      by_cases more : first < rest.length
      · have next := ih (front ++ rest.take first) (rest.drop first)
          (by rw [List.append_assoc, List.take_append_drop]; exact whole)
          (by rw [List.length_drop]; omega)
        have some : rest.take first ≠ [] := by
          rw [← List.length_pos_iff, List.length_take]
          omega
        rw [List.getLast?_append_of_ne_nil _ some] at next
        rw [if_pos (decide_eq_true more), next, List.take_append_drop]
      · rw [if_neg (by simpa using more), List.append_nil, List.take_of_length_le (by omega)]

/-- A client of a listing by id that goes on with each end cursor until there is no next page
receives what is listed, in the order of the ids and each row once, whatever page size it asks
for. -/
theorem cursors_followed (id : Row → JsString) (pos : JsString → Pos)
    (shown : Row → Bool) (rows : List Row) (first : Option Int)
    (injective : Function.Injective pos) (unique : Table.Unique id rows) :
    visit (idListing id pos shown) rows (Listings.pageSize first) (rows.length + 1) none =
      (rows.filter shown).insertionSort fun a b => pos (id a) ≤ pos (id b) := by
  have listed : (idListing id pos shown).rowsAfter rows none =
      (rows.filter shown).insertionSort fun a b => pos (id a) ≤ pos (id b) := by
    unfold Listing.rowsAfter
    simp only [Option.all_none, Bool.and_true]
    rfl
  have length : ((idListing id pos shown).rowsAfter rows none).length < rows.length + 1 := by
    rw [listed, List.length_insertionSort]
    exact Nat.lt_succ_of_le (List.length_filter_le _ _)
  rw [← listed]
  exact visit_rest (idListing_lawful id pos shown injective) unique (Listings.pageSize_pos first)
    (rows.length + 1) [] _ rfl length

/-- The values of the units of a text, in the order of which texts are compared. -/
def unitValues (text : JsString) : List Nat := text.map UInt16.toNat

theorem unitValues_injective : Function.Injective unitValues :=
  List.map_injective_iff.mpr fun _ _ same => UInt16.toNat_inj.mp same

def invoices : List (JsString × Bool) :=
  [(units "ccc", true), (units "a", true), (units "bb", false), (units "dddd", true)]

theorem cursors_followed_invoices :
    visit (idListing Prod.fst unitValues Prod.snd) invoices (Listings.pageSize (some 2)) 5 none =
      [(units "a", true), (units "ccc", true), (units "dddd", true)] :=
  (cursors_followed Prod.fst unitValues Prod.snd invoices (some 2) unitValues_injective
    (by decide +kernel)).trans (by decide +kernel)

end Pages

end Farzin.Cursor
