import Farzin.FairPlayCases
import Farzin.Keyset
import Mathlib.Algebra.Order.Group.Basic
import Mathlib.Data.Prod.Lex
import Mathlib.Data.Rat.Lemmas
import Mathlib.Algebra.Order.Field.Rat

set_option autoImplicit false

/- Listings that are read page by page (`listCases` of `modules/fairplay/fairplay.repository.ts`,
`leaderboard` of `modules/rating/rating.repository.ts`, with the pages of
`shared/pagination/cursor.ts`). A cursor is the id of its row here; its encoding is undone before
it is used. -/
namespace Farzin.Listings

open FairPlay (Case)
open Keyset Transition
open Rating (Category)

def defaultPageSize : Int := 20

def maxPageSize : Int := 100

/-- The page size that the services take for what a client asks for. -/
def pageSize (first : Option Int) : Nat :=
  (min (max (first.getD defaultPageSize) 1) maxPageSize).toNat

theorem pageSize_pos (first : Option Int) : 0 < pageSize first := by
  unfold pageSize maxPageSize
  omega

section Cases

/-- The `where` of a page after the row of a cursor. -/
def caseAfter (after c : Case) : Bool :=
  match after.aggregateScore with
  | none => c.aggregateScore.isNone && decide (after.id < c.id)
  | some score =>
      (c.aggregateScore.any fun own => own < score) ||
        (decide (c.aggregateScore = some score) && decide (after.id < c.id)) ||
        c.aggregateScore.isNone

/-- By falling score, without a score last, then by id. -/
def caseOrder (a b : Case) : Bool :=
  match a.aggregateScore, b.aggregateScore with
  | some x, some y => decide (y < x) || decide (x = y) && decide (a.id ≤ b.id)
  | some _, none => true
  | none, some _ => false
  | none, none => a.id ≤ b.id

def listCases (cases : List Case) (first : Nat) (afterId : Option Nat) : List Case :=
  match afterId with
  | none => (cases.insertionSort fun a b => caseOrder a b = true).take (first + 1)
  | some id =>
      match Table.findUnique Case.id cases id with
      | none => []
      | some after =>
          ((cases.filter (caseAfter after)).insertionSort fun a b =>
            caseOrder a b = true).take (first + 1)

/-- Where a case stands in the queue. -/
def casePos (c : Case) : Nat ×ₗ Rat ×ₗ Nat :=
  match c.aggregateScore with
  | some score => toLex (0, toLex (-score, c.id))
  | none => toLex (1, toLex (0, c.id))

theorem caseAfter_iff (after c : Case) : caseAfter after c = true ↔ casePos after < casePos c := by
  unfold caseAfter casePos
  cases after.aggregateScore with
  | none => cases c.aggregateScore <;> simp [Prod.Lex.toLex_lt_toLex]
  | some score =>
      cases c.aggregateScore with
      | none => simp [Prod.Lex.toLex_lt_toLex]
      | some own => simp [Prod.Lex.toLex_lt_toLex, eq_comm (a := own) (b := score)]

theorem caseOrder_iff (a b : Case) : caseOrder a b = true ↔ casePos a ≤ casePos b := by
  unfold caseOrder casePos
  cases a.aggregateScore with
  | none => cases b.aggregateScore <;> simp [Prod.Lex.toLex_le_toLex]
  | some x => cases b.aggregateScore <;> simp [Prod.Lex.toLex_le_toLex]

def caseListing : Listing Case Nat (Nat ×ₗ Rat ×ₗ Nat) where
  id := Case.id
  pos := casePos
  shown _ := true
  fetch := listCases

theorem caseListing_lawful : caseListing.Lawful where
  apart a b same := by
    change casePos a = casePos b at same
    unfold casePos at same
    cases first : a.aggregateScore <;> cases second : b.aggregateScore <;>
      simp_all [caseListing]
  start cases first := by
    change (cases.insertionSort fun a b => caseOrder a b = true).take _ = _
    rw [Listing.rowsAfter, insertionSort_agree caseOrder_iff]
    simp [caseListing]
  next cases first cursor after found := by
    change listCases cases first (some cursor) = _
    rw [listCases]
    change Table.findUnique Case.id cases cursor = some after at found
    rw [found]
    dsimp only
    rw [Listing.rowsAfter, insertionSort_agree caseOrder_iff]
    congr 2
    apply List.filter_congr
    intro c _
    rw [Bool.eq_iff_iff, caseAfter_iff]
    simp only [caseListing, Bool.true_and, Option.all_some]
    exact decide_eq_true_iff.symm

end Cases

section Leaderboard

/-- A row of `player_ratings` with what the leaderboard looks at of it and of its player. -/
structure RatingEntry where
  id : Nat
  category : Category
  rating : Rat
  isProvisional : Bool
  playerDeleted : Bool
  deriving DecidableEq, Repr

variable (category : Category)

def RatingEntry.listed (r : RatingEntry) : Bool :=
  decide (r.category = category) && !r.isProvisional && !r.playerDeleted

def ratingAfter (cursor r : RatingEntry) : Bool :=
  decide (r.rating < cursor.rating) || decide (r.rating = cursor.rating) && decide (cursor.id < r.id)

/-- By falling rating, then by id. -/
def ratingOrder (a b : RatingEntry) : Bool :=
  decide (b.rating < a.rating) || decide (a.rating = b.rating) && decide (a.id ≤ b.id)

/-- The cursor is looked up among all rows, listed or not. -/
def leaderboard (ratings : List RatingEntry) (first : Nat) (afterId : Option Nat) :
    List RatingEntry :=
  let cursor := afterId.bind (Table.findUnique RatingEntry.id ratings)
  ((ratings.filter fun r => r.listed category && cursor.all fun c => ratingAfter c r).insertionSort
    fun a b => ratingOrder a b = true).take (first + 1)

def ratingPos (r : RatingEntry) : Rat ×ₗ Nat := toLex (-r.rating, r.id)

theorem ratingAfter_iff (cursor r : RatingEntry) :
    ratingAfter cursor r = true ↔ ratingPos cursor < ratingPos r := by
  simp [ratingAfter, ratingPos, Prod.Lex.toLex_lt_toLex,
    eq_comm (a := r.rating) (b := cursor.rating)]

theorem ratingOrder_iff (a b : RatingEntry) :
    ratingOrder a b = true ↔ ratingPos a ≤ ratingPos b := by
  simp [ratingOrder, ratingPos, Prod.Lex.toLex_le_toLex]

def leaderboardListing : Listing RatingEntry Nat (Rat ×ₗ Nat) where
  id := RatingEntry.id
  pos := ratingPos
  shown := RatingEntry.listed category
  fetch := leaderboard category

theorem leaderboardListing_lawful : (leaderboardListing category).Lawful where
  apart a b same := by
    have both := congrArg ofLex same
    exact (Prod.mk.inj both).2
  start ratings first := by
    change leaderboard category ratings first none = _
    rw [leaderboard, Listing.rowsAfter, insertionSort_agree ratingOrder_iff]
    rfl
  next ratings first cursor after found := by
    change leaderboard category ratings first (some cursor) = _
    change Table.findUnique RatingEntry.id ratings cursor = some after at found
    rw [leaderboard, Option.bind_some, found, Listing.rowsAfter,
      insertionSort_agree ratingOrder_iff]
    congr 2
    apply List.filter_congr
    intro r _
    rw [Bool.eq_iff_iff, Bool.and_eq_true, Option.all_some, ratingAfter_iff]
    simp only [leaderboardListing, Bool.and_eq_true, Option.all_some]
    exact and_congr_right fun _ => decide_eq_true_iff.symm

end Leaderboard

/-- A client that goes on to the last page receives each row of the queue, and each of the
leaderboard, whose place does not change exactly once, unless the row of a cursor moves past it
before the cursor is used. -/
theorem unmoved_received_once (first : Option Int) :
    (∀ (start s : Reader Case Nat (Nat ×ₗ Rat ×ₗ Nat)) (c : Case), start.Initial caseListing →
      c ∈ start.rows → (reading caseListing (pageSize first)).Steps
        (Undisturbed caseListing c.id (casePos c)) start s →
      s.finished = true → s.received.count c.id = 1) ∧
    ∀ (category : Category) (start s : Reader RatingEntry Nat (Rat ×ₗ Nat)) (r : RatingEntry),
      start.Initial (leaderboardListing category) → r ∈ start.rows → r.listed category = true →
      (reading (leaderboardListing category) (pageSize first)).Steps
        (Undisturbed (leaderboardListing category) r.id (ratingPos r)) start s →
      s.finished = true → s.received.count r.id = 1 := by
  constructor
  · intro start s c initial listed steps finished
    exact received_once caseListing_lawful (pageSize_pos first) initial ⟨c, listed, rfl, rfl, rfl⟩
      steps finished
  · intro category start s r initial listed shown steps finished
    exact received_once (leaderboardListing_lawful category) (pageSize_pos first) initial
      ⟨r, listed, rfl, rfl, shown⟩ steps finished

section Runs

def scored (id : Nat) (score : Rat) : Case :=
  ⟨id, id, .opened, some score, none, none, none, none, 0⟩

def otbClassical : Category := ⟨.otb, .classical⟩

def rated (id : Nat) (rating : Rat) : RatingEntry := ⟨id, otbClassical, rating, false, false⟩

def queue : Reader Case Nat (Nat ×ₗ Rat ×ₗ Nat) :=
  ⟨[scored 1 (9 / 10), scored 2 (8 / 10), scored 3 (7 / 10)], none, [], false⟩

def board : Reader RatingEntry Nat (Rat ×ₗ Nat) :=
  ⟨[rated 1 1900, rated 2 1800, rated 3 1700], none, [], false⟩

/-- The first case falls, but not below the second. -/
def fallsLittle : List (ReaderLabel Case) :=
  [.request, .change [scored 1 (85 / 100), scored 2 (8 / 10), scored 3 (7 / 10)], .request,
    .request]

/-- The first case falls to the end of the queue. -/
def fallsFar : List (ReaderLabel Case) :=
  [.request, .change [scored 1 (5 / 10), scored 2 (8 / 10), scored 3 (7 / 10)], .request]

/-- A newcomer enters. -/
def enters : List (ReaderLabel RatingEntry) :=
  [.request, .change [rated 1 1900, rated 2 1800, rated 3 1700, rated 4 2000], .request, .request]

/-- The second player rises above the first. -/
def rises : List (ReaderLabel RatingEntry) :=
  [.request, .request, .change [rated 1 1900, rated 2 1950, rated 3 1700], .request, .request]

theorem queue_initial : queue.Initial caseListing := ⟨by decide, rfl, rfl, rfl⟩

theorem board_initial : board.Initial (leaderboardListing otbClassical) :=
  ⟨by decide, rfl, rfl, rfl⟩

theorem little_received_once :
    (∃ s, (reading caseListing (pageSize (some 1))).run queue fallsLittle = some s ∧
      s.received.count 2 = 1) ∧
    ∃ s, (reading (leaderboardListing otbClassical) (pageSize (some 1))).run board enters = some s ∧
      s.received.count 2 = 1 := by
  have ranCases : ((reading caseListing (pageSize (some 1))).run queue fallsLittle).map
      Reader.finished = some true := by decide +kernel
  have ranBoard : ((reading (leaderboardListing otbClassical) (pageSize (some 1))).run board
      enters).map Reader.finished = some true := by decide +kernel
  obtain ⟨s, ran, finished⟩ := Option.map_eq_some_iff.mp ranCases
  obtain ⟨t, went, ended⟩ := Option.map_eq_some_iff.mp ranBoard
  constructor
  · refine ⟨s, ran, (unmoved_received_once (some 1)).1 queue s (scored 2 (8 / 10)) queue_initial
      (by decide +kernel) ?_ finished⟩
    exact System.run_steps _ _ _ ran (by decide +kernel)
  · refine ⟨t, went, (unmoved_received_once (some 1)).2 otbClassical board t (rated 2 1800)
      board_initial (by decide +kernel) (by decide +kernel) ?_ ended⟩
    exact System.run_steps _ _ _ went (by decide +kernel)

/-- The second case keeps its score and is never received; the first player keeps the rating and
is received twice. -/
theorem lost_and_repeated :
    (∃ s, (reading caseListing (pageSize (some 1))).run queue fallsFar = some s ∧
      s.finished = true ∧ s.received = [1] ∧ scored 2 (8 / 10) ∈ queue.rows ∧
        scored 2 (8 / 10) ∈ s.rows) ∧
    ∃ s, (reading (leaderboardListing otbClassical) (pageSize (some 1))).run board rises = some s ∧
      s.finished = true ∧ s.received = [1, 2, 1, 3] ∧ rated 1 1900 ∈ board.rows ∧
        rated 1 1900 ∈ s.rows := by
  have lost : ((reading caseListing (pageSize (some 1))).run queue fallsFar).map (fun s =>
      (s.finished, s.received, decide (scored 2 (8 / 10) ∈ s.rows))) = some (true, [1], true) := by
    decide +kernel
  have repeated : ((reading (leaderboardListing otbClassical) (pageSize (some 1))).run board
      rises).map (fun s => (s.finished, s.received, decide (rated 1 1900 ∈ s.rows))) =
      some (true, [1, 2, 1, 3], true) := by
    decide +kernel
  obtain ⟨s, ran, ends⟩ := Option.map_eq_some_iff.mp lost
  obtain ⟨t, went, stops⟩ := Option.map_eq_some_iff.mp repeated
  simp only [Prod.mk.injEq, decide_eq_true_eq] at ends stops
  exact ⟨⟨s, ran, ends.1, ends.2.1, by decide +kernel, ends.2.2⟩,
    ⟨t, went, stops.1, stops.2.1, by decide +kernel, stops.2.2⟩⟩

end Runs

end Farzin.Listings
