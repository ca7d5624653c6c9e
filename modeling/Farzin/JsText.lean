import Farzin.Lines
import Mathlib.Data.List.DropRight
import Mathlib.Data.Nat.Digits.Defs
import Mathlib.Data.Nat.Digits.Lemmas

set_option autoImplicit false

/- Strings as JavaScript has them, lists of UTF-16 code units: literals, white space, padding,
joined lines and decimal numbers, with the readers that undo the writers. -/
namespace Farzin.JsText

abbrev JsString := List UInt16

/-- A literal of characters below U+10000. -/
def units (s : String) : JsString := s.toList.map fun c => UInt16.ofNat c.toNat

def lineFeed : UInt16 := 10
def space : UInt16 := 32

/-- White space and line terminators, as `trim` and `\s` take them. -/
def isSpace (u : UInt16) : Bool :=
  let n := u.toNat
  decide ((9 ≤ n ∧ n ≤ 13) ∨ (0x2000 ≤ n ∧ n ≤ 0x200a) ∨
    n ∈ [0x20, 0xa0, 0x1680, 0x2028, 0x2029, 0x202f, 0x205f, 0x3000, 0xfeff])

def trimEnd (text : JsString) : JsString := text.rdropWhile isSpace
def trim (text : JsString) : JsString := trimEnd (text.dropWhile isSpace)

def padEnd (text : JsString) (width : Nat) : JsString :=
  text ++ List.replicate (width - text.length) space

def padStart (text : JsString) (width : Nat) : JsString :=
  List.replicate (width - text.length) space ++ text

def join (separator : JsString) (parts : List JsString) : JsString := separator.intercalate parts

def replaceRunsFrom (gap : UInt16 → Bool) (inRun : Bool) : JsString → JsString
  | [] => []
  | u :: text =>
      if gap u then
        if inRun then replaceRunsFrom gap true text
        else space :: replaceRunsFrom gap true text
      else u :: replaceRunsFrom gap false text

/-- `replaceAll` of each run of some units by one space. -/
def replaceRuns (gap : UInt16 → Bool) (text : JsString) : JsString :=
  replaceRunsFrom gap false text

/-- A field of a line, from one column up to another. -/
def cut (first last : Nat) (line : JsString) : JsString := (line.drop first).take (last - first)

section Space

/-- That a text has no unit of a kind is checked unit by unit. -/
theorem free_of_all {text : JsString} {kind : UInt16 → Bool}
    (all : text.all (fun u => !kind u) = true) : ∀ u ∈ text, kind u = false := by
  intro u inside
  have here := List.all_eq_true.mp all u inside
  simpa using here

theorem trimEnd_append (front : JsString) {u : UInt16} (kept : isSpace u = false)
    (back : JsString) : trimEnd (front ++ u :: back) = front ++ u :: trimEnd back := by
  unfold trimEnd
  induction back using List.reverseRecOn with
  | nil => exact List.rdropWhile_concat_neg _ _ _ (by simp [kept])
  | append_singleton back v ih =>
      rw [← List.cons_append, ← List.append_assoc]
      by_cases blank : isSpace v = true
      · rw [List.rdropWhile_concat_pos _ _ _ blank, List.rdropWhile_concat_pos _ _ _ blank, ih]
      · rw [List.rdropWhile_concat_neg _ _ _ blank, List.rdropWhile_concat_neg _ _ _ blank,
          List.append_assoc, List.cons_append]

@[simp] theorem trimEnd_nil : trimEnd [] = [] :=
  rfl

theorem trimEnd_isPrefix (text : JsString) : trimEnd text <+: text :=
  List.rdropWhile_prefix _ text

theorem trimEnd_cons (u : UInt16) (text : JsString) : trimEnd (u :: text) =
    if isSpace u = true ∧ trimEnd text = [] then [] else u :: trimEnd text := by
  by_cases none : trimEnd text = []
  · have blank : ∀ v ∈ text, isSpace v = true := List.rdropWhile_eq_nil_iff.mp none
    by_cases first : isSpace u = true
    · rw [if_pos ⟨first, none⟩]
      refine List.rdropWhile_eq_nil_iff.mpr fun v inside => ?_
      rcases List.mem_cons.mp inside with rfl | later
      · exact first
      · exact blank v later
    · rw [if_neg fun both => first both.1]
      exact trimEnd_append [] (Bool.not_eq_true _ ▸ first) text
  · rw [if_neg fun both => none both.2]
    obtain ⟨back, whole⟩ := trimEnd_isPrefix text
    have last : isSpace ((trimEnd text).getLast none) = false :=
      Bool.not_eq_true _ ▸ List.rdropWhile_last_not _ text none
    have split : text = (trimEnd text).dropLast ++ (trimEnd text).getLast none :: back := by
      rw [List.append_cons, List.dropLast_concat_getLast none, whole]
    generalize (trimEnd text).dropLast = front at split
    generalize (trimEnd text).getLast none = v at split last
    rw [split, ← List.cons_append, trimEnd_append _ last, trimEnd_append _ last, List.cons_append]

theorem padStart_length {text : JsString} {width : Nat} (fits : text.length ≤ width) :
    (padStart text width).length = width := by
  unfold padStart
  rw [List.length_append, List.length_replicate]
  omega

theorem padEnd_length {text : JsString} {width : Nat} (fits : text.length ≤ width) :
    (padEnd text width).length = width := by
  unfold padEnd
  rw [List.length_append, List.length_replicate]
  omega

theorem cut_append {front field back : JsString} {first last : Nat}
    (before : front.length = first) (width : first + field.length = last) :
    cut first last (front ++ (field ++ back)) = field := by
  unfold cut
  rw [← before, List.drop_left, ← width, before, Nat.add_sub_cancel_left, List.take_left]

/-- Lines that are joined and ended are ended lines. -/
theorem join_end (separator first : JsString) (parts : List JsString) :
    join separator (first :: parts) ++ separator =
      (first :: parts).flatMap fun part => part ++ separator := by
  unfold join
  induction parts generalizing first with
  | nil => simp [List.intercalate]
  | cons part parts ih =>
      rw [List.flatMap_cons, ← ih part, List.intercalate_cons_cons]
      simp [List.append_assoc]

end Space

section Numbers

def digitUnit (digit : Nat) : UInt16 := UInt16.ofNat (48 + digit)
def digitValue (u : UInt16) : Nat := u.toNat - 48
def isDigit (u : UInt16) : Bool := decide (48 ≤ u.toNat ∧ u.toNat ≤ 57)

/-- `String(n)`. -/
def natText (n : Nat) : JsString :=
  if n = 0 then [digitUnit 0] else (Nat.digits 10 n).reverse.map digitUnit

/-- `toFixed(1)` of a number of tenths. -/
def tenthsText (tenths : Nat) : JsString :=
  natText (tenths / 10) ++ units "." ++ [digitUnit (tenths % 10)]

/-- A whole number that is only digits. -/
def readNat (text : JsString) : Option Nat :=
  if text ≠ [] ∧ text.all isDigit then
    some (text.foldl (fun value u => 10 * value + digitValue u) 0)
  else none

/-- A field in which the number stands at the right. -/
def readRight (field : JsString) : Option Nat := readNat (field.dropWhile fun u => u == space)

/-- A number with one digit after the point, at the right of a field. -/
def readTenths (field : JsString) : Option Nat :=
  let number := field.dropWhile fun u => u == space
  match number.reverse with
  | tenth :: point :: whole =>
      if point = 46 ∧ isDigit tenth then
        (readNat whole.reverse).map fun n => 10 * n + digitValue tenth
      else none
  | _ => none

theorem digitUnit_toNat {digit : Nat} (small : digit < 10) :
    (digitUnit digit).toNat = 48 + digit := by
  unfold digitUnit
  rw [UInt16.toNat_ofNat']
  omega

theorem digitValue_digitUnit {digit : Nat} (small : digit < 10) :
    digitValue (digitUnit digit) = digit := by
  unfold digitValue
  rw [digitUnit_toNat small]
  omega

theorem isDigit_digitUnit {digit : Nat} (small : digit < 10) :
    isDigit (digitUnit digit) = true := by
  unfold isDigit
  rw [digitUnit_toNat small]
  exact decide_eq_true (by omega)

theorem digit_not_space {u : UInt16} (digit : isDigit u = true) : isSpace u = false := by
  unfold isDigit at digit
  unfold isSpace
  rw [decide_eq_true_iff] at digit
  dsimp only
  rw [decide_eq_false_iff_not]
  rintro (control | wide | other)
  · omega
  · omega
  · simp only [List.mem_cons, List.not_mem_nil, or_false] at other
    omega

/-- The text of a number, most significant digit first. -/
theorem natText_digits (n : Nat) : ∃ digits : List Nat, digits ≠ [] ∧
    (∀ digit ∈ digits, digit < 10) ∧ natText n = digits.map digitUnit ∧
    digits.foldl (fun value digit => 10 * value + digit) 0 = n ∧
    ∀ width, 1 ≤ width → n < 10 ^ width → digits.length ≤ width := by
  unfold natText
  by_cases zero : n = 0
  · refine ⟨[0], by simp, by simp, by rw [if_pos zero]; rfl, by rw [zero]; rfl,
      fun width wide _ => wide⟩
  · refine ⟨(Nat.digits 10 n).reverse, ?_, ?_, if_neg zero, ?_, ?_⟩
    · rw [Ne, List.reverse_eq_nil_iff, Nat.digits_eq_nil_iff_eq_zero]
      exact zero
    · intro digit inside
      exact Nat.digits_lt_base (by decide) (List.mem_reverse.mp inside)
    · rw [List.foldl_reverse]
      have value := Nat.ofDigits_digits 10 n
      rw [Nat.ofDigits_eq_foldr] at value
      simpa [Nat.add_comm] using value
    · intro width _ small
      rw [List.length_reverse, Nat.digits_length_le_iff (by decide)]
      exact small

theorem natText_isDigit (n : Nat) : natText n ≠ [] ∧ ∀ u ∈ natText n, isDigit u = true := by
  obtain ⟨digits, some, small, text, -, -⟩ := natText_digits n
  rw [text]
  refine ⟨by simpa using some, fun u inside => ?_⟩
  obtain ⟨digit, listed, rfl⟩ := List.mem_map.mp inside
  exact isDigit_digitUnit (small digit listed)

theorem natText_length {n width : Nat} (wide : 1 ≤ width) (small : n < 10 ^ width) :
    (natText n).length ≤ width := by
  obtain ⟨digits, -, -, text, -, fits⟩ := natText_digits n
  rw [text, List.length_map]
  exact fits width wide small

theorem readNat_natText (n : Nat) : readNat (natText n) = some n := by
  obtain ⟨some', all⟩ := natText_isDigit n
  obtain ⟨digits, -, small, text, value, -⟩ := natText_digits n
  unfold readNat
  rw [if_pos ⟨some', List.all_eq_true.mpr all⟩, text, List.foldl_map]
  have same : ∀ (l : List Nat) (start : Nat), (∀ digit ∈ l, digit < 10) →
      l.foldl (fun value digit => 10 * value + digitValue (digitUnit digit)) start =
        l.foldl (fun value digit => 10 * value + digit) start := by
    intro l
    induction l with
    | nil => exact fun _ _ => rfl
    | cons digit l ih =>
        intro start small
        rw [List.foldl_cons, List.foldl_cons, digitValue_digitUnit (small digit List.mem_cons_self)]
        exact ih _ fun other inside => small other (List.mem_cons_of_mem _ inside)
  rw [same digits 0 small, value]

/-- The spaces before a number are skipped. -/
theorem dropWhile_padStart {text : JsString} (digit : ∀ u ∈ text.head?, isDigit u = true)
    (width : Nat) : (padStart text width).dropWhile (fun u => u == space) = text := by
  have skipped : ∀ count : Nat, (List.replicate count space ++ text).dropWhile
      (fun u => u == space) = text.dropWhile fun u => u == space := by
    intro count
    induction count with
    | zero => rfl
    | succ count ih =>
        rw [List.replicate_succ, List.cons_append, List.dropWhile_cons_of_pos (by simp), ih]
  unfold padStart
  rw [skipped]
  cases text with
  | nil => rfl
  | cons u text =>
      have first := digit u rfl
      refine List.dropWhile_cons_of_neg ?_
      rw [beq_iff_eq]
      rintro rfl
      exact absurd first (by decide)

theorem head_isDigit {text : JsString} (all : ∀ u ∈ text, isDigit u = true) (back : JsString)
    (some : text ≠ []) : ∀ u ∈ (text ++ back).head?, isDigit u = true := by
  cases text with
  | nil => exact absurd rfl some
  | cons v text =>
      intro u inside
      rw [List.cons_append, List.head?_cons, Option.mem_some_iff] at inside
      exact inside ▸ all v List.mem_cons_self

theorem readRight_padStart (n width : Nat) : readRight (padStart (natText n) width) = some n := by
  obtain ⟨some', all⟩ := natText_isDigit n
  have first := head_isDigit all [] some'
  rw [List.append_nil] at first
  unfold readRight
  rw [dropWhile_padStart first, readNat_natText]

theorem readTenths_padStart (tenths width : Nat) :
    readTenths (padStart (tenthsText tenths) width) = some tenths := by
  obtain ⟨some', all⟩ := natText_isDigit (tenths / 10)
  have digit : tenths % 10 < 10 := Nat.mod_lt _ (by decide)
  have first : ∀ u ∈ (tenthsText tenths).head?, isDigit u = true := by
    unfold tenthsText
    rw [List.append_assoc]
    exact head_isDigit all _ some'
  have text : (tenthsText tenths).reverse =
      digitUnit (tenths % 10) :: 46 :: (natText (tenths / 10)).reverse := by
    unfold tenthsText
    rw [List.reverse_append, List.reverse_append]
    rfl
  unfold readTenths
  dsimp only
  rw [dropWhile_padStart first, text]
  dsimp only
  rw [if_pos ⟨rfl, isDigit_digitUnit digit⟩, List.reverse_reverse, readNat_natText,
    Option.map_some, digitValue_digitUnit digit, Nat.div_add_mod]

theorem tenthsText_length {tenths : Nat} (small : tenths < 1000) :
    (tenthsText tenths).length ≤ 4 := by
  have whole : (natText (tenths / 10)).length ≤ 2 := natText_length (by decide) (by omega)
  unfold tenthsText
  rw [List.length_append, List.length_append]
  exact Nat.add_le_add_right (Nat.add_le_add_right whole 1) 1

end Numbers

end Farzin.JsText
