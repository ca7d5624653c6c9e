import Farzin.JsText
import Farzin.TextCodecs

set_option autoImplicit false

/- JSON texts of 16-bit units: how `JSON.stringify` quotes a string, and what `JSON.parse` takes. -/
namespace Farzin.Json

open JsText TextCodecs

inductive Value where
  | null
  | bool (b : Bool)
  | number (text : JsString)
  | string (text : JsString)
  | array (items : List Value)
  | object (members : List (JsString × Value))

def quote : UInt16 := 34
def backslash : UInt16 := 92

section Writing

def hexDigit (n : Nat) : UInt16 := UInt16.ofNat (if n < 10 then 48 + n else 87 + n)

def unicodeEscape (u : UInt16) : JsString :=
  let n := u.toNat
  [backslash, 117, hexDigit (n / 4096), hexDigit (n / 256 % 16), hexDigit (n / 16 % 16),
    hexDigit (n % 16)]

/-- The letters of `\b`, `\t`, `\n`, `\f` and `\r`, and the two units that stand for themselves. -/
def shortEscapes : List (UInt16 × UInt16) :=
  [(8, 98), (9, 116), (10, 110), (12, 102), (13, 114), (34, 34), (92, 92)]

def shortEscape (u : UInt16) : Option UInt16 := shortEscapes.lookup u

/-- A unit that is no part of a pair. -/
def quoteUnit (u : UInt16) : JsString :=
  match shortEscape u with
  | some letter => [backslash, letter]
  | none => if u.toNat < 0x20 ∨ isHigh u = true ∨ isLow u = true then unicodeEscape u else [u]

def quoteUnits : JsString → JsString
  | [] => []
  | [u] => quoteUnit u
  | u :: v :: text =>
      if isHigh u && isLow v then u :: v :: quoteUnits text
      else quoteUnit u ++ quoteUnits (v :: text)

/-- `QuoteJSONString`. -/
def quoteString (text : JsString) : JsString := quote :: quoteUnits text ++ [quote]

end Writing

section Reading

def skipSpace (text : JsString) : JsString := text.dropWhile fun u => decide (u ∈ units " \t\n\r")

def hexValue (u : UInt16) : Option Nat :=
  let n := u.toNat
  if 48 ≤ n ∧ n ≤ 57 then some (n - 48)
  else if 97 ≤ n ∧ n ≤ 102 then some (n - 87)
  else if 65 ≤ n ∧ n ≤ 70 then some (n - 55)
  else none

def hexUnit (a b c d : UInt16) : Option UInt16 := do
  let a ← hexValue a
  let b ← hexValue b
  let c ← hexValue c
  let d ← hexValue d
  return UInt16.ofNat (((a * 16 + b) * 16 + c) * 16 + d)

def escapeValue (u : UInt16) : Option UInt16 :=
  [(34, 34), (92, 92), (47, 47), (98, 8), (102, 12), (110, 10), (114, 13), (116, 9)].lookup u

/-- A string up to its closing quote, and the text after it. -/
def readString : JsString → Option (JsString × JsString)
  | [] => none
  | u :: text =>
      if u = quote then some ([], text)
      else if u = backslash then
        match text with
        | [] => none
        | letter :: text =>
            if letter = 117 then
              match text with
              | a :: b :: c :: d :: text => do
                  let v ← hexUnit a b c d
                  let read ← readString text
                  return (v :: read.1, read.2)
              | _ => none
            else do
              let v ← escapeValue letter
              let read ← readString text
              return (v :: read.1, read.2)
      else if u.toNat < 0x20 then none
      else (readString text).map fun read => (u :: read.1, read.2)

/-- One digit or more. -/
def readDigits (text : JsString) : Option (JsString × JsString) :=
  let digits := text.takeWhile isDigit
  if digits = [] then none else some (digits, text.drop digits.length)

/-- No leading zero. -/
def readInteger (text : JsString) : Option (JsString × JsString) :=
  match text with
  | 48 :: text => some ([48], text)
  | text => readDigits text

def readFraction (text : JsString) : Option (JsString × JsString) :=
  match text with
  | 46 :: text => (readDigits text).map fun read => (46 :: read.1, read.2)
  | text => some ([], text)

def readExponent (text : JsString) : Option (JsString × JsString) :=
  match text with
  | e :: text =>
      if e = 101 ∨ e = 69 then
        let sign := (text.take 1).filter fun u => decide (u = 43 ∨ u = 45)
        (readDigits (text.drop sign.length)).map fun read => (e :: sign ++ read.1, read.2)
      else some ([], e :: text)
  | [] => some ([], [])

def readNumber (text : JsString) : Option (JsString × JsString) := do
  let sign := (text.take 1).filter fun u => decide (u = 45)
  let whole ← readInteger (text.drop sign.length)
  let fraction ← readFraction whole.2
  let exponent ← readExponent fraction.2
  return (sign ++ whole.1 ++ fraction.1 ++ exponent.1, exponent.2)

def readWord (word : JsString) (value : Value) (text : JsString) : Option (Value × JsString) :=
  if word.isPrefixOf text then some (value, text.drop word.length) else none

variable (read : JsString → Option (Value × JsString))

/-- The items up to the closing bracket, at least one. -/
def readItems : Nat → List Value → JsString → Option (Value × JsString)
  | 0, _, _ => none
  | count + 1, items, text => do
      let item ← read text
      match skipSpace item.2 with
      | 44 :: text => readItems count (items ++ [item.1]) text
      | 93 :: text => return (.array (items ++ [item.1]), text)
      | _ => none

/-- The members up to the closing brace, at least one. -/
def readMembers : Nat → List (JsString × Value) → JsString → Option (Value × JsString)
  | 0, _, _ => none
  | count + 1, members, text =>
      match skipSpace text with
      | 34 :: text => do
          let name ← readString text
          match skipSpace name.2 with
          | 58 :: text => do
              let value ← read text
              match skipSpace value.2 with
              | 44 :: text => readMembers count (members ++ [(name.1, value.1)]) text
              | 125 :: text => return (.object (members ++ [(name.1, value.1)]), text)
              | _ => none
          | _ => none
      | _ => none

/-- A value, and the text after it; every level of nesting takes a unit. -/
def readValue : Nat → JsString → Option (Value × JsString)
  | 0, _ => none
  | depth + 1, text =>
      match skipSpace text with
      | [] => none
      | u :: text =>
          if u = 123 then
            match skipSpace text with
            | 125 :: text => some (.object [], text)
            | text => readMembers (readValue depth) text.length [] text
          else if u = 91 then
            match skipSpace text with
            | 93 :: text => some (.array [], text)
            | text => readItems (readValue depth) text.length [] text
          else if u = quote then (readString text).map fun read => (.string read.1, read.2)
          else if u = 116 then readWord (units "true") (.bool true) (u :: text)
          else if u = 102 then readWord (units "false") (.bool false) (u :: text)
          else if u = 110 then readWord (units "null") .null (u :: text)
          else (readNumber (u :: text)).map fun read => (.number read.1, read.2)

/-- `JSON.parse`; `none` is a `SyntaxError`. -/
def parse (text : JsString) : Option Value := do
  let read ← readValue (text.length + 1) text
  if skipSpace read.2 = [] then some read.1 else none

/-- The member of a name, the last one if it comes twice. -/
def Value.member (name : JsString) : Value → Option Value
  | .object members => members.reverse.lookup name
  | _ => none

end Reading

section Strings

theorem hexValue_hexDigit {n : Nat} (small : n < 16) : hexValue (hexDigit n) = some n := by
  have all : ∀ i : Fin 16, hexValue (hexDigit i) = some i.val := by decide +kernel
  exact all ⟨n, small⟩

/-- The four digits of a unit are read as the unit. -/
theorem hexUnit_digits (u : UInt16) : hexUnit (hexDigit (u.toNat / 4096))
    (hexDigit (u.toNat / 256 % 16)) (hexDigit (u.toNat / 16 % 16)) (hexDigit (u.toNat % 16)) =
      some u := by
  have bound := u.toNat_lt
  have whole : ((u.toNat / 4096 * 16 + u.toNat / 256 % 16) * 16 + u.toNat / 16 % 16) * 16 +
      u.toNat % 16 = u.toNat := by omega
  unfold hexUnit
  rw [hexValue_hexDigit (by omega), hexValue_hexDigit (by omega), hexValue_hexDigit (by omega),
    hexValue_hexDigit (by omega)]
  simp only [Option.bind_eq_bind, Option.bind_some, whole, UInt16.ofNat_toNat]
  rfl

theorem readString_plain {u : UInt16} (noQuote : u ≠ quote) (noSlash : u ≠ backslash)
    (printed : ¬ u.toNat < 0x20) (text : JsString) :
    readString (u :: text) = (readString text).map fun read => (u :: read.1, read.2) := by
  rw [readString.eq_def]
  dsimp only
  rw [if_neg noQuote, if_neg noSlash, if_neg printed]

theorem readString_unicode (u : UInt16) (text : JsString) :
    readString (unicodeEscape u ++ text) =
      (readString text).map fun read => (u :: read.1, read.2) := by
  unfold unicodeEscape
  simp only [List.cons_append, List.nil_append]
  rw [readString.eq_def]
  dsimp only
  rw [if_neg (by decide), if_pos rfl, if_pos rfl, hexUnit_digits]
  cases readString text <;> rfl

theorem readString_short {u letter : UInt16} (short : shortEscape u = some letter)
    (text : JsString) : readString (backslash :: letter :: text) =
      (readString text).map fun read => (u :: read.1, read.2) := by
  have table : (shortEscapes.all fun pair =>
      pair.2 != 117 && decide (escapeValue pair.2 = some pair.1)) = true := by decide +kernel
  have known : letter ≠ 117 ∧ escapeValue letter = some u := by
    obtain ⟨front, back, listed, -⟩ := List.lookup_eq_some_iff.mp short
    have here := List.all_eq_true.mp table (u, letter) (listed ▸ by simp)
    simpa using here
  rw [readString.eq_def]
  dsimp only
  rw [if_neg (by decide), if_pos rfl, if_neg known.1, known.2]
  cases readString text <;> rfl

theorem quoteUnit_cases (u : UInt16) :
    (∃ letter, shortEscape u = some letter ∧ quoteUnit u = [backslash, letter]) ∨
    quoteUnit u = unicodeEscape u ∨
    quoteUnit u = [u] ∧ u ≠ quote ∧ u ≠ backslash ∧ ¬ u.toNat < 0x20 ∧ isHigh u = false ∧
      isLow u = false := by
  unfold quoteUnit
  cases short : shortEscape u with
  | some letter => exact .inl ⟨letter, rfl, rfl⟩
  | none =>
      dsimp only
      by_cases escaped : u.toNat < 0x20 ∨ isHigh u = true ∨ isLow u = true
      · rw [if_pos escaped]
        exact .inr (.inl rfl)
      · rw [if_neg escaped]
        push Not at escaped
        refine .inr (.inr ⟨rfl, ?_, ?_, not_lt.mpr escaped.1, by simpa using escaped.2.1,
          by simpa using escaped.2.2⟩)
        · rintro rfl
          exact absurd short (by decide)
        · rintro rfl
          exact absurd short (by decide)

/-- A quoted unit is read as the unit. -/
theorem readString_quoteUnit (u : UInt16) (text : JsString) :
    readString (quoteUnit u ++ text) = (readString text).map fun read => (u :: read.1, read.2) := by
  rcases quoteUnit_cases u with ⟨letter, short, quoted⟩ | quoted | ⟨quoted, noQuote, noSlash,
    printed, -⟩
  · rw [quoted]
    exact readString_short short text
  · rw [quoted]
    exact readString_unicode u text
  · rw [quoted]
    exact readString_plain noQuote noSlash printed text

theorem surrogate_plain {u : UInt16} (surrogate : isHigh u = true ∨ isLow u = true) :
    u ≠ quote ∧ u ≠ backslash ∧ ¬ u.toNat < 0x20 := by
  have large : 0xd800 ≤ u.toNat := by
    rcases surrogate with high | low
    · exact (of_decide_eq_true high).1
    · have := (of_decide_eq_true low).1
      omega
  refine ⟨?_, ?_, by omega⟩
  · rintro rfl
    exact absurd large (by decide)
  · rintro rfl
    exact absurd large (by decide)

/-- A quoted text is read back up to its closing quote. -/
theorem readString_quoteUnits (text rest : JsString) :
    readString (quoteUnits text ++ quote :: rest) = some (text, rest) := by
  induction text using quoteUnits.induct with
  | case1 =>
      rw [quoteUnits, List.nil_append, readString.eq_def]
      exact if_pos rfl
  | case2 u =>
      have ended : readString (quote :: rest) = some ([], rest) := by
        rw [readString.eq_def]
        exact if_pos rfl
      rw [quoteUnits, readString_quoteUnit, ended]
      rfl
  | case3 u v text both ih =>
      obtain ⟨high, low⟩ := Bool.and_eq_true_iff.mp both
      obtain ⟨noQuote, noSlash, printed⟩ := surrogate_plain (.inl high)
      obtain ⟨noQuote', noSlash', printed'⟩ := surrogate_plain (.inr low)
      rw [quoteUnits, if_pos both, List.cons_append, List.cons_append,
        readString_plain noQuote noSlash printed, readString_plain noQuote' noSlash' printed', ih]
      rfl
  | case4 u v text apart ih =>
      rw [quoteUnits, if_neg apart, List.append_assoc, readString_quoteUnit, ih]
      rfl

/-- Quoting escapes what is no part of a pair. -/
theorem quoteUnit_wellFormed (u : UInt16) : WellFormed (quoteUnit u) := by
  have digits : ∀ n < 16, isHigh (hexDigit n) = false ∧ isLow (hexDigit n) = false := by
    have all : ∀ i : Fin 16, isHigh (hexDigit i) = false ∧ isLow (hexDigit i) = false := by
      decide +kernel
    exact fun n small => all ⟨n, small⟩
  have bound := u.toNat_lt
  rcases quoteUnit_cases u with ⟨letter, short, quoted⟩ | quoted | ⟨quoted, -, -, -, high, low⟩
  · have table : (shortEscapes.all fun pair => !isHigh pair.2 && !isLow pair.2) = true := by
      decide +kernel
    obtain ⟨front, back, listed, -⟩ := List.lookup_eq_some_iff.mp short
    have here := List.all_eq_true.mp table (u, letter) (listed ▸ by simp)
    simp only [Bool.and_eq_true, Bool.not_eq_true'] at here
    rw [quoted]
    exact .unit (by decide) (by decide) (.unit here.1 here.2 .nil)
  · rw [quoted]
    have one := digits (u.toNat / 4096) (by omega)
    have two := digits (u.toNat / 256 % 16) (by omega)
    have three := digits (u.toNat / 16 % 16) (by omega)
    have four := digits (u.toNat % 16) (by omega)
    exact .unit (by decide) (by decide) (.unit (by decide) (by decide) (.unit one.1 one.2
      (.unit two.1 two.2 (.unit three.1 three.2 (.unit four.1 four.2 .nil)))))
  · rw [quoted]
    exact .unit high low .nil

theorem quoteUnits_wellFormed (text : JsString) : WellFormed (quoteUnits text) := by
  induction text using quoteUnits.induct with
  | case1 => exact .nil
  | case2 u => exact quoteUnit_wellFormed u
  | case3 u v text both ih =>
      obtain ⟨high, low⟩ := Bool.and_eq_true_iff.mp both
      rw [quoteUnits, if_pos both]
      exact .pair high low ih
  | case4 u v text apart ih =>
      rw [quoteUnits, if_neg apart]
      exact (quoteUnit_wellFormed u).append ih

end Strings

end Farzin.Json
