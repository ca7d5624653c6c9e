import Mathlib.Data.List.Basic
import Mathlib.Data.UInt

set_option autoImplicit false

/- Texts of 16-bit units as bytes and back: UTF-8 with its replacement character, and the base64 of
URLs. -/
namespace Farzin.TextCodecs

section Base64

/-- The symbol of six bits. -/
def symbol (n : Nat) : UInt16 :=
  UInt16.ofNat
    (if n < 26 then 65 + n
    else if n < 52 then 97 + (n - 26)
    else if n < 62 then 48 + (n - 52)
    else if n = 62 then 45
    else 95)

/-- The six bits of a symbol, in the alphabet of URLs or in the older one. -/
def sextet (u : UInt16) : Option Nat :=
  let n := u.toNat
  if 65 ≤ n ∧ n ≤ 90 then some (n - 65)
  else if 97 ≤ n ∧ n ≤ 122 then some (n - 97 + 26)
  else if 48 ≤ n ∧ n ≤ 57 then some (n - 48 + 52)
  else if n = 45 ∨ n = 43 then some 62
  else if n = 95 ∨ n = 47 then some 63
  else none

/-- The symbols of the bytes, three at a time, without padding. -/
def sextets : List UInt8 → List Nat
  | a :: b :: c :: bytes =>
      [a.toNat / 4, a.toNat % 4 * 16 + b.toNat / 16, b.toNat % 16 * 4 + c.toNat / 64,
        c.toNat % 64] ++ sextets bytes
  | [a, b] => [a.toNat / 4, a.toNat % 4 * 16 + b.toNat / 16, b.toNat % 16 * 4]
  | [a] => [a.toNat / 4, a.toNat % 4 * 16]
  | [] => []

def octets : List Nat → List UInt8
  | a :: b :: c :: d :: rest =>
      [UInt8.ofNat (a * 4 + b / 16), UInt8.ofNat (b % 16 * 16 + c / 4),
        UInt8.ofNat (c % 4 * 64 + d)] ++ octets rest
  | [a, b, c] => [UInt8.ofNat (a * 4 + b / 16), UInt8.ofNat (b % 16 * 16 + c / 4)]
  | [a, b] => [UInt8.ofNat (a * 4 + b / 16)]
  | [_] => []
  | [] => []

def toBase64url (bytes : List UInt8) : List UInt16 := (sextets bytes).map symbol

/-- What is no symbol is skipped, and a part of a byte at the end is dropped. -/
def fromBase64url (text : List UInt16) : List UInt8 := octets (text.filterMap sextet)

example : toBase64url [0x66, 0x6f, 0x6f, 0x62] = [90, 109, 57, 118, 89, 103] := by
  decide

theorem sextet_symbol {n : Nat} (small : n < 64) : sextet (symbol n) = some n := by
  have all : ∀ i : Fin 64, sextet (symbol i) = some i.val := by decide +kernel
  exact all ⟨n, small⟩

/-- Letters, digits, hyphen and underscore. -/
def isUrlSafe (u : UInt16) : Bool :=
  let n := u.toNat
  decide (65 ≤ n ∧ n ≤ 90 ∨ 97 ≤ n ∧ n ≤ 122 ∨ 48 ≤ n ∧ n ≤ 57 ∨ n = 45 ∨ n = 95)

theorem symbol_isUrlSafe {n : Nat} (small : n < 64) : isUrlSafe (symbol n) = true := by
  have all : ∀ i : Fin 64, isUrlSafe (symbol i) = true := by decide +kernel
  exact all ⟨n, small⟩

theorem sextets_lt (bytes : List UInt8) : ∀ n ∈ sextets bytes, n < 64 := by
  induction bytes using sextets.induct with
  | case1 a b c bytes ih =>
      have boundA := a.toNat_lt
      have boundB := b.toNat_lt
      have boundC := c.toNat_lt
      intro n listed
      rw [sextets] at listed
      rcases List.mem_append.mp listed with first | later
      · simp only [List.mem_cons, List.not_mem_nil, or_false] at first
        omega
      · exact ih n later
  | case2 a b =>
      have boundA := a.toNat_lt
      have boundB := b.toNat_lt
      intro n listed
      simp only [sextets, List.mem_cons, List.not_mem_nil, or_false] at listed
      omega
  | case3 a =>
      have boundA := a.toNat_lt
      intro n listed
      simp only [sextets, List.mem_cons, List.not_mem_nil, or_false] at listed
      omega
  | case4 =>
      intro n listed
      cases listed

theorem ofNat_of_toNat {a : UInt8} {n : Nat} (same : n = a.toNat) : UInt8.ofNat n = a := by
  rw [same]
  exact UInt8.ofNat_toNat

theorem octets_sextets (bytes : List UInt8) : octets (sextets bytes) = bytes := by
  induction bytes using sextets.induct with
  | case1 a b c bytes ih =>
      have boundA := a.toNat_lt
      have boundB := b.toNat_lt
      have boundC := c.toNat_lt
      rw [sextets, List.cons_append, List.cons_append, List.cons_append, List.cons_append,
        List.nil_append, octets, ih, ofNat_of_toNat (a := a) (by omega),
        ofNat_of_toNat (a := b) (by omega), ofNat_of_toNat (a := c) (by omega)]
      rfl
  | case2 a b =>
      have boundA := a.toNat_lt
      have boundB := b.toNat_lt
      rw [sextets, octets, ofNat_of_toNat (a := a) (by omega), ofNat_of_toNat (a := b) (by omega)]
  | case3 a =>
      have boundA := a.toNat_lt
      rw [sextets, octets, ofNat_of_toNat (a := a) (by omega)]
  | case4 => rfl

/-- Bytes are read back from their base64 text. -/
theorem fromBase64url_toBase64url (bytes : List UInt8) :
    fromBase64url (toBase64url bytes) = bytes := by
  have small := sextets_lt bytes
  have back : ((sextets bytes).map symbol).filterMap sextet = sextets bytes := by
    rw [List.filterMap_map]
    generalize sextets bytes = list at small
    induction list with
    | nil => rfl
    | cons n list ih =>
        rw [List.filterMap_cons, Function.comp_apply, sextet_symbol (small n List.mem_cons_self)]
        dsimp only
        rw [ih fun m listed => small m (List.mem_cons_of_mem n listed)]
  rw [fromBase64url, toBase64url, back, octets_sextets]

theorem toBase64url_isUrlSafe (bytes : List UInt8) :
    ∀ u ∈ toBase64url bytes, isUrlSafe u = true := by
  intro u listed
  obtain ⟨n, inside, rfl⟩ := List.mem_map.mp listed
  exact symbol_isUrlSafe (sextets_lt bytes n inside)

end Base64

section Utf16

def isHigh (u : UInt16) : Bool := decide (0xd800 ≤ u.toNat ∧ u.toNat ≤ 0xdbff)
def isLow (u : UInt16) : Bool := decide (0xdc00 ≤ u.toNat ∧ u.toNat ≤ 0xdfff)

/-- What stands for what cannot be read. -/
def replacement : Nat := 0xfffd

def loneValue (u : UInt16) : Nat := if isHigh u || isLow u then replacement else u.toNat

def pairValue (u v : UInt16) : Nat :=
  0x10000 + (u.toNat - 0xd800) * 0x400 + (v.toNat - 0xdc00)

/-- The code points of a text of units. -/
def codePoints : List UInt16 → List Nat
  | [] => []
  | [u] => [loneValue u]
  | u :: v :: text =>
      if isHigh u && isLow v then pairValue u v :: codePoints text
      else loneValue u :: codePoints (v :: text)

def unitsOf (point : Nat) : List UInt16 :=
  if point < 0x10000 then [UInt16.ofNat point]
  else [UInt16.ofNat (0xd800 + (point - 0x10000) / 0x400),
    UInt16.ofNat (0xdc00 + (point - 0x10000) % 0x400)]

/-- Every high unit is followed by a low one, and every low unit follows a high one. -/
inductive WellFormed : List UInt16 → Prop
  | nil : WellFormed []
  | unit {u : UInt16} {text : List UInt16} (high : isHigh u = false) (low : isLow u = false)
      (rest : WellFormed text) : WellFormed (u :: text)
  | pair {u v : UInt16} {text : List UInt16} (high : isHigh u = true) (low : isLow v = true)
      (rest : WellFormed text) : WellFormed (u :: v :: text)

theorem WellFormed.append {front back : List UInt16} (first : WellFormed front)
    (second : WellFormed back) : WellFormed (front ++ back) := by
  induction first with
  | nil => exact second
  | unit high low _ ih => exact .unit high low ih
  | pair high low _ ih => exact .pair high low ih

/-- A number that is a character. -/
def Scalar (point : Nat) : Prop := point < 0xd800 ∨ 0xe000 ≤ point ∧ point < 0x110000

theorem codePoints_unit {u : UInt16} (high : isHigh u = false) (low : isLow u = false)
    (text : List UInt16) : codePoints (u :: text) = u.toNat :: codePoints text := by
  have own : loneValue u = u.toNat := by simp [loneValue, high, low]
  cases text with
  | nil => simp [codePoints, own]
  | cons v text => simp [codePoints, high, own]

theorem codePoints_pair {u v : UInt16} (high : isHigh u = true) (low : isLow v = true)
    (text : List UInt16) : codePoints (u :: v :: text) = pairValue u v :: codePoints text := by
  simp [codePoints, high, low]

/-- A well-formed text is its code points. -/
theorem unitsOf_codePoints {text : List UInt16} (wellFormed : WellFormed text) :
    (codePoints text).flatMap unitsOf = text ∧ ∀ point ∈ codePoints text, Scalar point := by
  induction wellFormed with
  | nil => exact ⟨rfl, fun point listed => absurd listed List.not_mem_nil⟩
  | @unit u text high low _ ih =>
      have bound := u.toNat_lt
      have plain : u.toNat < 0x10000 := bound
      rw [codePoints_unit high low, List.flatMap_cons, ih.1, unitsOf, if_pos plain,
        UInt16.ofNat_toNat]
      refine ⟨rfl, List.forall_mem_cons.mpr ⟨?_, ih.2⟩⟩
      unfold isHigh at high
      unfold isLow at low
      rw [decide_eq_false_iff_not] at high low
      unfold Scalar
      omega
  | @pair u v text high low _ ih =>
      unfold isHigh at high
      unfold isLow at low
      have inHigh := of_decide_eq_true high
      have inLow := of_decide_eq_true low
      have large : ¬ pairValue u v < 0x10000 := by unfold pairValue; omega
      have front : 0xd800 + (pairValue u v - 0x10000) / 0x400 = u.toNat := by
        unfold pairValue
        omega
      have back : 0xdc00 + (pairValue u v - 0x10000) % 0x400 = v.toNat := by
        unfold pairValue
        omega
      rw [codePoints_pair high low, List.flatMap_cons, ih.1, unitsOf, if_neg large, front, back,
        UInt16.ofNat_toNat, UInt16.ofNat_toNat]
      refine ⟨rfl, List.forall_mem_cons.mpr ⟨?_, ih.2⟩⟩
      unfold Scalar pairValue
      omega

end Utf16

section Utf8

def encodePoint (point : Nat) : List UInt8 :=
  if point < 0x80 then [UInt8.ofNat point]
  else if point < 0x800 then [UInt8.ofNat (0xc0 + point / 64), UInt8.ofNat (0x80 + point % 64)]
  else if point < 0x10000 then
    [UInt8.ofNat (0xe0 + point / 4096), UInt8.ofNat (0x80 + point / 64 % 64),
      UInt8.ofNat (0x80 + point % 64)]
  else
    [UInt8.ofNat (0xf0 + point / 262144), UInt8.ofNat (0x80 + point / 4096 % 64),
      UInt8.ofNat (0x80 + point / 64 % 64), UInt8.ofNat (0x80 + point % 64)]

def encodeUtf8 (text : List UInt16) : List UInt8 := (codePoints text).flatMap encodePoint

/-- A character of which some bytes are missing, and the range of the next one. -/
structure Pending where
  point : Nat
  needed : Nat
  lower : Nat
  upper : Nat
  deriving DecidableEq, Repr

structure Decoding where
  points : List Nat
  pending : Option Pending
  deriving DecidableEq, Repr

namespace Decoding

/-- A byte that starts a character. -/
def start (points : List Nat) (b : Nat) : Decoding :=
  if b < 0x80 then ⟨points ++ [b], none⟩
  else if 0xc2 ≤ b ∧ b ≤ 0xdf then ⟨points, some ⟨b - 0xc0, 1, 0x80, 0xbf⟩⟩
  else if 0xe0 ≤ b ∧ b ≤ 0xef then
    ⟨points, some ⟨b - 0xe0, 2, if b = 0xe0 then 0xa0 else 0x80, if b = 0xed then 0x9f else 0xbf⟩⟩
  else if 0xf0 ≤ b ∧ b ≤ 0xf4 then
    ⟨points, some ⟨b - 0xf0, 3, if b = 0xf0 then 0x90 else 0x80, if b = 0xf4 then 0x8f else 0xbf⟩⟩
  else ⟨points ++ [replacement], none⟩

/-- A byte out of range ends the character before it and starts another. -/
def step (s : Decoding) (byte : UInt8) : Decoding :=
  match s.pending with
  | none => start s.points byte.toNat
  | some p =>
      if p.lower ≤ byte.toNat ∧ byte.toNat ≤ p.upper then
        let point := p.point * 64 + (byte.toNat - 0x80)
        if p.needed = 1 then ⟨s.points ++ [point], none⟩
        else ⟨s.points, some ⟨point, p.needed - 1, 0x80, 0xbf⟩⟩
      else start (s.points ++ [replacement]) byte.toNat

end Decoding

def decodePoints (bytes : List UInt8) : List Nat :=
  let s := bytes.foldl Decoding.step ⟨[], none⟩
  if s.pending.isSome then s.points ++ [replacement] else s.points

def decodeUtf8 (bytes : List UInt8) : List UInt16 := (decodePoints bytes).flatMap unitsOf

example : decodeUtf8 [0x61, 0xe2, 0x82, 0xac, 0xc0, 0xf0, 0x9f, 0x98] =
    [0x61, 0x20ac, 0xfffd, 0xfffd] := by
  decide

theorem toNat_ofNat_byte {n : Nat} (small : n < 256) : (UInt8.ofNat n).toNat = n := by
  rw [UInt8.toNat_ofNat']
  exact Nat.mod_eq_of_lt small

theorem step_start {n : Nat} (small : n < 256) (points : List Nat) :
    Decoding.step ⟨points, none⟩ (UInt8.ofNat n) = Decoding.start points n := by
  rw [Decoding.step, toNat_ofNat_byte small]

/-- A byte in range carries six more bits. -/
theorem step_next {p : Pending} {n : Nat} (points : List Nat) (lower : p.lower ≤ n)
    (upper : n ≤ p.upper) (small : n < 256) :
    Decoding.step ⟨points, some p⟩ (UInt8.ofNat n) =
      if p.needed = 1 then ⟨points ++ [p.point * 64 + (n - 0x80)], none⟩
      else ⟨points, some ⟨p.point * 64 + (n - 0x80), p.needed - 1, 0x80, 0xbf⟩⟩ := by
  rw [Decoding.step, toNat_ofNat_byte small]
  exact if_pos ⟨lower, upper⟩

/-- The bytes of a character are read as the character. -/
theorem foldl_encodePoint {point : Nat} (scalar : Scalar point) (points : List Nat) :
    (encodePoint point).foldl Decoding.step ⟨points, none⟩ = ⟨points ++ [point], none⟩ := by
  unfold Scalar at scalar
  unfold encodePoint
  by_cases one : point < 0x80
  · rw [if_pos one, List.foldl_cons, List.foldl_nil, step_start (by omega), Decoding.start,
      if_pos one]
  · rw [if_neg one]
    by_cases two : point < 0x800
    · rw [if_pos two, List.foldl_cons, List.foldl_cons, List.foldl_nil, step_start (by omega),
        Decoding.start, if_neg (by omega), if_pos (by omega), step_next _ (by dsimp only; omega)
        (by dsimp only; omega) (by omega)]
      have whole : (0xc0 + point / 64 - 0xc0) * 64 + (0x80 + point % 64 - 0x80) = point := by omega
      dsimp only
      rw [if_pos rfl, whole]
    · rw [if_neg two]
      by_cases three : point < 0x10000
      · rw [if_pos three, List.foldl_cons, List.foldl_cons, List.foldl_cons, List.foldl_nil,
          step_start (by omega), Decoding.start, if_neg (by omega), if_neg (by omega),
          if_pos (by omega), step_next _ (by dsimp only; split <;> omega)
          (by dsimp only; split <;> omega) (by omega)]
        dsimp only
        rw [if_neg (by decide), step_next _ (by dsimp only; omega) (by dsimp only; omega) (by omega)]
        have whole : ((0xe0 + point / 4096 - 0xe0) * 64 + (0x80 + point / 64 % 64 - 0x80)) * 64 +
            (0x80 + point % 64 - 0x80) = point := by omega
        dsimp only
        rw [if_pos rfl, whole]
      · rw [if_neg three, List.foldl_cons, List.foldl_cons, List.foldl_cons, List.foldl_cons,
          List.foldl_nil, step_start (by omega), Decoding.start, if_neg (by omega),
          if_neg (by omega), if_neg (by omega), if_pos (by omega),
          step_next _ (by dsimp only; split <;> omega) (by dsimp only; split <;> omega) (by omega)]
        dsimp only
        rw [if_neg (by decide), step_next _ (by dsimp only; omega) (by dsimp only; omega) (by omega)]
        dsimp only
        rw [if_neg (by decide), step_next _ (by dsimp only; omega) (by dsimp only; omega) (by omega)]
        have whole : (((0xf0 + point / 262144 - 0xf0) * 64 +
            (0x80 + point / 4096 % 64 - 0x80)) * 64 + (0x80 + point / 64 % 64 - 0x80)) * 64 +
            (0x80 + point % 64 - 0x80) = point := by omega
        dsimp only
        rw [if_pos rfl, whole]

theorem foldl_encodePoints {list : List Nat} (scalars : ∀ point ∈ list, Scalar point)
    (points : List Nat) :
    (list.flatMap encodePoint).foldl Decoding.step ⟨points, none⟩ = ⟨points ++ list, none⟩ := by
  induction list generalizing points with
  | nil => rw [List.flatMap_nil, List.foldl_nil, List.append_nil]
  | cons point list ih =>
      rw [List.flatMap_cons, List.foldl_append,
        foldl_encodePoint (scalars point List.mem_cons_self),
        ih fun other listed => scalars other (List.mem_cons_of_mem point listed), List.append_assoc,
        List.singleton_append]

/-- A well-formed text is read back from its bytes. -/
theorem decodeUtf8_encodeUtf8 {text : List UInt16} (wellFormed : WellFormed text) :
    decodeUtf8 (encodeUtf8 text) = text := by
  obtain ⟨same, scalars⟩ := unitsOf_codePoints wellFormed
  have points : decodePoints (encodeUtf8 text) = codePoints text := by
    unfold decodePoints encodeUtf8
    rw [foldl_encodePoints scalars]
    exact List.nil_append _
  rw [decodeUtf8, points, same]

end Utf8

end Farzin.TextCodecs
