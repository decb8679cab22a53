import RustLibp2p.Bytes
import Mathlib.Data.List.Basic
import Mathlib.Data.List.TakeWhile

/-! Texts on their way between Rust strings and C strings, and decimal numbers in C strings. A C string is the list of
its bytes without the NUL that ends it. -/

namespace RustLibp2p.CText

open Bytes List

/-- The C string that a buffer holds. -/
def cStr (buffer : List UInt8) : List UInt8 := buffer.takeWhile (· ≠ 0)

/-- `CString::new`: a text with a NUL in it has no C form. -/
def cStringNew (text : String) : Option (List UInt8) := if 0 ∈ utf8Bytes text then none else some (utf8Bytes text)

theorem cStr_eq_self {bytes : List UInt8} (hn : 0 ∉ bytes) : cStr bytes = bytes := by
  rw [cStr, takeWhile_eq_self_iff]
  intro byte hb
  simpa using fun heq : byte = 0 => hn (heq ▸ hb)

theorem zero_notMem_cStr (buffer : List UInt8) : 0 ∉ cStr buffer := by
  intro hmem
  simpa using mem_takeWhile_imp hmem

/-- What is expected behind the bytes of a UTF-8 sequence: their bits, how many more there are and the
range of the next. -/
structure Utf8Seq where
  value : Nat
  need : Nat
  low : UInt8
  high : UInt8

inductive Utf8Lead where
  | char (value : Char)
  | seq (start : Utf8Seq)
  | invalid

def Utf8Lead.ofByte (byte : UInt8) : Utf8Lead :=
  if byte < 0x80 then .char (Char.ofNat byte.toNat)
  else if byte < 0xc2 then .invalid
  else if byte ≤ 0xdf then .seq ⟨byte.toNat - 0xc0, 1, 0x80, 0xbf⟩
  else if byte = 0xe0 then .seq ⟨0, 2, 0xa0, 0xbf⟩
  else if byte = 0xed then .seq ⟨0xd, 2, 0x80, 0x9f⟩
  else if byte ≤ 0xef then .seq ⟨byte.toNat - 0xe0, 2, 0x80, 0xbf⟩
  else if byte = 0xf0 then .seq ⟨0, 3, 0x90, 0xbf⟩
  else if byte ≤ 0xf3 then .seq ⟨byte.toNat - 0xf0, 3, 0x80, 0xbf⟩
  else if byte = 0xf4 then .seq ⟨4, 3, 0x80, 0x8f⟩
  else .invalid

def replacement : Char := Char.ofNat 0xfffd

/-- Decoding that puts the replacement character in the place of every sequence that is broken off. -/
def lossyChars : Option Utf8Seq → List UInt8 → List Char
  | none, [] => []
  | some _, [] => [replacement]
  | pending, byte :: bytes =>
    match pending.filter fun seq => seq.low ≤ byte && byte ≤ seq.high with
    | some seq =>
      let value := seq.value * 64 + byte.toNat % 64
      if seq.need = 1 then Char.ofNat value :: lossyChars none bytes
      else lossyChars (some ⟨value, seq.need - 1, 0x80, 0xbf⟩) bytes
    | none =>
      -- the byte does not belong to the sequence before it and is read as the start of the next one
      let broken := if pending.isSome then [replacement] else []
      match Utf8Lead.ofByte byte with
      | .char value => broken ++ value :: lossyChars none bytes
      | .seq start => broken ++ lossyChars (some start) bytes
      | .invalid => broken ++ replacement :: lossyChars none bytes

def toStringLossy (bytes : List UInt8) : String :=
  match fromUtf8 bytes with
  | some text => text
  | none => String.ofList (lossyChars none bytes)

@[simp] theorem toStringLossy_utf8Bytes (text : String) : toStringLossy (utf8Bytes text) = text := by
  rw [toStringLossy, fromUtf8_utf8Bytes]

example : toStringLossy [0x61, 0xe2, 0x82, 0xff, 0xe2, 0x82, 0xac, 0xf0] =
    String.ofList ['a', replacement, replacement, '€', replacement] := by decide +kernel

def digitBytes (value : Nat) : List UInt8 := (Nat.toDigits 10 value).map fun digit => UInt8.ofNat digit.toNat

def isDigitByte (byte : UInt8) : Bool := 48 ≤ byte && byte ≤ 57

/-- The number that the digits in front of `bytes` denote, zero where there are none. -/
def readDigits (bytes : List UInt8) : Nat :=
  (bytes.takeWhile isDigitByte).foldl (fun acc byte => 10 * acc + (byte.toNat - 48)) 0

theorem isDigitByte_ofNat {digit : Char} (hd : digit.isDigit) :
    isDigitByte (UInt8.ofNat digit.toNat) ∧ (UInt8.ofNat digit.toNat).toNat = digit.toNat := by
  have hr : 48 ≤ digit.toNat ∧ digit.toNat ≤ 57 := by simpa [Char.isDigit, UInt32.le_iff_toNat_le] using hd
  have hb : (UInt8.ofNat digit.toNat).toNat = digit.toNat := by
    rw [UInt8.toNat_ofNat']
    omega
  constructor
  · simp only [isDigitByte, UInt8.le_iff_toNat_le, hb, Bool.and_eq_true, decide_eq_true_eq]
    exact hr
  · exact hb

variable {byte : UInt8}

theorem isDigitByte_of_mem_digitBytes {v : Nat} (hb : byte ∈ digitBytes v) : isDigitByte byte := by
  obtain ⟨_, hd, rfl⟩ := mem_map.1 hb
  exact (isDigitByte_ofNat (Nat.isDigit_of_mem_toDigits (by omega) (by omega) hd)).1

theorem readDigits_digitBytes (value : Nat) : readDigits (digitBytes value) = value := by
  have hall : (digitBytes value).takeWhile isDigitByte = digitBytes value :=
    takeWhile_eq_self_iff.2 fun byte hb => isDigitByte_of_mem_digitBytes hb
  have hd : ∀ digit ∈ Nat.toDigits 10 value, (UInt8.ofNat digit.toNat).toNat = digit.toNat :=
    fun digit hd => (isDigitByte_ofNat (Nat.isDigit_of_mem_toDigits (by omega) (by omega) hd)).2
  calc readDigits (digitBytes value) = (Nat.toDigits 10 value).foldl
          (fun acc digit => 10 * acc + ((UInt8.ofNat digit.toNat).toNat - 48)) 0 := by
        rw [readDigits, hall, digitBytes, foldl_map]
    _ = (Nat.toDigits 10 value).foldl (fun acc digit => 10 * acc + (digit.toNat - 48)) 0 :=
        foldl_ext _ _ _ fun acc digit hmem => by rw [hd digit hmem]
    _ = Nat.ofDigitChars 10 (Nat.toDigits 10 value) 0 := Nat.ofDigitChars_eq_foldl.symm
    _ = value := Nat.ofDigitChars_ten_toDigits

/-- What `%d` prints. -/
def formatInt (value : Int32) : List UInt8 :=
  if value.toInt < 0 then 45 :: digitBytes value.toInt.natAbs else digitBytes value.toInt.natAbs

def isSpace (byte : UInt8) : Bool := byte == 32 || (9 ≤ byte && byte ≤ 13)

/-- A number with an optional sign. -/
def readSigned (text : List UInt8) : Int :=
  if text.head? = some 45 then -(readDigits text.tail : Int)
  else if text.head? = some 43 then readDigits text.tail
  else readDigits text

/-- `atoi`, with the nearest bound for a number that an `int` cannot hold. -/
def atoi (text : List UInt8) : Int32 :=
  Int32.ofInt (max (-2 ^ 31) (min (2 ^ 31 - 1) (readSigned (text.dropWhile isSpace))))

theorem exists_digitBytes (v : Nat) : ∃ digit rest, digitBytes v = digit :: rest ∧ isDigitByte digit := by
  cases hb : digitBytes v with
  | nil => exact absurd hb (by simp [digitBytes])
  | cons digit rest => exact ⟨digit, rest, rfl, isDigitByte_of_mem_digitBytes (hb ▸ mem_cons_self)⟩

theorem isSpace_of_isDigitByte (hb : isDigitByte byte) : isSpace byte = false := by
  simp only [isDigitByte, isSpace, UInt8.le_iff_toNat_le, Bool.and_eq_true, decide_eq_true_eq] at hb ⊢
  have hne : byte ≠ 32 := by
    rintro rfl
    exact absurd hb.1 (by decide)
  have hl : (48 : UInt8).toNat = 48 := rfl
  simp [hne]
  omega

theorem dropWhile_formatInt (value : Int32) : (formatInt value).dropWhile isSpace = formatInt value := by
  obtain ⟨_, _, hb, hd⟩ := exists_digitBytes value.toInt.natAbs
  rw [formatInt]
  split_ifs
  · rw [dropWhile_cons_of_neg (by decide)]
  · rw [hb, dropWhile_cons_of_neg (by simp [isSpace_of_isDigitByte hd])]

theorem readSigned_formatInt (v : Int32) : readSigned (formatInt v) = v.toInt := by
  obtain ⟨_, _, hb, hd⟩ := exists_digitBytes v.toInt.natAbs
  rw [formatInt]
  split_ifs with hn
  · rw [readSigned, head?_cons, if_pos rfl, tail_cons, readDigits_digitBytes]
    omega
  have hm : (digitBytes v.toInt.natAbs).head? ≠ some 45 := by
    rw [hb]
    rintro ⟨⟩
    exact absurd hd (by decide)
  have hp : (digitBytes v.toInt.natAbs).head? ≠ some 43 := by
    rw [hb]
    rintro ⟨⟩
    exact absurd hd (by decide)
  rw [readSigned, if_neg hm, if_neg hp, readDigits_digitBytes]
  omega

@[simp] theorem atoi_formatInt (value : Int32) : atoi (formatInt value) = value := by
  have hl := value.le_toInt
  have hh := value.toInt_lt
  rw [atoi, dropWhile_formatInt, readSigned_formatInt, min_eq_right (by omega), max_eq_right (by omega)]
  exact Int32.ofInt_toInt value

theorem notMem_formatInt (hs : byte ≠ 45) (hd : isDigitByte byte = false) (value : Int32) :
    byte ∉ formatInt value := by
  have hdi : byte ∉ digitBytes value.toInt.natAbs := by
    intro hmem
    rw [isDigitByte_of_mem_digitBytes hmem] at hd
    cases hd
  rw [formatInt]
  split_ifs
  · rw [mem_cons]
    exact not_or.2 ⟨hs, hdi⟩
  · exact hdi

theorem length_formatInt_le (v : Int32) : (formatInt v).length ≤ 11 := by
  have hl := v.le_toInt
  have hh := v.toInt_lt
  have hd : (digitBytes v.toInt.natAbs).length ≤ 10 := by
    rw [digitBytes, length_map]
    exact (Nat.length_toDigits_le_iff (by omega) (by omega)).2 (by omega)
  rw [formatInt]
  split_ifs
  · rw [length_cons]
    omega
  · omega

end RustLibp2p.CText
