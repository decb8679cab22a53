import Mathlib.Tactic.Ring

/-! Unsigned varints: seven bits to a byte, the lowest first, with the highest bit set on every byte but the
last. The decoder of the `unsigned-varint` crate reads a bounded number of bytes and takes no encoding that could
be shorter; what the protocols need of it is a class, of which it is an instance. -/

namespace RustLibp2p
open List UInt8

namespace Varint

inductive Error where
  | insufficient | overflow | notMinimal
  deriving DecidableEq

def Error.message : Error → String
  | .insufficient => "not enough input bytes"
  | .overflow => "input bytes exceed maximum"
  | .notMinimal => "encoding is not minimal"

/-- The encoding into a buffer of `size` bytes. -/
def encode : Nat → Nat → List UInt8
  | 0, _ => []
  | size + 1, value =>
    if value < 128 then [UInt8.ofNat value]
    else UInt8.ofNat (value % 128 + 128) :: encode size (value / 128)

/-- The bytes from position `index` on, with the value so far; `last` is the last position there may be. -/
def decodeFrom (width last : Nat) : Nat → Nat → List UInt8 → Except Error (Nat × List UInt8)
  | _, _, [] => .error .insufficient
  | index, acc, byte :: bytes =>
    let acc := acc + byte.toNat % 128 * 128 ^ index % 2 ^ width
    if byte < 128 then
      if byte = 0 ∧ 0 < index then .error .notMinimal else .ok (acc, bytes)
    else if index = last then .error .overflow
    else decodeFrom width last (index + 1) acc bytes

variable {value size width last index : Nat} {bytes rest : List UInt8}

theorem ofNat_lt (hv : value < 128) : UInt8.ofNat value < 128 := by
  rw [lt_iff_toNat_lt, toNat_ofNat']
  show value % 256 < 128
  omega

theorem not_ofNat_lt (hl : 128 ≤ value) (hh : value < 256) : ¬ UInt8.ofNat value < 128 := by
  rw [lt_iff_toNat_lt, toNat_ofNat']
  show ¬ value % 256 < 128
  omega

theorem highBit_clear_iff (byte : UInt8) : byte &&& 0x80 = 0 ↔ byte < 128 := by
  have hb : ∀ bits : BitVec 8, bits &&& 128#8 = 0#8 ↔ bits < 128#8 := by decide +kernel
  rw [UInt8.lt_iff_toBitVec_lt, ← UInt8.toBitVec_inj, UInt8.toBitVec_and]
  exact hb byte.toBitVec

theorem toNat_ofNat_of_lt (hv : value < 256) : (UInt8.ofNat value).toNat = value := by
  rw [toNat_ofNat']
  omega

theorem encode_of_lt (hv : value < 128) : encode (size + 1) value = [UInt8.ofNat value] := by
  rw [encode, if_pos hv]

theorem encode_of_le (hv : 128 ≤ value) :
    encode (size + 1) value = UInt8.ofNat (value % 128 + 128) :: encode size (value / 128) := by
  rw [encode, if_neg (by omega)]

theorem encode_length_le (size value : Nat) : (encode size value).length ≤ size := by
  induction size generalizing value with
  | zero => simp [encode]
  | succ size ih =>
    by_cases hv : value < 128
    · simp [encode_of_lt hv]
    · have hr := ih (value / 128)
      rw [encode_of_le (by omega), length_cons]
      omega

theorem div_lt_pow (hv : value < 128 ^ (size + 1)) : value / 128 < 128 ^ size := by
  rw [pow_succ] at hv
  apply Nat.div_lt_of_lt_mul
  rwa [Nat.mul_comm]

theorem encode_of_size_le {size' : Nat} (hpos : 0 < size) (hs : size ≤ size')
    (hv : value < 128 ^ size) : encode size' value = encode size value := by
  induction size generalizing size' value with
  | zero => omega
  | succ size ih =>
    obtain ⟨size', rfl⟩ : ∃ n, size' = n + 1 := ⟨size' - 1, by omega⟩
    by_cases hsm : value < 128
    · rw [encode_of_lt hsm, encode_of_lt hsm]
    have hp : 0 < size := by
      by_contra hz
      obtain rfl : size = 0 := by omega
      omega
    rw [encode_of_le (by omega), encode_of_le (by omega), ih hp (by omega) (div_lt_pow hv)]

theorem digit_split (value index : Nat) :
    value % 128 * 128 ^ index + value / 128 * 128 ^ (index + 1) = value * 128 ^ index := by
  calc value % 128 * 128 ^ index + value / 128 * 128 ^ (index + 1)
      = (value % 128 + 128 * (value / 128)) * 128 ^ index := by
        rw [pow_succ, Nat.add_mul]
        ring
    _ = value * 128 ^ index := by rw [Nat.mod_add_div]

theorem decodeFrom_encode (acc : Nat) (more : List UInt8) (hs : index + size = last + 1) (hpos : 0 < size)
    (hv : value < 128 ^ size) (hf : value * 128 ^ index < 2 ^ width) (hm : 0 < index → 0 < value) :
    decodeFrom width last index acc (encode size value ++ more) = .ok (acc + value * 128 ^ index, more) := by
  induction size generalizing index value acc with
  | zero => omega
  | succ size ih =>
    by_cases hsm : value < 128
    · have hz : ¬ (UInt8.ofNat value = 0 ∧ 0 < index) := by
        rintro ⟨hb, _⟩
        have hn := congrArg UInt8.toNat hb
        rw [toNat_ofNat_of_lt (by omega)] at hn
        simp at hn
        omega
      rw [encode_of_lt hsm, singleton_append, decodeFrom, if_pos (ofNat_lt hsm), if_neg hz,
        toNat_ofNat_of_lt (by omega), Nat.mod_eq_of_lt hsm, Nat.mod_eq_of_lt hf]
    · have hp : 0 < size := by
        by_contra he
        obtain rfl : size = 0 := by omega
        omega
      have hd : value % 128 * 128 ^ index < 2 ^ width :=
        lt_of_le_of_lt (Nat.mul_le_mul_right _ (Nat.mod_le value 128)) hf
      have hr : value / 128 * 128 ^ (index + 1) < 2 ^ width := by
        have hsp := digit_split value index
        omega
      rw [encode_of_le (by omega), cons_append, decodeFrom,
        if_neg (not_ofNat_lt (by omega) (by omega)), if_neg (by omega), toNat_ofNat_of_lt (by omega),
        Nat.add_mod_right, Nat.mod_mod, Nat.mod_eq_of_lt hd,
        ih _ (by omega) hp (div_lt_pow hv) hr (by omega), Nat.add_assoc, digit_split]

theorem decodeFrom_append {acc : Nat} (more : List UInt8)
    (hr : decodeFrom width last index acc bytes ≠ .error .insufficient) :
    decodeFrom width last index acc (bytes ++ more) =
      (decodeFrom width last index acc bytes).map fun out => (out.1, out.2 ++ more) := by
  induction bytes generalizing index acc with
  | nil => exact absurd rfl hr
  | cons byte bytes ih =>
    rw [decodeFrom] at hr
    rw [cons_append, decodeFrom, decodeFrom]
    by_cases hl : byte < 128
    · rw [if_pos hl, if_pos hl]
      split <;> rfl
    rw [if_neg hl] at hr ⊢
    rw [if_neg hl]
    by_cases he : index = last
    · rw [if_pos he, if_pos he]
      rfl
    · rw [if_neg he] at hr ⊢
      rw [if_neg he]
      exact ih hr

theorem decodeFrom_insufficient (hw : decodeFrom width last 0 0 (bytes ++ rest) = .ok (value, [])) (hr : rest ≠ []) :
    decodeFrom width last 0 0 bytes = .error .insufficient := by
  by_contra hre
  rw [decodeFrom_append rest hre] at hw
  cases ho : decodeFrom width last 0 0 bytes with
  | error =>
    rw [ho] at hw
    cases hw
  | ok out =>
    rw [ho] at hw
    have hem : out.2 ++ rest = [] := congrArg Prod.snd (Except.ok.inj hw)
    exact hr (append_eq_nil_iff.1 hem).2

theorem encode_bits (hpos : 0 < size) (hv : value < 128 ^ size) : ∃ front final, encode size value = front ++ [final] ∧
    final &&& 0x80 = 0 ∧ ∀ byte ∈ front, byte &&& 0x80 ≠ 0 := by
  induction size generalizing value with
  | zero => omega
  | succ size ih =>
    by_cases hs : value < 128
    · exact ⟨[], _, encode_of_lt hs, (highBit_clear_iff _).2 (ofNat_lt hs), nofun⟩
    have hp : 0 < size := by
      by_contra he
      obtain rfl : size = 0 := by omega
      omega
    obtain ⟨front, final, he, hf, hb⟩ := ih hp (div_lt_pow hv)
    refine ⟨_ :: front, final, by rw [encode_of_le (by omega), he, cons_append], hf, ?_⟩
    rw [forall_mem_cons]
    exact ⟨fun hc => not_ofNat_lt (by omega) (by omega) ((highBit_clear_iff _).1 hc), hb⟩

theorem decodeFrom_zero_encode (hp : 0 < size) (hs : value < 128 ^ size) (hw : value < 2 ^ width)
    (more : List UInt8) : decodeFrom width (size - 1) 0 0 (encode size value ++ more) = .ok (value, more) := by
  have hr := decodeFrom_encode 0 more (show 0 + size = size - 1 + 1 by omega) hp hs (by simpa) (by omega)
  rwa [pow_zero, Nat.mul_one, Nat.zero_add] at hr

theorem decode16_encode (hv : value < 2 ^ 16) : decodeFrom 16 2 0 0 (encode 3 value) = .ok (value, []) := by
  have hr := decodeFrom_zero_encode (show 0 < 3 by decide) (by omega) hv []
  rwa [append_nil] at hr

theorem encode16_length (hv : value < 2 ^ 14) : (encode 3 value).length ≤ 2 := by
  rw [encode_of_size_le (show 0 < 2 by decide) (by decide) (by omega)]
  exact encode_length_le 2 value

theorem encode16_bits (hv : value < 2 ^ 16) : ∃ front final, encode 3 value = front ++ [final] ∧
    final &&& 0x80 = 0 ∧ ∀ byte ∈ front, byte &&& 0x80 ≠ 0 := encode_bits (by decide) (by omega)

theorem encode_ne_nil (size value : Nat) : encode (size + 1) value ≠ [] := by
  unfold encode
  split <;> exact cons_ne_nil _ _

theorem decode64_encode (hv : value < 2 ^ 64) (more : List UInt8) :
    decodeFrom 64 9 0 0 (encode 10 value ++ more) = .ok (value, more) :=
  decodeFrom_zero_encode (show 0 < 10 by decide) (by omega) hv more

theorem decode64_insufficient (hv : value < 2 ^ 64) (hs : encode 10 value = bytes ++ rest) (hr : rest ≠ []) :
    decodeFrom 64 9 0 0 bytes = .error .insufficient := by
  have hw := decode64_encode hv []
  rw [append_nil, hs] at hw
  exact decodeFrom_insufficient hw hr

end Varint

/-- What is relied on of the crate: numbers are read back as they were written, whatever follows them, a reader with
a part of one asks for more, and the highest bit tells the last byte. -/
class UnsignedVarint where
  encodeU16 : Nat → List UInt8
  decodeU16 : List UInt8 → Except Varint.Error (Nat × List UInt8)
  encodeU64 : Nat → List UInt8
  decodeU64 : List UInt8 → Except Varint.Error (Nat × List UInt8)
  decodeU16_encodeU16 : ∀ {value : Nat}, value < 2 ^ 16 → decodeU16 (encodeU16 value) = .ok (value, [])
  encodeU16_length : ∀ {value : Nat}, value < 2 ^ 14 → (encodeU16 value).length ≤ 2
  encodeU16_bits : ∀ {value : Nat}, value < 2 ^ 16 → ∃ front last, encodeU16 value = front ++ [last] ∧
    last &&& 0x80 = 0 ∧ ∀ byte ∈ front, byte &&& 0x80 ≠ 0
  encodeU16_ne_nil : ∀ value, encodeU16 value ≠ []
  encodeU64_ne_nil : ∀ value, encodeU64 value ≠ []
  decodeU64_encodeU64 : ∀ {value : Nat}, value < 2 ^ 64 → ∀ more,
    decodeU64 (encodeU64 value ++ more) = .ok (value, more)
  decodeU64_insufficient : ∀ {value : Nat} {bytes rest : List UInt8}, value < 2 ^ 64 →
    encodeU64 value = bytes ++ rest → rest ≠ [] → decodeU64 bytes = .error .insufficient

/-- The crate itself. -/
instance unsignedVarint : UnsignedVarint where
  encodeU16 := Varint.encode 3
  decodeU16 := Varint.decodeFrom 16 2 0 0
  encodeU64 := Varint.encode 10
  decodeU64 := Varint.decodeFrom 64 9 0 0
  decodeU16_encodeU16 := Varint.decode16_encode
  encodeU16_length := Varint.encode16_length
  encodeU16_bits := Varint.encode16_bits
  encodeU16_ne_nil := Varint.encode_ne_nil 2
  encodeU64_ne_nil := Varint.encode_ne_nil 9
  decodeU64_encodeU64 := Varint.decode64_encode
  decodeU64_insufficient := Varint.decode64_insufficient

namespace UnsignedVarint

variable [UnsignedVarint]

/-- A `usize` has 64 bits. -/
def encodeUsize (value : Nat) : List UInt8 := encodeU64 value

def decodeUsize (bytes : List UInt8) : Except Varint.Error (Nat × List UInt8) := decodeU64 bytes

theorem decodeU64_nil : decodeU64 [] = .error .insufficient :=
  decodeU64_insufficient (show 0 < 2 ^ 64 by decide) rfl (encodeU64_ne_nil 0)

variable {value : Nat} (hv : value < 2 ^ 64) {rest : List UInt8}
include hv

/-- A number at the front of a stream: all of it has arrived, or the decoder asks for more. -/
theorem decodeU64_arrived {src fut : List UInt8} (hb : src ++ fut = encodeU64 value ++ rest) :
    (∃ src', src = encodeU64 value ++ src' ∧ src' ++ fut = rest) ∨
      decodeU64 src = .error .insufficient ∧ src.length < (encodeU64 value).length := by
  rcases append_eq_append_iff.1 hb with ⟨missing, hva, hf⟩ | ⟨src', hs, hr⟩
  · by_cases hm : missing = []
    · subst hm
      exact .inl ⟨[], by rw [append_nil, hva, append_nil], hf⟩
    have hpos := length_pos_iff.2 hm
    refine .inr ⟨decodeU64_insufficient hv hva hm, ?_⟩
    rw [hva, length_append]
    omega
  · exact .inl ⟨src', hs, hr.symm⟩

theorem decodeUsize_encodeUsize (more : List UInt8) :
    decodeUsize (encodeUsize value ++ more) = .ok (value, more) := decodeU64_encodeU64 hv more

end UnsignedVarint
end RustLibp2p
