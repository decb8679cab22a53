import Mathlib.Tactic.Ring

/-! Big-endian byte strings of fixed width, the layout of every integer field on the wire, and the
UTF-8 bytes of a text. -/

namespace RustLibp2p.Bytes

/-- The `width` low-order bytes of `value`, most significant byte first. -/
def beBytes : Nat → Nat → List UInt8
  | 0, _ => []
  | width + 1, value => UInt8.ofNat (value / 256 ^ width) :: beBytes width value

/-- The integer a big-endian byte string denotes, on top of the bytes already read. -/
def accBe (acc : Nat) (bytes : List UInt8) : Nat := bytes.foldl (fun acc byte => acc * 256 + byte.toNat) acc

def fromBeBytes (bytes : List UInt8) : Nat := accBe 0 bytes

@[simp] theorem beBytes_length (width v : Nat) : (beBytes width v).length = width := by
  induction width with
  | zero => rfl
  | succ width ih => simp [beBytes, ih]

theorem mod_pow_succ_split (v width : Nat) :
    v % 256 ^ (width + 1) = v / 256 ^ width % 256 * 256 ^ width + v % 256 ^ width := by
  rw [pow_succ, Nat.mod_mul, Nat.add_comm, Nat.mul_comm]

theorem accBe_beBytes (width v acc : Nat) :
    accBe acc (beBytes width v) = acc * 256 ^ width + v % 256 ^ width := by
  induction width generalizing acc with
  | zero => simp [beBytes, accBe, Nat.mod_one]
  | succ width ih =>
    have hs : accBe acc (beBytes (width + 1) v) = accBe (acc * 256 + v / 256 ^ width % 256) (beBytes width v) := by
      simp [beBytes, accBe]
    rw [hs, ih, mod_pow_succ_split]
    ring

theorem fromBeBytes_beBytes (width v : Nat) : fromBeBytes (beBytes width v) = v % 256 ^ width := by
  rw [fromBeBytes, accBe_beBytes, Nat.zero_mul, Nat.zero_add]

theorem fromBeBytes_beBytes_of_lt {width value : Nat} (hf : value < 256 ^ width) :
    fromBeBytes (beBytes width value) = value := by
  rw [fromBeBytes_beBytes, Nat.mod_eq_of_lt hf]

theorem accBe_eq (acc : Nat) (bytes : List UInt8) : accBe acc bytes = acc * 256 ^ bytes.length + fromBeBytes bytes := by
  induction bytes generalizing acc with
  | nil => simp [accBe, fromBeBytes]
  | cons byte bytes ih =>
    calc accBe acc (byte :: bytes) = accBe (acc * 256 + byte.toNat) bytes := rfl
      _ = (acc * 256 + byte.toNat) * 256 ^ bytes.length + fromBeBytes bytes := ih _
      _ = acc * 256 ^ (bytes.length + 1) + (byte.toNat * 256 ^ bytes.length + fromBeBytes bytes) := by
          rw [pow_succ]
          ring
      _ = acc * 256 ^ (bytes.length + 1) + accBe byte.toNat bytes := by rw [ih byte.toNat]
      _ = acc * 256 ^ (byte :: bytes).length + fromBeBytes (byte :: bytes) := by simp [fromBeBytes, accBe]

theorem fromBeBytes_cons (byte : UInt8) (bytes : List UInt8) :
    fromBeBytes (byte :: bytes) = byte.toNat * 256 ^ bytes.length + fromBeBytes bytes := by
  have ha := accBe_eq byte.toNat bytes
  rwa [show accBe byte.toNat bytes = fromBeBytes (byte :: bytes) by simp [fromBeBytes, accBe]] at ha

theorem fromBeBytes_lt (bs : List UInt8) : fromBeBytes bs < 256 ^ bs.length := by
  induction bs with
  | nil => exact Nat.one_pos
  | cons byte bs =>
    have hb := byte.toNat_lt
    rw [fromBeBytes_cons, List.length_cons, pow_succ]
    calc byte.toNat * 256 ^ bs.length + fromBeBytes bs < byte.toNat * 256 ^ bs.length + 256 ^ bs.length := by omega
      _ = (byte.toNat + 1) * 256 ^ bs.length := by ring
      _ ≤ 256 * 256 ^ bs.length := Nat.mul_le_mul_right _ (by omega)
      _ = 256 ^ bs.length * 256 := Nat.mul_comm _ _

theorem beBytes_add_mul (width high value : Nat) :
    beBytes width (high * 256 ^ width + value) = beBytes width value := by
  induction width generalizing high with
  | zero => rfl
  | succ width ih =>
    have hs : high * 256 ^ (width + 1) + value = high * 256 * 256 ^ width + value := by
      rw [pow_succ]
      ring
    have hpos : 0 < 256 ^ width := Nat.pow_pos (by decide)
    rw [beBytes, beBytes, hs, ih, Nat.add_comm, Nat.add_mul_div_right _ _ hpos]
    congr 1
    apply UInt8.toNat.inj
    rw [UInt8.toNat_ofNat', UInt8.toNat_ofNat']
    omega

theorem beBytes_fromBeBytes (bytes : List UInt8) : beBytes bytes.length (fromBeBytes bytes) = bytes := by
  induction bytes with
  | nil => rfl
  | cons byte bytes ih =>
    have hpos : 0 < 256 ^ bytes.length := Nat.pow_pos (by decide)
    rw [List.length_cons, beBytes, fromBeBytes_cons, beBytes_add_mul, ih, Nat.add_comm,
      Nat.add_mul_div_right _ _ hpos, Nat.div_eq_of_lt (fromBeBytes_lt bytes), Nat.zero_add,
      UInt8.ofNat_toNat]

def utf8Bytes (text : String) : List UInt8 := text.toByteArray.data.toList

/-- The text with these UTF-8 bytes, if they are valid UTF-8. -/
def fromUtf8 (bytes : List UInt8) : Option String := String.fromUTF8? ⟨bytes.toArray⟩

@[simp] theorem fromUtf8_utf8Bytes (text : String) : fromUtf8 (utf8Bytes text) = some text := by
  have hb : (⟨(utf8Bytes text).toArray⟩ : ByteArray) = text.toByteArray := by rw [utf8Bytes, Array.toArray_toList]
  rw [fromUtf8, hb, String.fromUTF8?, dif_pos text.isValidUTF8]
  rfl

theorem utf8Bytes_of_fromUtf8 {bytes : List UInt8} {text : String}
    (ht : fromUtf8 bytes = some text) : utf8Bytes text = bytes := by
  rw [fromUtf8, String.fromUTF8?] at ht
  split at ht
  · cases ht
    rfl
  · cases ht

theorem utf8Bytes_injective {first second : String} (heq : utf8Bytes first = utf8Bytes second) : first = second := by
  apply Option.some.inj
  calc some first = fromUtf8 (utf8Bytes first) := (fromUtf8_utf8Bytes first).symm
    _ = fromUtf8 (utf8Bytes second) := by rw [heq]
    _ = some second := fromUtf8_utf8Bytes second

/-- Where a text goes on after another one, a character begins. -/
theorem isUTF8FirstByte_of_append {first second : String} {byte : UInt8} {rest : List UInt8}
    (heq : utf8Bytes second = utf8Bytes first ++ byte :: rest) : byte.IsUTF8FirstByte := by
  have hs : second.toByteArray = first.toByteArray ++ ⟨(byte :: rest).toArray⟩ := by
    apply ByteArray.ext
    apply Array.toList_inj.1
    simpa [utf8Bytes] using heq
  have hsize : second.toByteArray.size = first.toByteArray.size + (rest.length + 1) := by
    rw [hs, ByteArray.size_append]
    rfl
  have hv : first.rawEndPos.IsValid second := by
    rw [String.Pos.Raw.isValid_iff_isValidUTF8_extract_zero]
    refine ⟨?_, ?_⟩
    · rw [String.Pos.Raw.le_iff]
      show first.toByteArray.size ≤ second.toByteArray.size
      omega
    · have he : second.toByteArray.extract 0 first.rawEndPos.byteIdx = first.toByteArray := by
        rw [hs]
        exact ByteArray.extract_append_eq_left rfl
      rw [he]
      exact first.isValidUTF8
  rcases String.Pos.Raw.isValid_iff_isUTF8FirstByte.1 hv with hend | ⟨hlt, hb⟩
  · have hidx : first.toByteArray.size = second.toByteArray.size := congrArg String.Pos.Raw.byteIdx hend
    omega
  · have hg : second.getUTF8Byte first.rawEndPos hlt = byte := by
      have hat : (utf8Bytes second)[(utf8Bytes first).length]? = some byte := by simp [heq]
      have hi : (utf8Bytes second)[first.toByteArray.size]? = some (second.getUTF8Byte first.rawEndPos hlt) :=
        List.getElem?_eq_getElem hlt
      exact Option.some.inj (hi.symm.trans hat)
    rwa [hg] at hb

end RustLibp2p.Bytes
