import RustLibp2p.Bytes
import RustLibp2p.Parsing
import RustLibp2p.Varint

/-! The protobuf wire format as the `prost` crate reads and writes it. A reader merges the fields into a
record one by one and passes over those that it does not know. -/

namespace RustLibp2p
open Varint Parsing Bytes List Reads

namespace Protobuf

inductive WireType where
  | varint | sixtyFourBit | lengthDelimited | startGroup | endGroup | thirtyTwoBit
  deriving DecidableEq

def WireType.code : WireType → Nat
  | .varint => 0
  | .sixtyFourBit => 1
  | .lengthDelimited => 2
  | .startGroup => 3
  | .endGroup => 4
  | .thirtyTwoBit => 5

def WireType.ofCode : Nat → Option WireType
  | 0 => some .varint
  | 1 => some .sixtyFourBit
  | 2 => some .lengthDelimited
  | 3 => some .startGroup
  | 4 => some .endGroup
  | 5 => some .thirtyTwoBit
  | _ => none

inductive DecodeError where
  | invalidVarint
  | invalidKey (key : Nat)
  | invalidWireType (code : Nat)
  | invalidTag
  | unexpectedWireType (actual expected : WireType)
  | bufferUnderflow
  | delimitedLengthExceeded
  | unexpectedEndGroup
  | recursionLimitReached
  | notUtf8
  deriving DecidableEq

abbrev Reader (α : Type) := Parser DecodeError UInt8 α

/-- The bytes of a number from position `index` on, with the value so far. There may be ten of them, the last
with a single bit; that a shorter encoding exists is no error. -/
def decodeVarintFrom : Nat → Nat → List UInt8 → Except DecodeError (Nat × List UInt8)
  | _, _, [] => .error .invalidVarint
  | index, acc, byte :: bytes =>
    let acc := acc + byte.toNat % 128 * 128 ^ index
    if byte < 128 then
      if index = 9 ∧ 2 ≤ byte then .error .invalidVarint else .ok (acc, bytes)
    else if index = 9 then .error .invalidVarint
    else decodeVarintFrom (index + 1) acc bytes

theorem decodeVarintFrom_encode {idx size value : Nat} (acc : Nat) (more : List UInt8) (hs : idx + size = 10)
    (hpos : 0 < size) (hv : value < 128 ^ size) (hf : value * 128 ^ idx < 2 ^ 64) :
    decodeVarintFrom idx acc (encode size value ++ more) = .ok (acc + value * 128 ^ idx, more) := by
  induction size generalizing idx value acc with
  | zero => omega
  | succ size ih =>
    by_cases hsm : value < 128
    · have hl : ¬ (idx = 9 ∧ 2 ≤ UInt8.ofNat value) := by
        rintro ⟨rfl, hb⟩
        rw [UInt8.le_iff_toNat_le, toNat_ofNat_of_lt (by omega)] at hb
        have ht : 2 ≤ value := hb
        omega
      rw [encode_of_lt hsm, singleton_append, decodeVarintFrom, if_pos (ofNat_lt hsm), if_neg hl,
        toNat_ofNat_of_lt (by omega), Nat.mod_eq_of_lt hsm]
    · have hp : 0 < size := by
        by_contra he
        obtain rfl : size = 0 := by omega
        omega
      have hr : value / 128 * 128 ^ (idx + 1) < 2 ^ 64 := by
        have hsp := digit_split value idx
        omega
      rw [encode_of_le (by omega), cons_append, decodeVarintFrom,
        if_neg (not_ofNat_lt (by omega) (by omega)), if_neg (by omega), toNat_ofNat_of_lt (by omega),
        Nat.add_mod_right, Nat.mod_mod, ih _ (by omega) hp (div_lt_pow hv) hr, Nat.add_assoc,
        digit_split]

theorem reads_decodeVarintFrom {value : Nat} (hv : value < 2 ^ 64) :
    Reads (decodeVarintFrom 0 0) (encode 10 value) value := by
  intro more
  have hread := decodeVarintFrom_encode 0 more (show 0 + 10 = 10 from rfl) (by omega)
    (show value < 128 ^ 10 by omega) (show value * 128 ^ 0 < 2 ^ 64 by omega)
  rwa [pow_zero, Nat.mul_one, Nat.zero_add] at hread

theorem length_encode_of_lt {value : Nat} (hv : value < 128) : (encode 10 value).length = 1 := by
  rw [encode_of_lt hv, length_singleton]

end Protobuf

/-- What is relied on of the crate's numbers: they are read back as they were written, whatever follows them, and
the small ones take one byte. -/
class Prost where
  encodeVarint : Nat → List UInt8
  decodeVarint : Protobuf.Reader Nat
  reads_decodeVarint : ∀ {value : Nat}, value < 2 ^ 64 → Reads decodeVarint (encodeVarint value) value
  length_encodeVarint : ∀ {value : Nat}, value < 128 → (encodeVarint value).length = 1

/-- The crate itself. -/
instance prost : Prost where
  encodeVarint := encode 10
  decodeVarint := Protobuf.decodeVarintFrom 0 0
  reads_decodeVarint := Protobuf.reads_decodeVarintFrom
  length_encodeVarint := Protobuf.length_encode_of_lt

namespace Protobuf
open Prost

variable [Prost]

def IsTag (tag : Nat) : Prop := 0 < tag ∧ tag < 2 ^ 29

instance (tag : Nat) : Decidable (IsTag tag) := inferInstanceAs (Decidable (_ ∧ _))

def encodeKey (tag : Nat) (wireType : WireType) : List UInt8 := encodeVarint (tag * 8 + wireType.code)

/-- The number of a field and the form of its value. -/
def splitKey (key : Nat) : Reader (Nat × WireType) :=
  if 2 ^ 32 ≤ key then throw (.invalidKey key)
  else
    match WireType.ofCode (key % 8) with
    | none => throw (.invalidWireType (key % 8))
    | some wireType => if key / 8 = 0 then throw .invalidTag else return (key / 8, wireType)

def decodeKey : Reader (Nat × WireType) := decodeVarint >>= splitKey

def checkWireType (expected actual : WireType) : Reader Unit :=
  if actual = expected then return else throw (.unexpectedWireType actual expected)

def take (len : Nat) : Reader (List UInt8) := fun buf =>
  if buf.length < len then .error .bufferUnderflow else .ok (buf.take len, buf.drop len)

def readBytes (wireType : WireType) : Reader (List UInt8) := do
  checkWireType .lengthDelimited wireType
  take (← decodeVarint)

def textOf (bytes : List UInt8) : Reader String :=
  match fromUtf8 bytes with
  | some text => return text
  | none => throw .notUtf8

def readString (wireType : WireType) : Reader String := readBytes wireType >>= textOf

def readUint64 (wireType : WireType) : Reader UInt64 := do
  checkWireType .varint wireType
  UInt64.ofNat <$> decodeVarint

def readBool (wireType : WireType) : Reader Bool := do
  checkWireType .varint wireType
  (fun value => value ≠ 0) <$> decodeVarint

def encodeBytes (tag : Nat) (value : List UInt8) : List UInt8 :=
  encodeKey tag .lengthDelimited ++ (encodeVarint value.length ++ value)

def encodeString (tag : Nat) (value : String) : List UInt8 := encodeBytes tag (utf8Bytes value)

def encodeUint64 (tag : Nat) (value : UInt64) : List UInt8 := encodeKey tag .varint ++ encodeVarint value.toNat

def encodeBool (tag : Nat) (value : Bool) : List UInt8 := encodeKey tag .varint ++ encodeVarint value.toNat

/-- A field that is left out where there is no value. -/
def encodeOptional {β : Type} (encode : β → List UInt8) (value : Option β) : List UInt8 := value.elim [] encode

/-! ### Fields that are passed over -/

/-- The fields up to the end of the group `tag`. The fuel bounds their number. -/
def skipGroup (skip : WireType → Nat → Reader Unit) (tag : Nat) : Nat → Reader Unit
  | 0 => throw .invalidVarint
  | fuel + 1 => do
      let (innerTag, innerType) ← decodeKey
      if innerType = .endGroup then
        if innerTag = tag then return else throw .unexpectedEndGroup
      else
        skip innerType innerTag
        skipGroup skip tag fuel

/-- The value of a field of any form. Groups may lie `depth` deep. -/
def skipField : Nat → WireType → Nat → Reader Unit
  | 0, _, _ => throw .recursionLimitReached
  | depth + 1, wireType, tag => do
      let len ← match wireType with
        | .varint => (fun _ => 0) <$> decodeVarint
        | .thirtyTwoBit => pure 4
        | .sixtyFourBit => pure 8
        | .lengthDelimited => decodeVarint
        | .startGroup => do
            skipGroup (skipField depth) tag (← get).length
            pure 0
        | .endGroup => throw .unexpectedEndGroup
      let _ ← take len

section Records

variable {α β : Type} (merge : α → Nat → WireType → Reader α)

/-- Fields are merged until `limit` bytes are left. A field that took more than there were is an error. -/
def mergeLoop (limit : Nat) : Nat → α → Reader α
  | 0, acc => return acc
  | fuel + 1, acc => fun buf =>
    if limit < buf.length then
      (do let (tag, wireType) ← decodeKey
          mergeLoop limit fuel (← merge acc tag wireType)).run buf
    else if buf.length = limit then .ok (acc, buf)
    else .error .delimitedLengthExceeded

def decode (empty : α) (bytes : List UInt8) : Except DecodeError α :=
  Prod.fst <$> (mergeLoop merge 0 (bytes.length + 1) empty).run bytes

/-- The fields of the next `len` bytes. -/
def mergeDelimited (acc : α) (len : Nat) : Reader α := fun buf =>
  if buf.length < len then .error .bufferUnderflow
  else (mergeLoop merge (buf.length - len) (buf.length + 1) acc).run buf

def readMessage (depth : Nat) (acc : α) (wireType : WireType) : Reader α := do
  checkWireType .lengthDelimited wireType
  if depth = 0 then throw .recursionLimitReached else mergeDelimited merge acc (← decodeVarint)

/-- The bytes are fields that take the one record to the other. -/
inductive Merges : α → List UInt8 → α → Prop where
  | nil (acc : α) : Merges acc [] acc
  | field {acc next result : α} {tag : Nat} {wireType : WireType} {key value bytes : List UInt8}
      (hkey : Reads decodeKey key (tag, wireType)) (hvalue : Reads (merge acc tag wireType) value next)
      (hrest : Merges next bytes result) : Merges acc (key ++ (value ++ bytes)) result

end Records

omit [Prost] in
theorem ofCode_code (wireType : WireType) : WireType.ofCode wireType.code = some wireType := by cases wireType <;> rfl

omit [Prost] in
theorem code_lt (wireType : WireType) : wireType.code < 8 := by cases wireType <;> decide

variable {tag : Nat}

omit [Prost] in
theorem reads_splitKey (wireType : WireType) (htag : IsTag tag) :
    Reads (splitKey (tag * 8 + wireType.code)) [] (tag, wireType) := by
  intro _
  obtain ⟨_, _⟩ := htag
  have hc := code_lt wireType
  have hm : (tag * 8 + wireType.code) % 8 = wireType.code := by omega
  have hd : (tag * 8 + wireType.code) / 8 = tag := by omega
  unfold splitKey
  rw [if_neg (by omega), hm, ofCode_code, hd]
  dsimp only
  rw [if_neg (by omega)]
  rfl

theorem reads_decodeKey (wireType : WireType) (htag : IsTag tag) :
    Reads decodeKey (encodeKey tag wireType) (tag, wireType) := by
  have hc := code_lt wireType
  have hs := htag.2
  exact bind_check (reads_decodeVarint (by omega)) (reads_splitKey wireType htag)

theorem encodeKey_ne_nil {tag : Nat} (wireType : WireType) (htag : tag < 16) : encodeKey tag wireType ≠ [] := by
  intro hnil
  have hc := code_lt wireType
  have hlen : (encodeKey tag wireType).length = 1 := length_encodeVarint (by omega)
  rw [hnil] at hlen
  cases hlen

theorem not_reads_decodeKey_nil (key : Nat × WireType) : ¬ Reads decodeKey [] key := by
  intro hread
  have hr := reads_decodeKey .varint (show IsTag 1 by decide) []
  rw [← nil_append (encodeKey 1 .varint ++ []), hread] at hr
  have hnil := congrArg Prod.snd (Except.ok.inj hr)
  rw [append_nil] at hnil
  exact encodeKey_ne_nil .varint (by decide) hnil

omit [Prost] in
theorem reads_take (value : List UInt8) : Reads (take value.length) value value := by
  intro more
  have hlen : ¬ (value ++ more).length < value.length := by
    rw [length_append]
    omega
  show (if _ then _ else _) = _
  rw [if_neg hlen, take_left, drop_left]

omit [Prost] in
theorem reads_checkWireType (wireType : WireType) : Reads (checkWireType wireType wireType) [] () := by
  intro _
  rw [checkWireType, if_pos rfl]
  rfl

theorem reads_readBytes {value : List UInt8} (hv : value.length < 2 ^ 64) :
    Reads (readBytes .lengthDelimited) (encodeVarint value.length ++ value) value :=
  check (reads_checkWireType _) (bind (reads_decodeVarint hv) (reads_take value))

omit [Prost] in
theorem reads_textOf (text : String) : Reads (textOf (utf8Bytes text)) [] text := by
  intro _
  rw [textOf, fromUtf8_utf8Bytes]
  rfl

theorem reads_readString {text : String} (ht : (utf8Bytes text).length < 2 ^ 64) :
    Reads (readString .lengthDelimited) (encodeVarint (utf8Bytes text).length ++ utf8Bytes text) text :=
  bind_check (reads_readBytes ht) (reads_textOf text)

theorem reads_readUint64 (value : UInt64) : Reads (readUint64 .varint) (encodeVarint value.toNat) value := by
  have hread := (reads_decodeVarint value.toNat_lt).map UInt64.ofNat
  rw [UInt64.ofNat_toNat] at hread
  exact check (reads_checkWireType _) hread

theorem reads_readBool (value : Bool) : Reads (readBool .varint) (encodeVarint value.toNat) value := by
  have hread := (reads_decodeVarint (Nat.lt_trans value.toNat_lt (by decide))).map fun number => decide (number ≠ 0)
  have hv : decide (value.toNat ≠ 0) = value := by cases value <;> rfl
  rw [hv] at hread
  exact check (reads_checkWireType _) hread

variable {v : List UInt8}

theorem reads_skipField (depth tag : Nat) (hv : v.length < 2 ^ 64) :
    Reads (skipField (depth + 1) .lengthDelimited tag) (encodeVarint v.length ++ v) () :=
  bind (reads_decodeVarint hv) (bind_check (reads_take v) (pure ()))

section Records

variable {α β : Type} {merge : α → Nat → WireType → Reader α} {acc result : α} {bytes : List UInt8}

theorem Merges.trans {next : α} {more : List UInt8} (hf : Merges merge acc bytes next)
    (hs : Merges merge next more result) : Merges merge acc (bytes ++ more) result := by
  induction hf with
  | nil => exact hs
  | field hk hv _ ih =>
    rw [append_assoc, append_assoc]
    exact .field hk hv (ih hs)

theorem Merges.run_mergeLoop (hm : Merges merge acc bytes result)
    (more : List UInt8) {fuel : Nat} (hf : bytes.length < fuel) :
    (mergeLoop merge more.length fuel acc).run (bytes ++ more) = .ok (result, more) := by
  induction hm generalizing fuel with
  | nil =>
    obtain ⟨fuel, rfl⟩ : ∃ n, fuel = n + 1 := ⟨fuel - 1, by omega⟩
    show (if _ then _ else if _ then _ else _) = _
    rw [nil_append, if_neg (Nat.lt_irrefl _), if_pos rfl]
  | @field acc next result tag wireType key v bytes hk hv _ ih =>
    obtain ⟨fuel, rfl⟩ : ∃ n, fuel = n + 1 := ⟨fuel - 1, by omega⟩
    have hn : key ≠ [] := by
      rintro rfl
      exact not_reads_decodeKey_nil _ hk
    have hpos := length_pos_of_ne_nil hn
    simp only [length_append] at hf
    have hl : more.length < (key ++ (v ++ bytes) ++ more).length := by
      simp only [length_append]
      omega
    show (if _ then _ else if _ then _ else _) = _
    rw [if_pos hl, append_assoc, append_assoc, StateT.run_bind, hk]
    show StateT.run (merge acc tag wireType >>= mergeLoop merge more.length fuel) _ = _
    rw [StateT.run_bind, hv]
    exact ih (by omega)

theorem Merges.decode {empty : α} (hm : Merges merge empty bytes result) :
    decode merge empty bytes = .ok result := by
  have hrun : (mergeLoop merge 0 (bytes.length + 1) empty).run (bytes ++ []) = .ok (result, []) :=
    hm.run_mergeLoop [] (Nat.lt_succ_self _)
  rw [append_nil] at hrun
  rw [Protobuf.decode, hrun]
  rfl

theorem Merges.reads_readMessage (hm : Merges merge acc bytes result) (depth : Nat) (hb : bytes.length < 2 ^ 64) :
    Reads (readMessage merge (depth + 1) acc .lengthDelimited) (encodeVarint bytes.length ++ bytes) result := by
  apply check (reads_checkWireType _)
  apply bind (reads_decodeVarint hb)
  intro more
  have hlen : ¬ (bytes ++ more).length < bytes.length := by
    rw [length_append]
    omega
  have hl : (bytes ++ more).length - bytes.length = more.length := by
    rw [length_append]
    omega
  show (if _ then _ else _) = _
  rw [if_neg hlen, hl]
  apply hm.run_mergeLoop
  rw [length_append]
  omega

theorem Merges.single {tag : Nat} {wireType : WireType} (htag : IsTag tag)
    (hv : Reads (merge acc tag wireType) v result) :
    Merges merge acc (encodeKey tag wireType ++ v) result := by
  have hf := Merges.field (reads_decodeKey wireType htag) hv (.nil result)
  rwa [append_nil] at hf

end Records

/-- The length is a number that the format can hold. -/
def Fits (bytes : List UInt8) : Prop := bytes.length < 2 ^ 64

section

variable {bytes more : List UInt8}

omit [Prost] in
theorem Fits.left (hf : Fits (bytes ++ more)) : Fits bytes := by
  rw [Fits, length_append] at hf
  exact Nat.lt_of_le_of_lt (Nat.le_add_right _ _) hf

omit [Prost] in
theorem Fits.right (hf : Fits (bytes ++ more)) : Fits more := by
  rw [Fits, length_append] at hf
  exact Nat.lt_of_le_of_lt (Nat.le_add_left _ _) hf

theorem Fits.value {value : List UInt8} (hf : Fits (encodeBytes tag value)) : Fits value := hf.right.right

end

section Fields

variable {α β : Type} {merge : α → Nat → WireType → Reader α} {wireType : WireType} {read : Reader β}
  {encode : β → List UInt8}

/-- How a value is read that was written as a field. -/
def FieldReads (tag : Nat) (wireType : WireType) (read : Reader β) (encode : β → List UInt8) : Prop :=
  ∀ item, Fits (encode item) → ∃ value, encode item = encodeKey tag wireType ++ value ∧ Reads read value item

theorem FieldReads.bytes : FieldReads tag .lengthDelimited (readBytes .lengthDelimited) (encodeBytes tag) :=
  fun _ hf => ⟨_, rfl, reads_readBytes hf.value⟩

theorem FieldReads.string : FieldReads tag .lengthDelimited (readString .lengthDelimited) (encodeString tag) :=
  fun _ hf => ⟨_, rfl, reads_readString hf.value⟩

theorem FieldReads.uint64 : FieldReads tag .varint (readUint64 .varint) (encodeUint64 tag) :=
  fun item _ => ⟨_, rfl, reads_readUint64 item⟩

theorem FieldReads.bool : FieldReads tag .varint (readBool .varint) (encodeBool tag) :=
  fun item _ => ⟨_, rfl, reads_readBool item⟩

theorem FieldReads.message {inner : β → Nat → WireType → Reader β} {empty : β} {depth : Nat}
    (hi : ∀ item, Fits (encode item) → Merges inner empty (encode item) item) :
    FieldReads tag .lengthDelimited (readMessage inner (depth + 1) empty .lengthDelimited)
      fun item => encodeBytes tag (encode item) :=
  fun item hf => ⟨_, rfl, (hi item hf.value).reads_readMessage depth hf.value⟩

/-! How the record takes the value of a field is read off its `merge`. -/

variable (hread : FieldReads tag wireType read encode) (htag : IsTag tag)
include hread htag

theorem Merges.value {acc : α} (put : β → α) {item : β} (hm : merge acc tag wireType = put <$> read)
    (hf : Fits (encode item)) : Merges merge acc (encode item) (put item) := by
  obtain ⟨_, heq, hv⟩ := hread item hf
  rw [heq]
  apply Merges.single htag
  rw [hm]
  exact hv.map put

theorem Merges.optional (put : Option β → α) {v : Option β}
    (hm : merge (put none) tag wireType = (fun item => put (some item)) <$> read)
    (hf : Fits (encodeOptional encode v)) :
    Merges merge (put none) (encodeOptional encode v) (put v) := by
  cases v with
  | none => exact .nil _
  | some item => exact .value hread htag (fun item => put (some item)) hm hf

theorem Merges.repeated (put : List β → α) {items : List β}
    (hm : ∀ pre, merge (put pre) tag wireType = (fun item => put (pre ++ [item])) <$> read)
    (hf : Fits (items.flatMap encode)) : Merges merge (put []) (items.flatMap encode) (put items) := by
  suffices ha : ∀ pre, Merges merge (put pre) (items.flatMap encode) (put (pre ++ items)) from
    ha []
  induction items with
  | nil =>
    intro pre
    rw [append_nil]
    exact .nil _
  | cons item items ih =>
    intro pre
    rw [flatMap_cons] at hf ⊢
    have ht := ih hf.right (pre ++ [item])
    rw [append_assoc, singleton_append] at ht
    exact (Merges.value hread htag (fun item => put (pre ++ [item])) (hm pre) hf.left).trans ht

end Fields
end Protobuf
end RustLibp2p
