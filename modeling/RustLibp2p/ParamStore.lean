import Mathlib.Data.List.Perm.Subperm
import RustLibp2p.CText
import RustLibp2p.LineFile
import RustLibp2p.Transition

/-! The parameter store of the camera: lines `key=value` in one text file, rewritten as a whole for every
value that is set. The C functions work on the bytes of C strings; the Rust functions in front of them
convert texts, and panic where a text has no C form. -/

namespace RustLibp2p.Camera

open Bytes CText LineFile List

def lineFeed : UInt8 := 10

def carriageReturn : UInt8 := 13

def equalsSign : UInt8 := 61

def rkParamMaxLine : Nat := 512

def rkParamMaxLines : Nat := 512

/-- The file `/userdata/device-cam.ini`, `none` while it does not exist. -/
structure ParamFile where
  contents : Option (List UInt8)
  deriving DecidableEq

namespace ParamFile

/-- What the loop of `fgets` calls puts in its line buffers. -/
def lines (file : ParamFile) : List (List UInt8) :=
  (readLines lineFeed (rkParamMaxLine - 1) [] (file.contents.getD [])).map cStr

def skipBlanks (line : List UInt8) : List UInt8 := line.dropWhile fun byte => byte == 32 || byte == 9

/-- The line holds a value for `key`. -/
def matchesKey (key line : List UInt8) : Bool :=
  (skipBlanks line).take key.length == key && (skipBlanks line)[key.length]? == some equalsSign

/-- The value is cut off at the first line end of either kind. -/
def lineValue (key line : List UInt8) : List UInt8 :=
  ((skipBlanks line).drop (key.length + 1)).takeWhile fun byte => byte != carriageReturn && byte != lineFeed

section

variable (file : ParamFile) (key : List UInt8)

def paramReadRaw (outSize : Nat) : Option (List UInt8) :=
  (file.lines.find? (matchesKey key)).map fun line => (lineValue key line).take (outSize - 1)

/-- What `snprintf` with `%s=%s\n` leaves in a line buffer. -/
def paramLine (key value : List UInt8) : List UInt8 :=
  (key ++ [equalsSign] ++ value ++ [lineFeed]).take (rkParamMaxLine - 1)

/-- `writable` is whether the file can be opened for writing. -/
def paramWriteRaw (key value : List UInt8) (writable : Bool) : Int32 × ParamFile :=
  let buf := put (matchesKey key) (paramLine key value) rkParamMaxLines (file.lines.take rkParamMaxLines)
  if writable then (0, ⟨some buf.flatten⟩) else (-1, file)

def rkParamGetInt (defaultValue : Int32) : Int32 :=
  match file.paramReadRaw key rkParamMaxLine with
  | some val => atoi val
  | none => defaultValue

def rkParamSetInt (value : Int32) (writable : Bool) : Int32 × ParamFile :=
  file.paramWriteRaw key ((formatInt value).take 31) writable

def rkParamGetString (key defaultValue : List UInt8) : List UInt8 :=
  match file.paramReadRaw key rkParamMaxLine with
  | some val => val
  | none => defaultValue.take (rkParamMaxLine - 1)

def rkParamSetString (key value : List UInt8) (writable : Bool) : Int32 × ParamFile :=
  file.paramWriteRaw key value writable

/-- `none` is a panic. The answer of the C function is not looked at. -/
def paramSetInt (key : String) (value : Int32) (writable : Bool) : Option ParamFile := do
  let keyC ← cStringNew key
  some (file.rkParamSetInt keyC value writable).2

def paramGetString (key default : String) : Option String := do
  let keyC ← cStringNew key
  let defaultC ← cStringNew default
  some (toStringLossy (file.rkParamGetString keyC defaultC))

def paramSetString (key value : String) (writable : Bool) : Option ParamFile := do
  let keyC ← cStringNew key
  let valueC ← cStringNew value
  some (file.rkParamSetString keyC valueC writable).2

end
end ParamFile

/-- The fields of an encoder configuration that are kept in the store, for each of the three streams. -/
def encoderFields : List String :=
  ["output_data_type", "width", "height", "rc_mode", "rc_quality", "gop", "gop_mode", "max_rate",
    "dst_frame_rate_num", "dst_frame_rate_den", "h264_profile", "smart", "rotation"]

def programKeys : List String :=
  (["video.0", "video.1", "video.2"].flatMap fun stream => encoderFields.map fun field => stream ++ "." ++ field) ++
  ["isp.0.adjustment:contrast", "isp.0.adjustment:brightness", "isp.0.adjustment:saturation",
    "isp.0.adjustment:hue", "isp.0.adjustment:sharpness", "isp.0.video_adjustment:image_flip",
    "system.device_info.device_name", "system.device_info.telecontrol_id", "system.device_info.model",
    "system.device_info.serial_number", "system.device_info.firmware_version", "system.device_info.manufacturer"]

/-- What the program relies on in a key: it starts with no blank, has no `=` and no line end in it, and leaves most of
a line buffer to the value. -/
structure KeyForm (key : List UInt8) : Prop where
  nul : 0 ∉ key
  lineEnd : lineFeed ∉ key
  equals : equalsSign ∉ key
  blank : key.head? ≠ some 32 ∧ key.head? ≠ some 9
  short : key.length < 64

variable {key : String}

theorem keyForm_of_mem (hkey : key ∈ programKeys) : KeyForm (utf8Bytes key) := by
  have hall : ∀ key ∈ programKeys, 0 ∉ utf8Bytes key ∧ lineFeed ∉ utf8Bytes key ∧ equalsSign ∉ utf8Bytes key ∧
      ((utf8Bytes key).head? ≠ some 32 ∧ (utf8Bytes key).head? ≠ some 9) ∧ (utf8Bytes key).length < 64 := by
    decide +kernel
  obtain ⟨hnul, hliE, he, hb, hs⟩ := hall key hkey
  exact ⟨hnul, hliE, he, hb, hs⟩

theorem cStringNew_of_mem (hkey : key ∈ programKeys) : cStringNew key = some (utf8Bytes key) := by
  rw [cStringNew, if_neg (keyForm_of_mem hkey).nul]

namespace ParamFile

/-- The key that a line is for, where it is for one. -/
def keyOf (line : List UInt8) : List UInt8 := (skipBlanks line).takeWhile (· ≠ equalsSign)

variable {key line : List UInt8} {file : ParamFile}

theorem matchesKey_iff : matchesKey key line ↔ ∃ rest, skipBlanks line = key ++ equalsSign :: rest := by
  simp only [matchesKey, Bool.and_eq_true, beq_iff_eq]
  constructor
  · rintro ⟨hkey, he⟩
    obtain ⟨hlt, hg⟩ := List.getElem?_eq_some_iff.1 he
    refine ⟨(skipBlanks line).drop (key.length + 1), ?_⟩
    calc skipBlanks line
        = (skipBlanks line).take key.length ++ (skipBlanks line).drop key.length := (take_append_drop _ _).symm
      _ = key ++ equalsSign :: (skipBlanks line).drop (key.length + 1) := by rw [hkey, drop_eq_getElem_cons hlt, hg]
  · rintro ⟨_, hr⟩
    simp [hr]

theorem keyOf_of_matchesKey (hkey : equalsSign ∉ key) (hm : matchesKey key line) : keyOf line = key := by
  obtain ⟨_, hr⟩ := matchesKey_iff.1 hm
  rw [keyOf, hr, takeWhile_append_of_pos, takeWhile_cons_of_neg (by simp), append_nil]
  intro byte hb
  simpa using fun heq : byte = equalsSign => hkey (heq ▸ hb)

variable {other : List UInt8}

theorem matchesKey_eq_false (hkey : equalsSign ∉ key) (ho : equalsSign ∉ other)
    (hne : other ≠ key) (hm : matchesKey key line) : matchesKey other line = false := by
  rw [Bool.eq_false_iff]
  intro ha
  exact hne ((keyOf_of_matchesKey ho ha).symm.trans (keyOf_of_matchesKey hkey hm))

section Line

variable (hkey : KeyForm key) (value : List UInt8)

include hkey

theorem paramLine_eq : paramLine key value = key ++ equalsSign :: (value ++ [lineFeed]).take (510 - key.length) := by
  have hs := hkey.short
  have hsp : key ++ [equalsSign] ++ value ++ [lineFeed] = (key ++ [equalsSign]) ++ (value ++ [lineFeed]) := by simp
  rw [paramLine, hsp, take_append, take_of_length_le (by simp [rkParamMaxLine]; omega),
    length_append, length_singleton, append_assoc, singleton_append]
  congr 3
  simp only [rkParamMaxLine]
  omega

theorem skipBlanks_paramLine : skipBlanks (paramLine key value) = paramLine key value := by
  rw [paramLine_eq hkey, skipBlanks]
  cases hb : key with
  | nil => exact dropWhile_cons_of_neg (by decide)
  | cons =>
    have hbl := hkey.blank
    rw [hb] at hbl
    exact dropWhile_cons_of_neg (by simpa using hbl)

theorem matchesKey_paramLine : matchesKey key (paramLine key value) := by
  rw [matchesKey_iff, skipBlanks_paramLine hkey, paramLine_eq hkey]
  exact ⟨_, rfl⟩

theorem lineValue_paramLine : lineValue key (paramLine key value) =
    ((value ++ [lineFeed]).take (510 - key.length)).takeWhile fun byte =>
      byte != carriageReturn && byte != lineFeed := by
  rw [lineValue, skipBlanks_paramLine hkey, paramLine_eq hkey]
  congr 1
  rw [drop_append, drop_of_length_le (by omega), nil_append,
    show key.length + 1 - key.length = 1 by omega, drop_succ_cons, drop_zero]

theorem length_lineValue_paramLine_le : (lineValue key (paramLine key value)).length ≤ 510 - key.length := by
  rw [lineValue_paramLine hkey]
  exact (takeWhile_sublist _).length_le.trans (length_take_le _ _)

theorem lineValue_paramLine_eq_iff : lineValue key (paramLine key value) = value ↔
    lineFeed ∉ value ∧ carriageReturn ∉ value ∧ key.length + 1 + value.length < rkParamMaxLine := by
  have hs := hkey.short
  constructor
  · intro hv
    have hlen := length_lineValue_paramLine_le hkey value
    rw [hv] at hlen
    refine ⟨fun hmem => ?_, fun hmem => ?_, by simp only [rkParamMaxLine]; omega⟩
    all_goals
      rw [← hv] at hmem
      simpa using mem_takeWhile_imp hmem
  · rintro ⟨hliF, hr, hf⟩
    simp only [rkParamMaxLine] at hf
    have hi : ∀ byte ∈ value, (byte != carriageReturn && byte != lineFeed) := by
      intro byte hb
      simp only [bne_iff_ne, ne_eq, Bool.and_eq_true]
      exact ⟨fun heq => hr (heq ▸ hb), fun heq => hliF (heq ▸ hb)⟩
    have he : (List.take (510 - key.length - value.length) [lineFeed]).takeWhile
        (fun byte => byte != carriageReturn && byte != lineFeed) = [] := by
      cases 510 - key.length - value.length <;> rfl
    rw [lineValue_paramLine hkey, take_append, take_of_length_le (by omega), takeWhile_append_of_pos hi, he, append_nil]

theorem complete_paramLine {value : List UInt8} (hv : lineFeed ∉ value) :
    Complete lineFeed (rkParamMaxLine - 1) (paramLine key value) := by
  apply complete_take
  · simp only [mem_append, mem_singleton, not_or]
    exact ⟨⟨hkey.lineEnd, by decide⟩, hv⟩
  · decide

theorem zero_notMem_paramLine {value : List UInt8} (hv : 0 ∉ value) : 0 ∉ paramLine key value := by
  intro hmem
  have hl := mem_of_mem_take hmem
  simp only [mem_append, mem_singleton] at hl
  rcases hl with ((hmem | heq) | hmem) | heq
  · exact hkey.nul hmem
  · exact absurd heq (by decide)
  · exact hv hmem
  · exact absurd heq (by decide)

end Line

theorem zero_notMem_of_mem_lines (hl : line ∈ file.lines) : 0 ∉ line := by
  obtain ⟨buffer, -, rfl⟩ := mem_map.1 hl
  exact zero_notMem_cStr buffer

theorem lines_flatten {table : List (List UInt8)}
    (hcom : ∀ line ∈ table, Complete lineFeed (rkParamMaxLine - 1) line) (hnul : ∀ line ∈ table, 0 ∉ line) :
    lines ⟨some table.flatten⟩ = table := by
  calc lines ⟨some table.flatten⟩ = table.map cStr := by rw [lines, Option.getD_some, readLines_flatten hcom]
    _ = table.map id := map_congr_left fun line hl => cStr_eq_self (hnul line hl)
    _ = table := map_id _

theorem notMem_of_paramReadRaw {value : List UInt8} {outSize : Nat}
    (hr : file.paramReadRaw key outSize = some value) : lineFeed ∉ value ∧ carriageReturn ∉ value := by
  obtain ⟨_, -, rfl⟩ := Option.map_eq_some_iff.1 hr
  constructor
  all_goals
    intro hmem
    simpa using mem_takeWhile_imp (mem_of_mem_take hmem)

/-- The state in which a value for `key` finds its place: no line of the file is broken off and the table has room. -/
structure Orderly (file : ParamFile) (key : List UInt8) : Prop where
  complete : ∀ line ∈ file.lines, Complete lineFeed (rkParamMaxLine - 1) line
  room : file.lines.length ≤ rkParamMaxLines
  place : file.lines.any (matchesKey key) ∨ file.lines.length < rkParamMaxLines

section Write

variable {value : List UInt8} (hkey : KeyForm key)
  (hcom : ∀ line ∈ file.lines, Complete lineFeed (rkParamMaxLine - 1) line)
  (hroom : file.lines.length ≤ rkParamMaxLines) (hliF : lineFeed ∉ value) (hnul : 0 ∉ value)

include hkey hcom hroom hliF hnul

theorem lines_paramWriteRaw : (file.paramWriteRaw key value true).2.lines =
    put (matchesKey key) (paramLine key value) rkParamMaxLines file.lines := by
  rw [paramWriteRaw, if_pos rfl, take_of_length_le hroom]
  apply lines_flatten
  · intro line hl
    rcases mem_put hl with rfl | ho
    · exact complete_paramLine hkey hliF
    · exact hcom line ho
  · intro line hl
    rcases mem_put hl with rfl | ho
    · exact zero_notMem_paramLine hkey hnul
    · exact zero_notMem_of_mem_lines ho

theorem paramReadRaw_paramWriteRaw (hp : file.lines.any (matchesKey key) ∨ file.lines.length < rkParamMaxLines) :
    (file.paramWriteRaw key value true).2.paramReadRaw key rkParamMaxLine =
      some (lineValue key (paramLine key value)) := by
  rw [paramReadRaw, lines_paramWriteRaw hkey hcom hroom hliF hnul,
    find?_put hp (matchesKey_paramLine hkey value), Option.map_some, take_of_length_le]
  have hlen := length_lineValue_paramLine_le hkey value
  simp only [rkParamMaxLine]
  omega

theorem paramReadRaw_paramWriteRaw_of_ne (ho : KeyForm other) (hne : other ≠ key)
    (outSize : Nat) : (file.paramWriteRaw key value true).2.paramReadRaw other outSize =
      file.paramReadRaw other outSize := by
  rw [paramReadRaw, lines_paramWriteRaw hkey hcom hroom hliF hnul, paramReadRaw, find?_put_of_disjoint]
  · intro _ hl
    exact matchesKey_eq_false hkey.equals ho.equals hne hl
  · exact matchesKey_eq_false hkey.equals ho.equals hne (matchesKey_paramLine hkey value)

end Write
end ParamFile

/-! The parameter store in use. While no value with a line feed in it is set, the file stays a table with
one complete line for each key that was set. -/

open Option

/-- A value of a parameter, as a control request carries it. -/
inductive ParamValue where
  | int (value : Int32)
  | text (value : String)

namespace ParamValue

/-- The bytes that are to stand behind the `=`. -/
def bytes : ParamValue → List UInt8
  | int value => formatInt value
  | text value => utf8Bytes value

/-- The value has a C form of one line that fits, behind its key, in a line buffer. -/
structure Storable (key : String) (value : ParamValue) : Prop where
  nul : 0 ∉ value.bytes
  lineFeed : lineFeed ∉ value.bytes
  carriageReturn : carriageReturn ∉ value.bytes
  fits : (utf8Bytes key).length + 1 + value.bytes.length < rkParamMaxLine

end ParamValue

open ParamValue

inductive StoreOp where
  | set (key : String) (value : ParamValue) (writable : Bool)
  | factoryReset

/-- The operation is on a key of the program, and a value it sets has no line feed in it. -/
def StoreOp.OneLine : StoreOp → Prop
  | set key value _ => key ∈ programKeys ∧ lineFeed ∉ value.bytes
  | factoryReset => True

namespace ParamFile

def set (file : ParamFile) (key : String) (value : ParamValue) (writable : Bool) : Option ParamFile :=
  match value with
  | .int value => file.paramSetInt key value writable
  | .text value => file.paramSetString key value writable

/-- One operation, with whether it came to its end. A panic leaves the file as it is. -/
def exec (file : ParamFile) : StoreOp → Bool × ParamFile
  | .set key value writable =>
    match file.set key value writable with
    | some file' => (true, file')
    | none => (false, file)
  | .factoryReset => (true, ⟨none⟩)

def after (ops : List StoreOp) : ParamFile := (Transition.runTotal exec ⟨none⟩ ops).2

/-- Whoever reads `key` is given `value`: C code and, for a text, the Rust function. -/
def Reads (file : ParamFile) (key : String) : ParamValue → Prop
  | .int value => ∀ defaultValue, file.rkParamGetInt (utf8Bytes key) defaultValue = value
  | .text value => (∀ defaultValue, file.rkParamGetString (utf8Bytes key) defaultValue = utf8Bytes value) ∧
      ∀ default, cStringNew default ≠ none → file.paramGetString key default = some value

/-- Nobody who reads `key` can tell the two files apart. -/
def ReadsSame (file file' : ParamFile) (key : String) : Prop :=
  (∀ defaultValue, file'.rkParamGetInt (utf8Bytes key) defaultValue = file.rkParamGetInt (utf8Bytes key) defaultValue) ∧
  (∀ defaultValue, file'.rkParamGetString (utf8Bytes key) defaultValue =
    file.rkParamGetString (utf8Bytes key) defaultValue) ∧
  ∀ default, file'.paramGetString key default = file.paramGetString key default

/-- Setting `key` makes its readers see `value` and changes nothing for the readers of the other keys. -/
def Stores (file : ParamFile) (key : String) (value : ParamValue) : Prop :=
  ∃ file', file.set key value true = some file' ∧ file'.Reads key value ∧
    ∀ other ∈ programKeys, other ≠ key → file.ReadsSame file' other

variable {key : String}

theorem storable_int (hkey : key ∈ programKeys) (v : Int32) : ParamValue.Storable key (.int v) where
  nul := notMem_formatInt (by decide) (by decide) v
  lineFeed := notMem_formatInt (by decide) (by decide) v
  carriageReturn := notMem_formatInt (by decide) (by decide) v
  fits := by
    have hs := (keyForm_of_mem hkey).short
    have hd := length_formatInt_le v
    simp only [bytes, rkParamMaxLine]
    omega

variable {file : ParamFile}

section

variable (hkey : key ∈ programKeys)
include hkey

/-- Setting a value is one write of its bytes, or a panic. -/
theorem set_eq (value : ParamValue) (writable : Bool) :
    file.set key value writable = if 0 ∈ value.bytes then none
      else some (file.paramWriteRaw (utf8Bytes key) value.bytes writable).2 := by
  cases value with
  | int value =>
    have hc : (formatInt value).take 31 = formatInt value :=
      take_of_length_le ((length_formatInt_le value).trans (by omega))
    rw [if_neg (storable_int hkey value).nul, set, paramSetInt, cStringNew_of_mem hkey]
    simp [rkParamSetInt, hc, bytes]
  | text value =>
    rw [set, paramSetString, cStringNew_of_mem hkey, cStringNew]
    by_cases hn : 0 ∈ utf8Bytes value
    · rw [if_pos hn, if_pos (show 0 ∈ (text value).bytes from hn)]
      rfl
    · rw [if_neg hn, if_neg (show 0 ∉ (text value).bytes from hn)]
      rfl

/-- Reading is decided by what the search for the line finds. -/
theorem reads_of_paramReadRaw {value : ParamValue}
    (hr : file.paramReadRaw (utf8Bytes key) rkParamMaxLine = some value.bytes) : file.Reads key value := by
  cases value with
  | int value =>
    intro dflt
    rw [rkParamGetInt, hr]
    exact atoi_formatInt value
  | text value =>
    have hs : ∀ dflt, file.rkParamGetString (utf8Bytes key) dflt = utf8Bytes value := by
      intro dflt
      rw [rkParamGetString, hr]
      rfl
    refine ⟨hs, ?_⟩
    intro _ hd
    obtain ⟨_, hb⟩ := ne_none_iff_exists'.1 hd
    rw [paramGetString, cStringNew_of_mem hkey, hb]
    simp [hs]

theorem readsSame_of_paramReadRaw {file' : ParamFile}
    (hr : file'.paramReadRaw (utf8Bytes key) rkParamMaxLine = file.paramReadRaw (utf8Bytes key) rkParamMaxLine) :
    file.ReadsSame file' key := by
  have hs : ∀ defaultValue, file'.rkParamGetString (utf8Bytes key) defaultValue =
      file.rkParamGetString (utf8Bytes key) defaultValue := by
    intro defaultValue
    rw [rkParamGetString, hr, rkParamGetString]
  refine ⟨?_, hs, ?_⟩
  · intro defaultValue
    rw [rkParamGetInt, hr, rkParamGetInt]
  · intro _
    rw [paramGetString, paramGetString, cStringNew_of_mem hkey]
    simp [hs]

end

theorem paramReadRaw_of_reads_text {v : String} (hr : file.Reads key (.text v)) :
    file.paramReadRaw (utf8Bytes key) rkParamMaxLine = some (text v).bytes := by
  have hre := hr.1
  cases hra : file.paramReadRaw (utf8Bytes key) rkParamMaxLine with
  | none =>
    -- two defaults of different length cannot both be the value
    have he := hre []
    have hb := hre [32]
    rw [rkParamGetString, hra] at he hb
    exact absurd (hb.trans he.symm) (by decide)
  | some =>
    have hf := hre []
    rw [rkParamGetString, hra] at hf
    rw [bytes, ← hf]

theorem stores_iff_of_orderly (hkey : key ∈ programKeys)
    (ho : file.Orderly (utf8Bytes key)) (v : ParamValue) : file.Stores key v ↔ v.Storable key := by
  have hf := keyForm_of_mem hkey
  constructor
  · rintro ⟨_, hs, hr, -⟩
    rw [set_eq hkey] at hs
    split_ifs at hs with hn
    cases v with
    | int v => exact storable_int hkey v
    | text =>
      have hre := paramReadRaw_of_reads_text hr
      have he := notMem_of_paramReadRaw hre
      rw [← Option.some.inj hs, paramReadRaw_paramWriteRaw hf ho.complete ho.room he.1 hn ho.place] at hre
      have hfi := (lineValue_paramLine_eq_iff hf _).1 (Option.some.inj hre)
      exact ⟨hn, hfi.1, hfi.2.1, hfi.2.2⟩
  · intro hst
    have hre := paramReadRaw_paramWriteRaw hf ho.complete ho.room hst.lineFeed hst.nul ho.place
    rw [(lineValue_paramLine_eq_iff hf v.bytes).2 ⟨hst.lineFeed, hst.carriageReturn, hst.fits⟩] at hre
    refine ⟨_, by rw [set_eq hkey, if_neg hst.nul], reads_of_paramReadRaw hkey hre, ?_⟩
    intro _ hot hne
    apply readsSame_of_paramReadRaw hot
    apply paramReadRaw_paramWriteRaw_of_ne hf ho.complete ho.room hst.lineFeed hst.nul (keyForm_of_mem hot)
    exact fun heq => hne (utf8Bytes_injective heq)

/-- The file is a table with one complete line for each of some keys of the program. -/
structure Tidy (file : ParamFile) : Prop where
  complete : ∀ line ∈ file.lines, Complete lineFeed (rkParamMaxLine - 1) line
  owned : ∀ line ∈ file.lines, ∃ key ∈ programKeys, matchesKey (utf8Bytes key) line
  nodup : (file.lines.map keyOf).Nodup

namespace Tidy

variable (htidy : file.Tidy)

include htidy

theorem length_lt : file.lines.length < rkParamMaxLines := by
  have hk : file.lines.map keyOf ⊆ programKeys.map utf8Bytes := by
    intro _ hn
    obtain ⟨line, hl, rfl⟩ := mem_map.1 hn
    obtain ⟨_, hkey, hm⟩ := htidy.owned line hl
    rw [keyOf_of_matchesKey (keyForm_of_mem hkey).equals hm]
    exact mem_map_of_mem hkey
  have hlen := (htidy.nodup.subperm hk).length_le
  rw [length_map, length_map] at hlen
  exact lt_of_le_of_lt hlen (by decide +kernel)

theorem orderly (key : List UInt8) : file.Orderly key := ⟨htidy.complete, htidy.length_lt.le, .inr htidy.length_lt⟩

theorem paramWriteRaw (hkey : key ∈ programKeys) {v : List UInt8} (hliF : lineFeed ∉ v)
    (hn : 0 ∉ v) : (file.paramWriteRaw (utf8Bytes key) v true).2.Tidy := by
  have hf := keyForm_of_mem hkey
  have hl := lines_paramWriteRaw hf htidy.complete htidy.length_lt.le hliF hn
  constructor
  · intro line hli
    rw [hl] at hli
    rcases mem_put hli with rfl | ho
    · exact complete_paramLine hf hliF
    · exact htidy.complete line ho
  · intro line hli
    rw [hl] at hli
    rcases mem_put hli with rfl | ho
    · exact ⟨key, hkey, matchesKey_paramLine hf v⟩
    · exact htidy.owned line ho
  · rw [hl]
    apply nodup_map_put _ htidy.nodup
    intro line hli
    have hne := keyOf_of_matchesKey hf.equals (matchesKey_paramLine hf v)
    rw [hne]
    constructor
    · exact keyOf_of_matchesKey hf.equals
    intro hna
    obtain ⟨_, hot, hm⟩ := htidy.owned line hli
    rw [keyOf_of_matchesKey (keyForm_of_mem hot).equals hm] at hna
    rwa [hna] at hm

end Tidy

theorem tidy_none : Tidy ⟨none⟩ := by
  have hl : lines ⟨none⟩ = [] := rfl
  constructor
  all_goals simp [hl]

/-- One operation on a tidy file leaves a tidy file if it does not put a line feed in a value. -/
theorem Tidy.exec (htidy : file.Tidy) {op : StoreOp} (hop : op.OneLine) : (file.exec op).2.Tidy := by
  cases op with
  | factoryReset => exact tidy_none
  | set key v writable =>
    obtain ⟨hkey, hliF⟩ := hop
    rw [ParamFile.exec, set_eq hkey]
    split_ifs with hn
    · exact htidy
    · cases writable with
      | false => exact htidy
      | true => exact htidy.paramWriteRaw hkey hliF hn

theorem tidy_after {ops : List StoreOp} (ho : ∀ op ∈ ops, op.OneLine) : (after ops).Tidy := by
  have hs : ∀ (past : List Bool) (file : ParamFile) (op : StoreOp), file.Tidy → op.OneLine →
      (file.exec op).2.Tidy := fun _ _ _ htidy hop => htidy.exec hop
  exact Transition.runTotal_along hs ops [] tidy_none (Transition.alongTotal_of_mem (fun _ => ho) _)

/-- Where no value before had a line feed in it, a value is stored, and the values of the other keys are kept, exactly
if it has no NUL and no line end in it and fits in a line buffer behind its key. -/
theorem stores_iff_storable (ops : List StoreOp) (hops : ∀ op ∈ ops, op.OneLine) {key : String}
    (hkey : key ∈ programKeys) (value : ParamValue) : (after ops).Stores key value ↔ value.Storable key :=
  stores_iff_of_orderly hkey ((tidy_after hops).orderly _) value

/-- A name is set and then a number, and the name is set again. -/
theorem stores_iff_storable_renamed :
    (after [.set "system.device_info.device_name" (.text "cam") true, .set "video.0.gop" (.int 50) true]).Stores
      "system.device_info.device_name" (.text "front door") := by
  apply (stores_iff_storable _ _ (by decide +kernel) _).2
  · exact ⟨by decide +kernel, by decide +kernel, by decide +kernel, by decide +kernel⟩
  intro _ hop
  simp only [mem_cons, not_mem_nil, or_false] at hop
  rcases hop with rfl | rfl
  all_goals exact ⟨by decide +kernel, by decide +kernel⟩

/-- A name of two lines loses its second line, which then stands in the file as a value of another key. -/
theorem not_stored_secondLine : ¬ (after []).Stores "system.device_info.device_name" (.text "cam\nvideo.0.gop=7") ∧
    ∃ file', (after []).set "system.device_info.device_name" (.text "cam\nvideo.0.gop=7") true = some file' ∧
      file'.paramGetString "system.device_info.device_name" "RK IP Camera" = some "cam" ∧
      file'.rkParamGetInt (utf8Bytes "video.0.gop") (-1) = 7 ∧
      (after []).rkParamGetInt (utf8Bytes "video.0.gop") (-1) = -1 := by
  constructor
  · intro hs
    have hst := (stores_iff_of_orderly (by decide +kernel) (tidy_none.orderly _) _).1 hs
    exact hst.lineFeed (by decide +kernel)
  · exact ⟨⟨some (utf8Bytes "system.device_info.device_name=cam\nvideo.0.gop=7\n")⟩, by decide +kernel⟩

end ParamFile

structure SystemConfig where
  deviceName : String
  telecontrolId : String
  model : String
  serialNumber : String
  firmwareVersion : String
  manufacturer : String

structure SystemConfigSet where
  deviceName : Option String
  telecontrolId : Option String

namespace ParamFile

def getSystemConfig (file : ParamFile) : Option SystemConfig := do
  let deviceName ← file.paramGetString "system.device_info.device_name" "RK IP Camera"
  let telecontrolId ← file.paramGetString "system.device_info.telecontrol_id" "0"
  let model ← file.paramGetString "system.device_info.model" "RV1106"
  let serialNumber ← file.paramGetString "system.device_info.serial_number" "unknown"
  let firmwareVersion ← file.paramGetString "system.device_info.firmware_version" "1.0.0"
  let manufacturer ← file.paramGetString "system.device_info.manufacturer" "Rockchip"
  some { deviceName, telecontrolId, model, serialNumber, firmwareVersion, manufacturer }

def setIfSome (file : ParamFile) (key : String) (value : Option String) (writable : Bool) : Option ParamFile :=
  match value with
  | some value => file.paramSetString key value writable
  | none => some file

def setSystemConfig (file : ParamFile) (config : SystemConfigSet) (writable : Bool) : Option ParamFile := do
  let file ← file.setIfSome "system.device_info.device_name" config.deviceName writable
  file.setIfSome "system.device_info.telecontrol_id" config.telecontrolId writable

variable {file : ParamFile}

theorem Tidy.setIfSome (htidy : file.Tidy) (hkey : key ∈ programKeys)
    {v : Option String} (hv : ∀ text ∈ v, (ParamValue.text text).Storable key) :
    ∃ file', file.setIfSome key v true = some file' ∧ file'.Tidy ∧
      (∀ default, cStringNew default ≠ none →
        file'.paramGetString key default = (file.paramGetString key default).map v.getD) ∧
      ∀ other ∈ programKeys, other ≠ key → ∀ default,
        file'.paramGetString other default = file.paramGetString other default := by
  cases v with
  | none => exact ⟨file, rfl, htidy, fun _ _ => by cases file.paramGetString _ _ <;> rfl, fun _ _ _ _ => rfl⟩
  | some text =>
    have hs := hv text rfl
    obtain ⟨file', hse, hr, hf⟩ := (stores_iff_of_orderly hkey (htidy.orderly _) _).2 hs
    refine ⟨file', hse, ?_, ?_, fun other ho hne => (hf other ho hne).2.2⟩
    · rw [set_eq hkey, if_neg hs.nul] at hse
      rw [← Option.some.inj hse]
      exact htidy.paramWriteRaw hkey hs.lineFeed hs.nul
    intro default hd
    obtain ⟨_, hb⟩ := ne_none_iff_exists'.1 hd
    rw [hr.2 default hd, paramGetString, cStringNew_of_mem hkey, hb]
    rfl

/-- The texts that a client sets are what clients are then told, next to what they were told before. -/
theorem Tidy.getSystemConfig_setSystemConfig (htidy : file.Tidy) {config : SystemConfigSet}
    (hn : ∀ text ∈ config.deviceName, (ParamValue.text text).Storable "system.device_info.device_name")
    (hid : ∀ text ∈ config.telecontrolId, (ParamValue.text text).Storable "system.device_info.telecontrol_id") :
    ∃ file', file.setSystemConfig config true = some file' ∧ file'.Tidy ∧
      file'.getSystemConfig = file.getSystemConfig.map fun old =>
        { old with
          deviceName := config.deviceName.getD old.deviceName
          telecontrolId := config.telecontrolId.getD old.telecontrolId } := by
  obtain ⟨_, hna, htiN, hreN, hkeN⟩ := htidy.setIfSome (by decide +kernel) hn
  obtain ⟨file', hs, ht', hreI, hkeI⟩ := htiN.setIfSome (by decide +kernel) hid
  refine ⟨file', ?_, ht', ?_⟩
  · rw [setSystemConfig, hna]
    exact hs
  have ho : ∀ key ∈ programKeys, key ≠ "system.device_info.device_name" →
      key ≠ "system.device_info.telecontrol_id" → ∀ default,
      file'.paramGetString key default = file.paramGetString key default :=
    fun key hkey hneN hne default =>
      (hkeI key hkey hne default).trans (hkeN key hkey hneN default)
  rw [getSystemConfig, hkeI _ (by decide +kernel) (by decide), hreN _ (by decide +kernel),
    hreI _ (by decide +kernel), hkeN _ (by decide +kernel) (by decide),
    ho "system.device_info.model" (by decide +kernel) (by decide) (by decide),
    ho "system.device_info.serial_number" (by decide +kernel) (by decide) (by decide),
    ho "system.device_info.firmware_version" (by decide +kernel) (by decide) (by decide),
    ho "system.device_info.manufacturer" (by decide +kernel) (by decide) (by decide), getSystemConfig]
  simp only [bind_eq_bind, bind_map, map_bind, map_some, Function.comp_def]

theorem getSystemConfig_setSystemConfig_renamed : ∃ file', (after []).setSystemConfig ⟨some "front door", none⟩ true =
    some file' ∧ file'.Tidy ∧ file'.getSystemConfig = (after []).getSystemConfig.map fun old =>
      { old with deviceName := "front door" } := by
  refine Tidy.getSystemConfig_setSystemConfig (show (after []).Tidy from tidy_none) ?_ nofun
  rintro _ ⟨⟩
  exact ⟨by decide +kernel, by decide +kernel, by decide +kernel, by decide +kernel⟩

end ParamFile
end RustLibp2p.Camera
