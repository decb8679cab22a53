import RustLibp2p.Bytes
import RustLibp2p.Parsing
import RustLibp2p.Identity

/-! The messages of the relay's registry, which maps a camera's serial to its peer id. There is no outer
length; a reader of a stream tries to decode after every read, and stops once it can. -/

namespace RustLibp2p.Camera
open Bytes Parsing List Extends Reads

inductive RegistryMessage where
  /-- A camera asks to be found under its serial. -/
  | register (serial : String) (peerId pubkey signature : List UInt8)
  /-- A viewer asks for the camera with this serial. -/
  | query (serial : String)
  | response (peerId pubkey signature : List UInt8)
  | notFound
  | error (message : String)
  deriving DecidableEq

inductive RegistryDecodeError where
  | emptyMessage
  | truncatedLength
  | truncatedPayload (need present : Nat)
  | invalidSerialUtf8
  | invalidErrorUtf8
  | unknownTag (tag : UInt8)
  deriving DecidableEq

def msgRegister : UInt8 := 1
def msgQuery : UInt8 := 2
def msgResponse : UInt8 := 3
def msgNotFound : UInt8 := 4
def msgError : UInt8 := 5

/-- The length is cast to 16 bits, whatever the field. -/
def writeLenPrefixed (data : List UInt8) : List UInt8 := beBytes 2 (data.length % 2 ^ 16) ++ data

abbrev RegistryParser := Parser RegistryDecodeError UInt8

def readLenPrefixed : RegistryParser (List UInt8) := fun buf =>
  if buf.length < 2 then .error .truncatedLength
  else
    let len := fromBeBytes (buf.take 2)
    let payload := buf.drop 2
    if payload.length < len then .error (.truncatedPayload len payload.length)
    else .ok (payload.take len, payload.drop len)

def readText (invalid : RegistryDecodeError) : RegistryParser String := do
  let bytes ← readLenPrefixed
  match fromUtf8 bytes with
  | some text => pure text
  | none => throw invalid

def readTag : RegistryParser UInt8 := fun buf =>
  match buf with
  | [] => .error .emptyMessage
  | tag :: rest => .ok (tag, rest)

namespace RegistryMessage

def encode : RegistryMessage → List UInt8
  | register serial peerId pubkey signature =>
    msgRegister :: (writeLenPrefixed (utf8Bytes serial) ++ writeLenPrefixed peerId ++
      writeLenPrefixed pubkey ++ writeLenPrefixed signature)
  | query serial => msgQuery :: writeLenPrefixed (utf8Bytes serial)
  | response peerId pubkey signature =>
    msgResponse :: (writeLenPrefixed peerId ++ writeLenPrefixed pubkey ++ writeLenPrefixed signature)
  | notFound => [msgNotFound]
  | error message => msgError :: writeLenPrefixed (utf8Bytes message)

def decodeFields (tag : UInt8) : RegistryParser RegistryMessage :=
  if tag = msgRegister then do
    let serial ← readText .invalidSerialUtf8
    let peerId ← readLenPrefixed
    let pubkey ← readLenPrefixed
    let signature ← readLenPrefixed
    pure (register serial peerId pubkey signature)
  else if tag = msgQuery then do
    let serial ← readText .invalidSerialUtf8
    pure (query serial)
  else if tag = msgResponse then do
    let peerId ← readLenPrefixed
    let pubkey ← readLenPrefixed
    let signature ← readLenPrefixed
    pure (response peerId pubkey signature)
  else if tag = msgNotFound then pure notFound
  else if tag = msgError then do
    let message ← readText .invalidErrorUtf8
    pure (error message)
  else throw (.unknownTag tag)

def decodeBuf : RegistryParser RegistryMessage := do
  let tag ← readTag
  decodeFields tag

/-- Bytes after the message are not looked at. -/
def decode (data : List UInt8) : Except RegistryDecodeError RegistryMessage := (decodeBuf.run data).map Prod.fst

/-- What a camera signs: its serial and its peer id, without anything between them. -/
def signPayload (serial : String) (peerId : List UInt8) : List UInt8 := utf8Bytes serial ++ peerId

/-- The bytes after so many fields, by their lengths alone. -/
def dropFields : Nat → List UInt8 → List UInt8
  | 0, buf => buf
  | count + 1, buf => dropFields count (buf.drop (2 + fromBeBytes (buf.take 2)))

end RegistryMessage

open RegistryMessage

theorem readLenPrefixed_takes {buf data rest : List UInt8} (hr : readLenPrefixed.run buf = .ok (data, rest)) :
    data.length < 2 ^ 16 ∧ buf = writeLenPrefixed data ++ rest ∧
      ∀ count, dropFields (count + 1) buf = dropFields count rest := by
  change readLenPrefixed buf = _ at hr
  unfold readLenPrefixed at hr
  split at hr
  · cases hr
  dsimp only at hr
  split at hr
  · cases hr
  rename_i hs hp
  cases hr
  have hlen : (buf.take 2).length = 2 := length_take_of_le (Nat.le_of_not_lt hs)
  have hsm := fromBeBytes_lt (buf.take 2)
  have hb := beBytes_fromBeBytes (buf.take 2)
  rw [hlen] at hsm hb
  have hd := length_take_of_le (Nat.le_of_not_lt hp)
  refine ⟨hd.trans_lt hsm, ?_, fun count => ?_⟩
  · rw [writeLenPrefixed, hd, Nat.mod_eq_of_lt (show _ < 2 ^ 16 from hsm), hb, append_assoc,
      take_append_drop, take_append_drop]
  · rw [dropFields, drop_drop]

theorem readLenPrefixed_reads {data : List UInt8} (hfits : data.length < 2 ^ 16) :
    Reads readLenPrefixed (writeLenPrefixed data) data := by
  intro more
  have hlen : fromBeBytes (beBytes 2 (data.length % 2 ^ 16)) = data.length := by
    rw [Nat.mod_eq_of_lt hfits]
    exact fromBeBytes_beBytes_of_lt hfits
  have ht : (writeLenPrefixed data ++ more).take 2 = beBytes 2 (data.length % 2 ^ 16) := by
    rw [writeLenPrefixed, append_assoc, take_left' (by simp)]
  have hd : (writeLenPrefixed data ++ more).drop 2 = data ++ more := by
    rw [writeLenPrefixed, append_assoc, drop_left' (by simp)]
  have hh : ¬ (writeLenPrefixed data ++ more).length < 2 := by
    rw [writeLenPrefixed, append_assoc, length_append, beBytes_length]
    omega
  show readLenPrefixed _ = _
  rw [readLenPrefixed, if_neg hh, ht, hd]
  rw [hlen, if_neg (by simp), take_left, drop_left]

theorem readLenPrefixed_extends : Extends readLenPrefixed := by
  intro _ _ rest more hr
  obtain ⟨hfits, rfl, -⟩ := readLenPrefixed_takes hr
  rw [append_assoc]
  exact readLenPrefixed_reads hfits (rest ++ more)

theorem readText_extends (invalid : RegistryDecodeError) : Extends (readText invalid) := by
  apply readLenPrefixed_extends.bind
  intro _
  split
  · exact pure _
  · exact throw _

theorem readText_reads (invalid : RegistryDecodeError) {text : String} (hfits : (utf8Bytes text).length < 2 ^ 16) :
    Reads (readText invalid) (writeLenPrefixed (utf8Bytes text)) text := by
  rw [← append_nil (writeLenPrefixed (utf8Bytes text))]
  apply (readLenPrefixed_reads hfits).bind
  rw [fromUtf8_utf8Bytes]
  exact pure text

theorem readTag_extends : Extends readTag := by
  intro buf _ _ _ hr
  cases buf with
  | nil => cases hr
  | cons =>
    cases hr
    rfl

theorem readTag_reads (tag : UInt8) : Reads readTag [tag] tag := fun _ => rfl

variable {msg : RegistryMessage}

namespace RegistryMessage

theorem decodeFields_extends (tag : UInt8) : Extends (decodeFields tag) := by
  have ht := readText_extends
  have hf := readLenPrefixed_extends
  unfold decodeFields
  split
  · exact (ht _).bind fun _ => hf.bind fun _ => hf.bind fun _ => hf.bind fun _ =>
      pure _
  split
  · exact (ht _).bind fun _ => pure _
  split
  · exact hf.bind fun _ => hf.bind fun _ => hf.bind fun _ => pure _
  split
  · exact pure _
  split
  · exact (ht _).bind fun _ => pure _
  · exact throw _

theorem decodeBuf_extends : Extends decodeBuf := readTag_extends.bind decodeFields_extends

/-- Every length field can hold the length of its field. -/
def Fits : RegistryMessage → Prop
  | register serial peerId pubkey signature =>
    (utf8Bytes serial).length < 2 ^ 16 ∧ peerId.length < 2 ^ 16 ∧ pubkey.length < 2 ^ 16 ∧ signature.length < 2 ^ 16
  | query serial => (utf8Bytes serial).length < 2 ^ 16
  | response peerId pubkey signature => peerId.length < 2 ^ 16 ∧ pubkey.length < 2 ^ 16 ∧ signature.length < 2 ^ 16
  | notFound => True
  | error message => (utf8Bytes message).length < 2 ^ 16

variable {msg : RegistryMessage}

theorem fits_of_encode_length (hlen : msg.encode.length < 2 ^ 16) : msg.Fits := by
  cases msg <;> simp only [encode, writeLenPrefixed, length_cons, length_append, beBytes_length, Fits] at hlen ⊢ <;>
    omega

theorem decodeFields_reads (hfits : msg.Fits) :
    ∃ tag bs, msg.encode = tag :: bs ∧ Reads (decodeFields tag) bs msg := by
  cases msg with
  | register serial peerId pubkey sig =>
    obtain ⟨hs, hp, hpu, hsi⟩ := hfits
    refine ⟨msgRegister, writeLenPrefixed (utf8Bytes serial) ++ (writeLenPrefixed peerId ++
      (writeLenPrefixed pubkey ++ (writeLenPrefixed sig ++ []))), by simp [encode], ?_⟩
    exact (readText_reads _ hs).bind ((readLenPrefixed_reads hp).bind
      ((readLenPrefixed_reads hpu).bind ((readLenPrefixed_reads hsi).bind (pure _))))
  | query serial =>
    refine ⟨msgQuery, writeLenPrefixed (utf8Bytes serial) ++ [], by simp [encode], ?_⟩
    exact (readText_reads _ hfits).bind (pure _)
  | response peerId pubkey sig =>
    obtain ⟨hp, hpu, hsi⟩ := hfits
    refine ⟨msgResponse, writeLenPrefixed peerId ++ (writeLenPrefixed pubkey ++
      (writeLenPrefixed sig ++ [])), by simp [encode], ?_⟩
    exact (readLenPrefixed_reads hp).bind ((readLenPrefixed_reads hpu).bind ((readLenPrefixed_reads hsi).bind (pure _)))
  | notFound => exact ⟨msgNotFound, [], rfl, pure notFound⟩
  | error message =>
    refine ⟨msgError, writeLenPrefixed (utf8Bytes message) ++ [], by simp [encode], ?_⟩
    exact (readText_reads _ hfits).bind (pure _)

theorem decodeBuf_reads (hfits : msg.Fits) : Reads decodeBuf msg.encode msg := by
  obtain ⟨tag, _, he, hf⟩ := decodeFields_reads hfits
  rw [he]
  exact (readTag_reads tag).bind hf

theorem decode_encode (hfits : msg.Fits) : decode msg.encode = .ok msg := by
  rw [decode, (decodeBuf_reads hfits).run_self]
  rfl

theorem decode_take_error (hfits : msg.Fits) {length : Nat}
    (hp : length < msg.encode.length) : ∃ e, decode (msg.encode.take length) = .error e := by
  obtain ⟨e, he⟩ := (decodeBuf_reads hfits).take_error decodeBuf_extends hp
  exact ⟨e, by rw [decode, he]; rfl⟩

/-! ### Reading a message off a stream -/

/-- Where a turn of a read loop leaves the bytes collected so far. -/
inductive ReadTurn where
  | again (buf : List UInt8)
  | finished (buf : List UInt8)

/-- One turn, after `read` returned `chunk`, which is empty at the end of the stream. `limit` is where
the loop gives up on a peer that sends garbage. -/
def readTurn (limit : Nat) (buf chunk : List UInt8) : ReadTurn :=
  if chunk = [] then .finished buf
  else if (decode (buf ++ chunk)).isOk then .finished (buf ++ chunk)
  else if limit ≤ (buf ++ chunk).length then .finished (buf ++ chunk)
  else .again (buf ++ chunk)

/-- The loop over what `read` returns: the bytes it ends with and the reads it did not make, or `none`
while it is waiting for the next read. -/
def readLoop (limit : Nat) (buf : List UInt8) : List (List UInt8) →
    Option (List UInt8 × List (List UInt8))
  | [] => none
  | chunk :: chunks =>
    match readTurn limit buf chunk with
    | .again buf => readLoop limit buf chunks
    | .finished buf => some (buf, chunks)

def relayReadLimit : Nat := 8192

def viewerReadLimit : Nat := 4096

section ReadLoop

variable {limit : Nat} (hlim : msg.encode.length ≤ limit) (hfits : msg.Fits)

include hlim hfits

theorem readTurn_again {buf chunk rest : List UInt8} (hs : buf ++ chunk ++ rest = msg.encode)
    (hc : chunk ≠ []) (hr : rest ≠ []) : readTurn limit buf chunk = .again (buf ++ chunk) := by
  have hlen : (buf ++ chunk).length + rest.length = msg.encode.length := by
    rw [← hs]
    exact length_append.symm
  have hpos := length_pos_of_ne_nil hr
  obtain ⟨_, he⟩ := decode_take_error hfits (show (buf ++ chunk).length < msg.encode.length by omega)
  rw [← hs, take_left] at he
  rw [readTurn, if_neg hc, he, if_neg (by simp [Except.toBool]), if_neg (by omega)]

variable {buf : List UInt8}

theorem readLoop_pieces {pieces : List (List UInt8)} (hpi : ∀ piece ∈ pieces, piece ≠ [])
    (hc : buf ++ pieces.flatten = msg.encode) (hn : pieces ≠ [])
    (later : List (List UInt8)) : readLoop limit buf (pieces ++ later) = some (msg.encode, later) := by
  induction pieces generalizing buf with
  | nil => exact absurd rfl hn
  | cons piece pieces ih =>
    have hpc := hpi piece mem_cons_self
    have hl : ∀ piece ∈ pieces, piece ≠ [] := fun p hp => hpi p (mem_cons_of_mem _ hp)
    rw [flatten_cons, ← append_assoc] at hc
    cases pieces with
    | nil =>
      rw [flatten_nil, append_nil] at hc
      rw [singleton_append, readLoop, readTurn, if_neg hpc, hc, decode_encode hfits]
      rfl
    | cons next pieces =>
      have hr : (next :: pieces).flatten ≠ [] := by
        rw [flatten_cons]
        exact append_ne_nil_of_left_ne_nil (hl next mem_cons_self) _
      rw [cons_append, readLoop, readTurn_again hlim hfits hc hpc hr]
      exact ih hl hc (cons_ne_nil _ _)

theorem readLoop_waits {pieces missing : List (List UInt8)} (hpi : ∀ piece ∈ pieces, piece ≠ [])
    (hc : buf ++ (pieces ++ missing).flatten = msg.encode)
    (hm : missing.flatten ≠ []) : readLoop limit buf pieces = none := by
  induction pieces generalizing buf with
  | nil => rfl
  | cons piece pieces ih =>
    have hpc := hpi piece mem_cons_self
    rw [cons_append, flatten_cons, ← append_assoc] at hc
    have hr : (pieces ++ missing).flatten ≠ [] := by
      rw [flatten_append]
      exact append_ne_nil_of_right_ne_nil _ hm
    rw [readLoop, readTurn_again hlim hfits hc hpc hr]
    exact ih (fun p hp => hpi p (mem_cons_of_mem _ hp)) hc

end ReadLoop

theorem encode_ne_nil (msg : RegistryMessage) : msg.encode ≠ [] := by cases msg <;> exact cons_ne_nil _ _

/-- A message that the relay accepts in length, cut into reads in any way: the relay's loop waits as
long as a read is missing, ends with the last one, whatever could be read after it, and has then
exactly the bytes of the message, which decode to it. No proper prefix of these bytes decodes. -/
theorem relay_readLoop_encode (msg : RegistryMessage) (hsize : msg.encode.length ≤ relayReadLimit)
    (pieces : List (List UInt8)) (hcut : pieces.flatten = msg.encode) (hpieces : ∀ piece ∈ pieces, piece ≠ [])
    (later : List (List UInt8)) : (∀ count < pieces.length, readLoop relayReadLimit [] (pieces.take count) = none) ∧
      readLoop relayReadLimit [] (pieces ++ later) = some (msg.encode, later) ∧
      decode msg.encode = .ok msg ∧
      ∀ count < msg.encode.length, ∃ e, decode (msg.encode.take count) = .error e := by
  have hfits : msg.Fits := fits_of_encode_length (by simp only [relayReadLimit] at hsize; omega)
  have hn : pieces ≠ [] := by
    rintro rfl
    exact msg.encode_ne_nil hcut.symm
  refine ⟨?_, ?_, decode_encode hfits, fun count hc => decode_take_error hfits hc⟩
  · intro count hc
    have hm : (pieces.drop count).flatten ≠ [] := by
      rw [drop_eq_getElem_cons hc, flatten_cons]
      exact append_ne_nil_of_left_ne_nil (hpieces _ (getElem_mem hc)) _
    exact readLoop_waits hsize hfits (fun piece hmem => hpieces piece (mem_of_mem_take hmem))
      (by rw [take_append_drop, hcut, nil_append]) hm
  · exact readLoop_pieces hsize hfits hpieces (by rw [nil_append, hcut]) hn later

/-- A query in two reads. -/
theorem relay_readLoop_query :
    readLoop relayReadLimit [] ([[2, 0], [2, 65, 49]] ++ [[7]]) = some ((query "A1").encode, [[7]]) :=
  (relay_readLoop_encode (query "A1") (by decide) [[2, 0], [2, 65, 49]] (by decide +kernel) (by decide) [[7]]).2.1

def fieldCount (tag : UInt8) : Nat :=
  if tag = msgRegister then 4 else if tag = msgResponse then 3 else if tag = msgQuery ∨ tag = msgError then 1 else 0

def trailing : List UInt8 → List UInt8
  | [] => []
  | tag :: fields => dropFields (fieldCount tag) fields

variable {buf rest : List UInt8} {text : String}

theorem readText_takes {invalid : RegistryDecodeError} (hr : (readText invalid).run buf = .ok (text, rest)) :
    buf = writeLenPrefixed (utf8Bytes text) ++ rest ∧ ∀ count, dropFields (count + 1) buf = dropFields count rest := by
  obtain ⟨_, _, hb, hr⟩ := run_bind_eq_ok hr
  split at hr
  · next ht =>
    cases hr
    rw [utf8Bytes_of_fromUtf8 ht]
    exact (readLenPrefixed_takes hb).2
  · cases hr

theorem keys_takes {build : List UInt8 → List UInt8 → List UInt8 → RegistryMessage}
    (hr : StateT.run (do
      let peerId ← readLenPrefixed
      let pubkey ← readLenPrefixed
      let sig ← readLenPrefixed
      pure (build peerId pubkey sig)) buf = .ok (msg, rest)) :
    ∃ peerId pubkey sig, msg = build peerId pubkey sig ∧
      buf = writeLenPrefixed peerId ++ (writeLenPrefixed pubkey ++ (writeLenPrefixed sig ++ rest)) ∧
      ∀ count, dropFields (count + 3) buf = dropFields count rest := by
  obtain ⟨peerId, _, hp, hr⟩ := run_bind_eq_ok hr
  obtain ⟨pubkey, _, hpu, hr⟩ := run_bind_eq_ok hr
  obtain ⟨sig, _, hs, hr⟩ := run_bind_eq_ok hr
  cases hr
  obtain ⟨-, hb, hafP⟩ := readLenPrefixed_takes hp
  obtain ⟨-, rfl, haP⟩ := readLenPrefixed_takes hpu
  obtain ⟨-, rfl, ha⟩ := readLenPrefixed_takes hs
  refine ⟨peerId, pubkey, sig, rfl, hb, fun count => ?_⟩
  rw [hafP, haP, ha]

theorem decodeFields_takes {tag : UInt8} (hr : (decodeFields tag).run buf = .ok (msg, rest)) :
    tag :: buf = msg.encode ++ rest ∧ trailing (tag :: buf) = rest := by
  unfold decodeFields at hr
  split_ifs at hr with hre hq hrs hn he
  · subst hre
    obtain ⟨serial, _, hs, hr⟩ := run_bind_eq_ok hr
    obtain ⟨hb, ha⟩ := readText_takes hs
    obtain ⟨peerId, pubkey, sig, rfl, rfl, hafK⟩ := keys_takes hr
    exact ⟨by simp [encode, hb], (ha 3).trans (hafK 0)⟩
  · subst hq
    obtain ⟨serial, _, hs, hr⟩ := run_bind_eq_ok hr
    cases hr
    obtain ⟨rfl, ha⟩ := readText_takes hs
    exact ⟨rfl, ha 0⟩
  · subst hrs
    obtain ⟨peerId, pubkey, sig, rfl, rfl, ha⟩ := keys_takes hr
    exact ⟨by simp [encode], ha 0⟩
  · subst hn
    cases hr
    exact ⟨rfl, rfl⟩
  · subst he
    obtain ⟨_, _, hm, hr⟩ := run_bind_eq_ok hr
    cases hr
    obtain ⟨rfl, ha⟩ := readText_takes hm
    exact ⟨rfl, ha 0⟩
  · cases hr

/-- Bytes that are accepted are the encoding of the message if and only if nothing follows its last field. -/
theorem encode_of_decode_iff (data : List UInt8) (msg : RegistryMessage) (hdecode : decode data = .ok msg) :
    msg.encode = data ↔ trailing data = [] := by
  rw [decode] at hdecode
  cases hr : decodeBuf.run data with
  | error =>
    rw [hr] at hdecode
    cases hdecode
  | ok =>
    rw [hr] at hdecode
    cases hdecode
    cases data with
    | nil => cases hr
    | cons =>
      obtain ⟨hd, ht⟩ := decodeFields_takes hr
      rw [ht, hd]
      exact self_eq_append_right

theorem encode_of_decode_response : (response [7] [8, 9] [6]).encode = [3, 0, 1, 7, 0, 2, 8, 9, 0, 1, 6] :=
  (encode_of_decode_iff [3, 0, 1, 7, 0, 2, 8, 9, 0, 1, 6] _ (by decide)).2 (by decide)

/-- What follows is dropped without a word. -/
theorem decode_trailing : decode [4, 0xff, 0] = .ok notFound ∧ notFound.encode ≠ [4, 0xff, 0] := ⟨rfl, by decide⟩

end RegistryMessage

/-! The two clients of the relay's registry. A camera signs its serial and its peer id and registers
them; a viewer asks for a serial and checks what the relay sends back. -/
open Identity

variable {PublicKey : Type} (identity : Identity PublicKey)

/-- What the camera with this key signs to register a serial. -/
def registrationPayload (key : PublicKey) (serial : String) : List UInt8 :=
  signPayload serial (identity.peerIdToBytes (identity.toPeerId key))

/-- What `register_camera_with_relay` sends. -/
def registerMessage (sign : List UInt8 → List UInt8) (key : PublicKey) (serial : String) : RegistryMessage :=
  .register serial (identity.peerIdToBytes (identity.toPeerId key)) (identity.encodeProtobuf key)
    (sign (registrationPayload identity key serial))

inductive QueryFailure where
  | openStream
  | io
  | noResponse
  | decode (e : RegistryDecodeError)
  | invalidPeerId
  | invalidPubkey
  | pubkeyMismatch
  | badSignature
  | notFound (serial : String)
  | relay (message : String)
  | unexpectedResponse
  deriving DecidableEq

/-- Everything that the relay decides: whether a stream can be opened and the query written, what the
reads return, and whether the stream breaks after them. -/
structure RelayBehaviour where
  opens : Bool
  accepts : Bool
  reads : List (List UInt8)
  breaks : Bool

def checkResponse (serial : String) : RegistryMessage → Except QueryFailure (PeerId × PublicKey)
  | .response peerId pubkey signature =>
    match identity.peerIdFromBytes peerId with
    | none => .error .invalidPeerId
    | some claimed =>
      match identity.tryDecodeProtobuf pubkey with
      | none => .error .invalidPubkey
      | some pk =>
        if identity.toPeerId pk ≠ claimed then .error .pubkeyMismatch
        else if !identity.verify pk (signPayload serial peerId) signature then
          .error .badSignature
        else .ok (claimed, pk)
  | .notFound => .error (.notFound serial)
  | .error message => .error (.relay message)
  | _ => .error .unexpectedResponse

def checkBytes (serial : String) (buf : List UInt8) : Except QueryFailure (PeerId × PublicKey) :=
  if buf = [] then .error .noResponse
  else
    match decode buf with
    | .error e => .error (.decode e)
    | .ok msg => checkResponse identity serial msg

/-- The query against a relay, or `none` while it waits for a read. -/
def queryRegistry (serial : String) (relay : RelayBehaviour) : Option (Except QueryFailure (PeerId × PublicKey)) :=
  if !relay.opens then some (.error .openStream)
  else if !relay.accepts then some (.error .io)
  else
    match readLoop viewerReadLimit [] relay.reads with
    | none => if relay.breaks then some (.error .io) else none
    | some (buf, _) => some (checkBytes identity serial buf)

/-! ### What an accepted answer says -/

variable {serial : String} {peer : PeerId} {key : PublicKey}

theorem checkResponse_eq_ok (hok : checkResponse identity serial msg = .ok (peer, key)) :
    ∃ peerId pubkey sig, msg = .response peerId pubkey sig ∧
      identity.peerIdFromBytes peerId = some peer ∧ identity.tryDecodeProtobuf pubkey = some key ∧
      identity.toPeerId key = peer ∧
      identity.verify key (signPayload serial peerId) sig := by
  cases msg with
  | response peerId pubkey sig =>
    simp only [checkResponse] at hok
    cases hc : identity.peerIdFromBytes peerId with
    | none => simp only [hc, reduceCtorEq] at hok
    | some claimed =>
      cases hpk : identity.tryDecodeProtobuf pubkey with
      | none => simp only [hc, hpk, reduceCtorEq] at hok
      | some pk =>
        simp only [hc, hpk] at hok
        split at hok
        · cases hok
        rename_i hm
        split at hok
        · cases hok
        rename_i hv
        cases hok
        exact ⟨peerId, pubkey, sig, rfl, hc, hpk, not_not.1 hm, by simpa using hv⟩
  | register => cases hok
  | query => cases hok
  | notFound => cases hok
  | error => cases hok

theorem queryRegistry_eq_ok {relay : RelayBehaviour}
    (hok : queryRegistry identity serial relay = some (.ok (peer, key))) :
    ∃ msg, checkResponse identity serial msg = .ok (peer, key) := by
  unfold queryRegistry at hok
  split at hok
  · cases hok
  split at hok
  · cases hok
  split at hok
  · split at hok <;> cases hok
  rename_i buf later hr
  have hc := Option.some.inj hok
  unfold checkBytes at hc
  split at hc
  · cases hc
  cases hd : decode buf with
  | error => simp only [hd, reduceCtorEq] at hc
  | ok msg =>
    simp only [hd] at hc
    exact ⟨msg, hc⟩

/-- The last byte below 128 and what follows it are found from the end. -/
theorem append_lastBelow_inj {front front' high high' : List UInt8} {last last' : UInt8} (hl : last < 128)
    (hl' : last' < 128) (hh : ∀ byte ∈ high, 128 ≤ byte) (hh' : ∀ byte ∈ high', 128 ≤ byte)
    (heq : front ++ last :: high = front' ++ last' :: high') : front = front' ∧ last = last' ∧ high = high' := by
  obtain ⟨mid, hf, hm⟩ | ⟨mid, hf, hm⟩ := append_eq_append_iff.1 heq <;> cases mid with
  | nil => simp_all
  | cons byte mid =>
    have hmem := (cons.inj hm).2
    first
    | exact absurd (hh last' (by simp [hmem])) (UInt8.not_le.2 hl')
    | exact absurd (hh' last (by simp [hmem])) (UInt8.not_le.2 hl)

/-- The code of a peer id begins with no byte that a character goes on with. -/
theorem eq_nil_of_text_append {text text' : String} {mid rest code : List UInt8} (peer : PeerId)
    (hv : VarintForm peer.multihash.code code) (htext : utf8Bytes text' = utf8Bytes text ++ mid)
    (hmid : code = mid ++ rest) (hhigh : ∀ byte ∈ mid, 128 ≤ byte) : mid = [] := by
  cases mid with
  | nil => rfl
  | cons byte mid =>
    obtain ⟨-, -, -, -, -, hlow⟩ := hv
    have hlo := hlow byte (by simp [hmid])
    have hhi : 128 ≤ byte.toNat := UInt8.le_iff_toNat_le.1 (hhigh byte mem_cons_self)
    have hlt := byte.toNat_lt
    have hbyte : byte = 0x92 ∨ byte = 0x80 := by
      rw [← UInt8.toNat_inj, ← UInt8.toNat_inj]
      obtain hcode | ⟨hcode, -⟩ := peer.valid
      all_goals
        rw [hcode] at hlo
        simp only [multihashSha256Code, multihashIdentityCode] at hlo
        simp only [UInt8.reduceToNat]
        omega
    have hfirst := isUTF8FirstByte_of_append htext
    obtain rfl | rfl := hbyte <;> exact absurd hfirst (by decide)

/-- What is signed for a peer is the bytes of one serial and of one form of the peer id, without anything
between them to tell where the one ends. -/
theorem signPayload_injective (hlayout : identity.Layout) {serial' : String} {raw raw' : List UInt8}
    (hr : identity.peerIdFromBytes raw = some peer) (hr' : identity.peerIdFromBytes raw' = some peer)
    (heq : signPayload serial raw = signPayload serial' raw') : serial = serial' ∧ raw = raw' := by
  obtain ⟨_, _, hv, ⟨sizes, size, rfl, hs, hss, -⟩, rfl⟩ := hlayout _ _ (identity.multihash_of_peerIdFromBytes hr)
  obtain ⟨_, _, hv', ⟨sizes', size', rfl, hs', hss', -⟩, rfl⟩ :=
    hlayout _ _ (identity.multihash_of_peerIdFromBytes hr')
  obtain ⟨codes, code, rfl, hc, hcs, -⟩ := id hv
  obtain ⟨codes', code', rfl, hc', hcs', -⟩ := id hv'
  have hdigest : utf8Bytes serial ++ codes ++ code :: sizes ++ [size] =
      utf8Bytes serial' ++ codes' ++ code' :: sizes' ++ [size'] := by
    refine append_cancel_right (?_ : _ ++ peer.multihash.digest = _)
    simpa [signPayload] using heq
  obtain ⟨hsizes, hsize⟩ := append_inj' hdigest rfl
  obtain ⟨hcodes, rfl, rfl⟩ := append_lastBelow_inj hc hc' hss hss' hsizes
  cases hsize
  -- One of the texts is the other and a part of the code, unless both parts are empty.
  obtain ⟨mid, hm, rfl⟩ | ⟨mid, hm, rfl⟩ := append_eq_append_iff.1 hcodes
  · obtain rfl := eq_nil_of_text_append peer hv hm (append_assoc _ _ _)
      fun byte hmem => hcs byte (mem_append_left _ hmem)
    exact ⟨utf8Bytes_injective (by simpa using hm.symm), rfl⟩
  · obtain rfl := eq_nil_of_text_append peer hv' hm (append_assoc _ _ _)
      fun byte hmem => hcs' byte (mem_append_left _ hmem)
    exact ⟨utf8Bytes_injective (by simpa using hm), rfl⟩

/-- Whatever the relay does, a query that succeeds returns a peer whose key has signed the serial followed by
bytes of that peer id, under the one key that the peer id belongs to. What was signed says the same of no other
serial, and a holder whose signatures are the registrations of some serials is never found under a serial that
is not among them. -/
theorem queryRegistry_sound (signed : PublicKey → List UInt8 → Prop) (hunforgeable : identity.Unforgeable signed)
    (hkey : identity.KeyBound) (hlawful : identity.Lawful) (hlayout : identity.Layout) (serial : String)
    (relay : RelayBehaviour) (peer : PeerId) (key : PublicKey)
    (hok : queryRegistry identity serial relay = some (.ok (peer, key))) :
    (∀ holder, identity.toPeerId holder = peer ↔ holder = key) ∧
      ∃ raw, identity.peerIdFromBytes raw = some peer ∧ signed key (signPayload serial raw) ∧
        (∀ serial' raw', identity.peerIdFromBytes raw' = some peer →
          signPayload serial' raw' = signPayload serial raw → serial' = serial ∧ raw' = raw) ∧
        ∀ serials : List String,
          (∀ msg, signed key msg → ∃ serial' ∈ serials, msg = registrationPayload identity key serial') →
          serial ∈ serials ∧ raw = identity.peerIdToBytes peer := by
  obtain ⟨_, hc⟩ := queryRegistry_eq_ok identity hok
  obtain ⟨raw, _, sig, -, hcl, -, rfl, hv⟩ := checkResponse_eq_ok identity hc
  have hs := hunforgeable key _ sig hv
  refine ⟨fun holder => ⟨hkey holder key, fun heq => heq ▸ rfl⟩, raw, hcl, hs,
    fun serial' raw' hr' heq => signPayload_injective identity hlayout hr' hcl heq, ?_⟩
  intro _ hse
  obtain ⟨serial', hmem, hp⟩ := hse _ hs
  obtain ⟨rfl, hraw⟩ := signPayload_injective identity hlayout hcl (hlawful.parses _) hp
  exact ⟨hmem, hraw⟩

/-- The camera with key 7 has registered "A1" and nothing else; the relay sends its registration in
two pieces. -/
theorem queryRegistry_sound_small : ∃ peer, queryRegistry (small [(7, [65, 49, 0, 1, 7])]) "A1"
        ⟨true, true, [[3, 0, 3, 0], [1, 7, 0, 1, 7, 0, 1, 7]], false⟩ = some (.ok (peer, 7)) ∧
      ∃ raw, (7, signPayload "A1" raw) ∈ [((7 : UInt8), [65, 49, 0, 1, 7])] ∧
        "A1" ∈ ["A1"] ∧ raw = (small [(7, [65, 49, 0, 1, 7])]).peerIdToBytes peer := by
  refine ⟨(small [(7, [65, 49, 0, 1, 7])]).toPeerId 7, by decide +kernel, ?_⟩
  obtain ⟨-, raw, -, hs, -, hserials⟩ := queryRegistry_sound (small [(7, [65, 49, 0, 1, 7])])
    (fun key msg => (key, msg) ∈ [((7 : UInt8), [65, 49, 0, 1, 7])]) (small_unforgeable _)
    (small_keyBound _) (small_lawful _) (small_layout _) "A1"
    ⟨true, true, [[3, 0, 3, 0], [1, 7, 0, 1, 7, 0, 1, 7]], false⟩
    ((small [(7, [65, 49, 0, 1, 7])]).toPeerId 7) 7 (by decide +kernel)
  refine ⟨raw, hs, hserials ["A1"] ?_⟩
  intro msg hm
  refine ⟨"A1", List.mem_singleton_self _, ?_⟩
  rw [(Prod.mk.inj (List.mem_singleton.1 hm)).2]
  decide +kernel

end RustLibp2p.Camera
