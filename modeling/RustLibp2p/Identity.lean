import Mathlib.Data.List.Basic

/-! Peer identities. A peer id is the multihash of the peer's encoded public key: the encoded key
itself where it is short, its SHA-256 digest otherwise. Keys, their encoding, signatures, the digest
and the byte form of a multihash come from other crates; they are the fields of `Identity`. -/

namespace RustLibp2p

/-- A multihash with room for 64 bytes. -/
structure Multihash where
  code : Nat
  digest : List UInt8
  size_le : digest.length ≤ 64
  deriving DecidableEq

def maxInlineKeyLength : Nat := 42
def multihashIdentityCode : Nat := 0
def multihashSha256Code : Nat := 0x12

/-- The multihashes a peer id may be. -/
def Multihash.IsPeerId (multihash : Multihash) : Prop :=
  multihash.code = multihashSha256Code ∨
    (multihash.code = multihashIdentityCode ∧ multihash.digest.length ≤ maxInlineKeyLength)

instance (multihash : Multihash) : Decidable multihash.IsPeerId := inferInstanceAs (Decidable (_ ∨ _))

structure PeerId where
  multihash : Multihash
  valid : multihash.IsPeerId
  deriving DecidableEq

def PeerId.fromMultihash (multihash : Multihash) : Option PeerId :=
  if hvalid : multihash.IsPeerId then some ⟨multihash, hvalid⟩ else none

/-- What is taken from other crates. -/
structure Identity (PublicKey : Type) where
  encodeProtobuf : PublicKey → List UInt8
  tryDecodeProtobuf : List UInt8 → Option PublicKey
  verify : PublicKey → (msg sig : List UInt8) → Bool
  sha256 : List UInt8 → { digest : List UInt8 // digest.length = 32 }
  multihashFromBytes : List UInt8 → Option Multihash
  multihashToBytes : Multihash → List UInt8

namespace Identity

variable {PublicKey : Type} (identity : Identity PublicKey)

/-- `PeerId::from_public_key`. -/
def toPeerId (key : PublicKey) : PeerId :=
  let keyEnc := identity.encodeProtobuf key
  if hinline : keyEnc.length ≤ maxInlineKeyLength then
    ⟨⟨multihashIdentityCode, keyEnc, Nat.le_trans hinline (by decide)⟩, .inr ⟨rfl, hinline⟩⟩
  else
    let digest := identity.sha256 keyEnc
    ⟨⟨multihashSha256Code, digest.1, Nat.le_trans (Nat.le_of_eq digest.2) (by decide)⟩, .inl rfl⟩

def peerIdFromBytes (data : List UInt8) : Option PeerId := (identity.multihashFromBytes data).bind PeerId.fromMultihash

def peerIdToBytes (peer : PeerId) : List UInt8 := identity.multihashToBytes peer.multihash

/-- The bytes of a number as the multihash crate reads it: only the last one has no continuation bit, and the
first one has the low seven bits of the number. They may be more than the number needs. -/
def VarintForm (value : Nat) (bytes : List UInt8) : Prop :=
  ∃ front last, bytes = front ++ [last] ∧ last < 128 ∧ (∀ byte ∈ front, 128 ≤ byte) ∧
    ∀ byte ∈ bytes.head?, byte.toNat % 128 = value % 128

/-- What is parsed as a multihash is its code, the length of its digest and the digest. -/
def Layout : Prop :=
  ∀ data multihash, identity.multihashFromBytes data = some multihash →
    ∃ code size, VarintForm multihash.code code ∧ VarintForm multihash.digest.length size ∧
      data = code ++ size ++ multihash.digest

/-- A peer id belongs to one key. -/
def KeyBound : Prop := ∀ key key', identity.toPeerId key = identity.toPeerId key' → key = key'

/-- Only a message that the holder of the key has signed has a signature that verifies. -/
def Unforgeable (signed : PublicKey → List UInt8 → Prop) : Prop :=
  ∀ key msg sig, identity.verify key msg sig = true → signed key msg

/-- A signature is valid for one message only. -/
def BindsSignatures : Prop :=
  ∀ key msg msg' sig, identity.verify key msg sig = true → identity.verify key msg' sig = true → msg = msg'

/-- What the multihash crate promises of the byte form of peer ids: a peer id is parsed from its own bytes, and
no bytes are no peer id. -/
structure Lawful : Prop where
  parses : ∀ peer, identity.peerIdFromBytes (identity.peerIdToBytes peer) = some peer
  nonempty : identity.peerIdFromBytes [] = none

theorem multihash_of_peerIdFromBytes {data : List UInt8} {peer : PeerId}
    (hpe : identity.peerIdFromBytes data = some peer) : identity.multihashFromBytes data = some peer.multihash := by
  obtain ⟨multihash, hm, hv⟩ := Option.bind_eq_some_iff.1 hpe
  unfold PeerId.fromMultihash at hv
  split at hv
  · cases hv
    exact hm
  · cases hv

/-- Identities to compute with: a key is a byte and is encoded as itself, a signature of a message in
`signatures` is the key, and the numbers of a multihash take one byte. -/
def small (signatures : List (UInt8 × List UInt8)) : Identity UInt8 where
  encodeProtobuf key := [key]
  tryDecodeProtobuf
    | [key] => some key
    | _ => none
  verify key msg sig := decide ((key, msg) ∈ signatures) && sig == [key]
  sha256 _ := ⟨List.replicate 32 0, rfl⟩
  multihashFromBytes
    | code :: size :: digest =>
      if hsize : code < 128 ∧ size.toNat = digest.length ∧ digest.length ≤ 64 then
        some ⟨code.toNat, digest, hsize.2.2⟩
      else none
    | _ => none
  multihashToBytes multihash :=
    UInt8.ofNat multihash.code :: UInt8.ofNat multihash.digest.length :: multihash.digest

theorem varintForm_singleton {byte : UInt8} (hb : byte < 128) : VarintForm byte.toNat [byte] :=
  ⟨[], byte, rfl, hb, by simp, by simp⟩

section

variable (signatures : List (UInt8 × List UInt8))
include signatures

theorem small_layout : (small signatures).Layout := by
  intro data _ hp
  simp only [small] at hp
  split at hp
  · rename_i code size digest
    split at hp
    · rename_i hsize
      cases hp
      have hlt : size < 128 := by
        rw [UInt8.lt_iff_toNat_lt, hsize.2.1]
        exact Nat.lt_of_le_of_lt hsize.2.2 (by decide)
      exact ⟨[code], [size], varintForm_singleton hsize.1, hsize.2.1 ▸ varintForm_singleton hlt, rfl⟩
    · cases hp
  · cases hp

theorem small_keyBound : (small signatures).KeyBound := by
  intro key key' heq
  have hd : [key] = [key'] := congrArg (fun peer => peer.multihash.digest) heq
  exact (List.cons.inj hd).1

theorem small_unforgeable : (small signatures).Unforgeable fun key msg => (key, msg) ∈ signatures := by
  intro _ _ _ hv
  simp only [small, Bool.and_eq_true, decide_eq_true_eq] at hv
  exact hv.1

theorem small_lawful : (small signatures).Lawful where
  parses := by
    rintro ⟨⟨code, digest, hs⟩, hv⟩
    have hc : (UInt8.ofNat code).toNat = code ∧ UInt8.ofNat code < 128 := by
      obtain rfl | ⟨rfl, -⟩ := hv <;> decide
    have hlen : (UInt8.ofNat digest.length).toNat = digest.length := by
      rw [UInt8.toNat_ofNat']
      omega
    have hp : (small signatures).multihashFromBytes
        (UInt8.ofNat code :: UInt8.ofNat digest.length :: digest) = some ⟨code, digest, hs⟩ := by
      simp only [small, hc.1]
      exact dif_pos ⟨hc.2, hlen, hs⟩
    show ((small signatures).multihashFromBytes
      (UInt8.ofNat code :: UInt8.ofNat digest.length :: digest)).bind _ = _
    rw [hp, Option.bind_some, PeerId.fromMultihash, dif_pos hv]
  nonempty := rfl

end

theorem small_bindsSignatures (sig : UInt8 × List UInt8) : (small [sig]).BindsSignatures := by
  intro _ _ _ _ hm hm'
  simp only [small, Bool.and_eq_true, decide_eq_true_eq, List.mem_singleton] at hm hm'
  exact congrArg Prod.snd (hm.1.trans hm'.1.symm)

end Identity
end RustLibp2p
