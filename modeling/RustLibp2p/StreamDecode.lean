import Mathlib.Data.List.Basic

/-! Decoding a byte stream that arrives in pieces. For a streaming decoder the items do not depend on
where the input was cut: what has been decoded stays decoded when more bytes arrive, and the undecoded
rest is carried over. -/

namespace RustLibp2p.StreamDecode
open List

variable {β α σ : Type}

/-- One item and the unread rest of the buffer, or `none` while the buffer holds no whole item. -/
abbrev Decoder (β α : Type) := List β → Option (α × List β)

/-- More input never changes an item that was already complete, and every item uses up input. -/
structure Streaming (decode : Decoder β α) : Prop where
  extend : ∀ {buffer item rest} (more : List β), decode buffer = some (item, rest) →
    decode (buffer ++ more) = some (item, rest ++ more)
  consume : ∀ {buffer item rest}, decode buffer = some (item, rest) → rest.length < buffer.length

/-- The loop `while let Some(item) = decode(&mut buffer) { body }`, whose body may break. The fuel
bounds the number of turns; `buffer.length` of it is always enough for a streaming decoder. -/
def drainLoop (decode : Decoder β α) (body : σ → α → σ × Bool) : Nat → σ → List β → σ × List β
  | 0, state, buffer => (state, buffer)
  | fuel + 1, state, buffer =>
    match decode buffer with
    | none => (state, buffer)
    | some (item, rest) =>
      match body state item with
      | (next, true) => drainLoop decode body fuel next rest
      | (next, false) => (next, rest)

def drain (decode : Decoder β α) (body : σ → α → σ × Bool) (state : σ) (buffer : List β) : σ × List β :=
  drainLoop decode body buffer.length state buffer

/-- All items that can be taken off the buffer, and what is left. -/
def decodeAll (decode : Decoder β α) (buffer : List β) : List α × List β :=
  drain decode (fun items item => (items ++ [item], true)) [] buffer

section Loop

variable {decode : Decoder β α} {body : σ → α → σ × Bool} {buffer : List β}

theorem drainLoop_none (hn : decode buffer = none) (fuel : Nat) (st : σ) :
    drainLoop decode body fuel st buffer = (st, buffer) := by
  cases fuel with
  | zero => rfl
  | succ => rw [drainLoop, hn]

theorem drain_none (hn : decode buffer = none) (st : σ) : drain decode body st buffer = (st, buffer) :=
  drainLoop_none hn _ st

theorem drainLoop_fuel (hdec : Streaming decode) (fuel other : Nat) (st : σ)
    (buffer : List β) (hf : buffer.length ≤ fuel) (ho : buffer.length ≤ other) :
    drainLoop decode body fuel st buffer = drainLoop decode body other st buffer := by
  induction fuel generalizing other st buffer with
  | zero =>
    have hn : decode buffer = none := by
      cases hi : decode buffer with
      | none => rfl
      | some =>
        have := hdec.consume hi
        omega
    rw [drainLoop_none hn, drainLoop_none hn]
  | succ fuel ih =>
    cases hi : decode buffer with
    | none => rw [drainLoop_none hi, drainLoop_none hi]
    | some pair =>
      obtain ⟨item, rest⟩ := pair
      have hs := hdec.consume hi
      obtain ⟨other, rfl⟩ : ∃ n, other = n + 1 := ⟨other - 1, by omega⟩
      simp [drainLoop, hi]
      cases hb : body st item with
      | mk next continues =>
        cases continues with
        | false => rfl
        | true => exact ih other next rest (by omega) (by omega)

theorem drain_some (hdec : Streaming decode) {rest : List β} {item : α}
    (hi : decode buffer = some (item, rest)) (st : σ) :
    drain decode body st buffer = match body st item with
      | (next, true) => drain decode body next rest
      | (next, false) => (next, rest) := by
  have hs := hdec.consume hi
  obtain ⟨fuel, hf⟩ : ∃ n, buffer.length = n + 1 := ⟨buffer.length - 1, by omega⟩
  rw [drain, hf]
  simp [drainLoop, hi]
  cases hb : body st item with
  | mk next continues =>
    cases continues with
    | false => rfl
    | true => exact drainLoop_fuel hdec fuel _ next rest (by omega) (Nat.le_refl _)

end Loop

section Streaming

variable {decode : Decoder β α} (hdec : Streaming decode)

include hdec

variable {body : σ → α → σ × Bool}

section Encoded

variable (body) {encode : α → List β} {items : List α}
  (henc : ∀ item ∈ items, ∀ more, decode (encode item ++ more) = some (item, more))
include henc

/-- The loop handles the first items, those that were there as a whole unless the body breaks, and leaves
the encodings of the others. -/
theorem drain_encoded (st : σ) {buffer fut : List β} (hb : buffer ++ fut = items.flatMap encode) :
    ∃ handled left, items = handled ++ left ∧
      (drain decode body st buffer).1 = handled.foldl (fun st item => (body st item).1) st ∧
      (drain decode body st buffer).2 ++ fut = left.flatMap encode ∧
      ((∀ st item, (body st item).2) → decode (drain decode body st buffer).2 = none) := by
  induction items generalizing st buffer with
  | nil =>
    obtain ⟨rfl, -⟩ := append_eq_nil_iff.1 hb
    refine ⟨[], [], rfl, rfl, hb, fun _ => ?_⟩
    cases hnil : decode [] with
    | none => exact hnil
    | some => exact absurd (hdec.consume hnil) (Nat.not_lt_zero _)
  | cons item items ih =>
    cases hi : decode buffer with
    | none =>
      rw [drain_none hi]
      exact ⟨[], item :: items, rfl, rfl, hb, fun _ => hi⟩
    | some pair =>
      have hw := hdec.extend fut hi
      rw [hb, flatMap_cons, henc item mem_cons_self] at hw
      obtain ⟨rfl, hr⟩ := Prod.mk.inj (Option.some.inj hw)
      rw [drain_some hdec hi]
      split
      · next next hbo =>
        obtain ⟨handled, left, rfl, hs, hl⟩ := ih (forall_mem_of_forall_mem_cons henc) next hr.symm
        refine ⟨pair.1 :: handled, left, rfl, ?_, hl⟩
        rw [hs, foldl_cons, hbo]
      · next hbo =>
        refine ⟨[pair.1], items, rfl, ?_, hr.symm, fun hgo => ?_⟩
        · rw [foldl_cons, hbo, foldl_nil]
        · have hbr := hgo st pair.1
          rw [hbo] at hbr
          cases hbr

/-- The same for a buffer that is filled and drained again and again. -/
theorem foldl_drain_encoded (pieces : List (List β)) (st : σ) {carry : List β}
    (hc : (∀ st item, (body st item).2) → decode carry = none)
    (hb : carry ++ pieces.flatten = items.flatMap encode) : ∃ handled left, items = handled ++ left ∧ ∃ rest,
      pieces.foldl (fun cur piece => drain decode body cur.1 (cur.2 ++ piece)) (st, carry) =
        (handled.foldl (fun st item => (body st item).1) st, rest) ∧ rest = left.flatMap encode ∧
      ((∀ st item, (body st item).2) → decode rest = none) := by
  induction pieces generalizing st carry items with
  | nil => exact ⟨[], items, rfl, carry, rfl, by simpa using hb, hc⟩
  | cons piece pieces ih =>
    rw [flatten_cons, ← append_assoc] at hb
    obtain ⟨first, left, rfl, hs, hl, hn⟩ := drain_encoded hdec body henc st hb
    obtain ⟨handled, left, rfl, rest, hf, hr⟩ :=
      ih (fun item hmem => henc item (mem_append_right _ hmem)) _ hn hl
    refine ⟨first ++ handled, left, (append_assoc _ _ _).symm, rest, ?_, hr⟩
    rw [foldl_cons, hf, hs, foldl_append]

end Encoded

theorem drain_flatMap_encode (hb : ∀ st item, (body st item).2) (encode : α → List β) (items : List α)
    (henc : ∀ item ∈ items, ∀ more, decode (encode item ++ more) = some (item, more)) (st : σ) (more : List β) :
    drain decode body st (items.flatMap encode ++ more) =
      drain decode body (items.foldl (fun st item => (body st item).1) st) more := by
  induction items generalizing st with
  | nil => rfl
  | cons item items ih =>
    have hi := henc item mem_cons_self (items.flatMap encode ++ more)
    rw [flatMap_cons, append_assoc, drain_some hdec hi]
    have hgo := hb st item
    cases hn : body st item with
    | mk next =>
      rw [hn] at hgo
      subst hgo
      simp [foldl_cons, hn]
      exact ih (fun item hmem => henc item (mem_cons_of_mem _ hmem)) next

theorem decodeAll_flatMap_encode (encode : α → List β) (items : List α)
    (henc : ∀ item ∈ items, ∀ more, decode (encode item ++ more) = some (item, more)) (tail : List β)
    (ht : decode tail = none) : decodeAll decode (items.flatMap encode ++ tail) = (items, tail) := by
  rw [decodeAll, drain_flatMap_encode hdec (fun _ _ => rfl) encode items henc, drain_none ht]
  rw [foldl_append_eq_append, nil_append, ← flatMap_def, flatMap_singleton']

theorem decode_take_eq_none {bs : List β} {item : α} (hw : decode bs = some (item, []))
    {length : Nat} (hp : length < bs.length) : decode (bs.take length) = none := by
  cases hi : decode (bs.take length) with
  | none => rfl
  | some pair =>
    obtain ⟨_, rest⟩ := pair
    have he := hdec.extend (bs.drop length) hi
    rw [take_append_drop, hw] at he
    have hr : rest ++ bs.drop length = [] := (congrArg Prod.snd (Option.some.inj he)).symm
    have hd := drop_eq_nil_iff.1 (append_eq_nil_iff.1 hr).2
    omega

end Streaming

section Fallible

variable {ε ι : Type}

/-- One item and the unread rest, `none` while the buffer holds no whole item, or what was wrong with it. -/
abbrev FallibleDecoder (ε β α : Type) := List β → Except ε (Option (α × List β))

/-- The items that the buffer holds and what is left, up to the first error. The fuel bounds their number. -/
def takeAll (decode : FallibleDecoder ε β α) : Nat → List β → Except ε (List α × List β)
  | 0, buffer => .ok ([], buffer)
  | fuel + 1, buffer =>
    match decode buffer with
    | .error e => .error e
    | .ok none => .ok ([], buffer)
    | .ok (some (item, rest)) => (takeAll decode fuel rest).map fun output => (item :: output.1, output.2)

/-- Pieces of the input, each added to what the buffer still holds. -/
def feed (decode : FallibleDecoder ε β α) : List β → List (List β) → Except ε (List α × List β)
  | buffer, [] => .ok ([], buffer)
  | buffer, piece :: pieces =>
    match takeAll decode ((buffer ++ piece).length + 1) (buffer ++ piece) with
    | .error e => .error e
    | .ok (items, rest) => (feed decode rest pieces).map fun output => (items ++ output.1, output.2)

/-- How many of the first `received` bytes belong to no frame that has arrived as a whole. -/
def unfinished : List (List β) → Nat → Nat
  | [], received => received
  | frame :: frames, received =>
    if frame.length ≤ received then unfinished frames (received - frame.length) else received

/-- No piece ever meets so much of an unfinished frame that the two are more than `limit`; `received` bytes have
come before these pieces. -/
def PiecesFit (limit : Nat) (frames : List (List β)) : Nat → List (List β) → Prop
  | _, [] => True
  | received, piece :: pieces =>
    unfinished frames received + piece.length ≤ limit ∧ PiecesFit limit frames (received + piece.length) pieces

instance decidablePiecesFit (limit : Nat) (frames : List (List β)) (received : Nat) (pieces : List (List β)) :
    Decidable (PiecesFit limit frames received pieces) :=
  match pieces with
  | [] => inferInstanceAs (Decidable True)
  | piece :: pieces =>
    haveI := decidablePiecesFit limit frames (received + piece.length) pieces
    inferInstanceAs (Decidable (_ ∧ _))

/-- A decoder for frames that looks at no more than `limit` bytes at a time. -/
structure Limited (decode : FallibleDecoder ε β α) (limit : Nat) (frame : ι → List β) (item : ι → α) : Prop where
  empty : decode [] = .ok none
  nonempty : ∀ i, frame i ≠ []
  whole : ∀ i more, (frame i ++ more).length ≤ limit → decode (frame i ++ more) = .ok (some (item i, more))
  part : ∀ i part rest, frame i = part ++ rest → rest ≠ [] → part.length ≤ limit → decode part = .ok none
  tooMuch : ∀ buffer, limit < buffer.length → ∃ e, decode buffer = .error e

/-- What is in the buffer when the decoder asks for more: less than the next frame. -/
def Short (frame : ι → List β) : List ι → List β → Prop
  | [], buffer => buffer = []
  | i :: _, buffer => buffer.length < (frame i).length

theorem unfinished_append (frames more : List (List β)) (received : Nat) :
    unfinished (frames ++ more) (frames.flatten.length + received) = unfinished more received := by
  induction frames with
  | nil => rw [nil_append, flatten_nil, length_nil, Nat.zero_add]
  | cons frame frames ih =>
    rw [cons_append, unfinished, flatten_cons, length_append, if_pos (by omega), Nat.add_assoc,
      Nat.add_sub_cancel_left, ih]

theorem piecesFit_append (limit : Nat) (frames more : List (List β)) (recv : Nat) (pieces : List (List β)) :
    PiecesFit limit (frames ++ more) (frames.flatten.length + recv) pieces ↔
      PiecesFit limit more recv pieces := by
  induction pieces generalizing recv with
  | nil => exact Iff.rfl
  | cons piece pieces ih => rw [PiecesFit, PiecesFit, unfinished_append, Nat.add_assoc, ih]

variable {frame : ι → List β} {items : List ι} {buffer : List β} {decode : FallibleDecoder ε β α} {item : ι → α}

theorem Short.unfinished (hs : Short frame items buffer) :
    unfinished (items.map frame) buffer.length = buffer.length := by
  cases items with
  | nil => rfl
  | cons => rw [map_cons, unfinished, if_neg (Nat.not_le.2 hs)]

section

variable {limit : Nat} (hlii : Limited decode limit frame item)
include hlii

theorem Limited.takeAll_eq {more : List β} {fuel : Nat}
    (hb : buffer ++ more = (items.map frame).flatten) (hl : buffer.length ≤ limit)
    (hf : buffer.length < fuel) :
    ∃ done left rest, items = done ++ left ∧ buffer = (done.map frame).flatten ++ rest ∧ Short frame left rest ∧
      takeAll decode fuel buffer = .ok (done.map item, rest) := by
  induction items generalizing buffer fuel with
  | nil =>
    obtain ⟨rfl, -⟩ := append_eq_nil_iff.1 hb
    obtain ⟨fuel, rfl⟩ : ∃ n, fuel = n + 1 := ⟨fuel - 1, by omega⟩
    exact ⟨[], [], [], rfl, rfl, rfl, by rw [takeAll, hlii.empty]; rfl⟩
  | cons i items ih =>
    obtain ⟨fuel, rfl⟩ : ∃ n, fuel = n + 1 := ⟨fuel - 1, by omega⟩
    rw [map_cons, flatten_cons] at hb
    by_cases hw : (frame i).length ≤ buffer.length
    · -- the first frame is there, and the rest of the buffer is a shorter one
      obtain ⟨behind, rfl, hbe⟩ : ∃ behind, buffer = frame i ++ behind ∧
          behind ++ more = (items.map frame).flatten := by
        obtain ⟨behind, hs, hr⟩ | ⟨behind, hs, hr⟩ := append_eq_append_iff.1 hb
        · rw [hs, length_append] at hw
          obtain rfl : behind = [] := eq_nil_of_length_eq_zero (by omega)
          rw [append_nil] at hs
          exact ⟨[], by rw [hs, append_nil], hr⟩
        · exact ⟨behind, hs, hr.symm⟩
      have hpos := length_pos_of_ne_nil (hlii.nonempty i)
      rw [length_append] at hl hf
      obtain ⟨done, left, rest, rfl, rfl, hsh, ht⟩ :=
        ih hbe (show behind.length ≤ limit by omega) (show behind.length < fuel by omega)
      refine ⟨i :: done, left, rest, rfl, ?_, hsh, ?_⟩
      · rw [map_cons, flatten_cons, append_assoc]
      rw [takeAll, hlii.whole i _ (by rw [length_append]; exact hl)]
      dsimp only
      rw [ht]
      rfl
    · obtain ⟨rest, hs, -⟩ | ⟨behind, hs, -⟩ := append_eq_append_iff.1 hb
      · have hr : rest ≠ [] := by
          rintro rfl
          rw [append_nil] at hs
          exact hw (Nat.le_of_eq (congrArg List.length hs))
        refine ⟨[], i :: items, buffer, rfl, rfl, Nat.lt_of_not_le hw, ?_⟩
        rw [takeAll, hlii.part i buffer rest hs hr hl]
        rfl
      · rw [hs, length_append] at hw
        omega

/-- **Frames in pieces.** However the frames are cut into pieces, all items come out in order without an error
just if no piece takes the buffer over the limit. -/
theorem Limited.feed_eq_iff {pieces : List (List β)}
    (hb : buffer ++ pieces.flatten = (items.map frame).flatten) (hs : Short frame items buffer) :
    feed decode buffer pieces = .ok (items.map item, []) ↔ PiecesFit limit (items.map frame) buffer.length pieces := by
  induction pieces generalizing items buffer with
  | nil =>
    cases items with
    | nil =>
      have he : buffer = [] := hs
      subst he
      exact iff_of_true rfl trivial
    | cons i =>
      have hlen := congrArg List.length hb
      have hl : buffer.length < (frame i).length := hs
      simp only [flatten_nil, append_nil, map_cons, flatten_cons, length_append] at hlen
      omega
  | cons piece pieces ih =>
    rw [feed, PiecesFit, hs.unfinished, ← length_append]
    rw [flatten_cons, ← append_assoc] at hb
    by_cases ho : limit < (buffer ++ piece).length
    · obtain ⟨_, her⟩ := hlii.tooMuch _ ho
      rw [takeAll, her]
      exact iff_of_false nofun (fun h => Nat.not_le.2 ho h.1)
    have hli := Nat.le_of_not_lt ho
    obtain ⟨done, left, rest, rfl, hsp, hs', ht⟩ := hlii.takeAll_eq hb hli (Nat.lt_succ_self _)
    have hb' : rest ++ pieces.flatten = (left.map frame).flatten := by
      rw [hsp, append_assoc, map_append, flatten_append] at hb
      exact append_cancel_left hb
    have hr := ih hb' hs'
    have hp := piecesFit_append limit (done.map frame) (left.map frame) rest.length pieces
    rw [← length_append, ← hsp, ← map_append] at hp
    rw [ht, hp, ← hr]
    dsimp only
    constructor
    · intro hf
      refine ⟨hli, ?_⟩
      cases hn : feed decode rest pieces with
      | error =>
        rw [hn] at hf
        cases hf
      | ok out =>
        rw [hn] at hf
        have hou := Except.ok.inj hf
        rw [map_append] at hou
        have hi : out.1 = left.map item := append_cancel_left (congrArg Prod.fst hou)
        have he : out.2 = [] := congrArg Prod.snd hou
        exact congrArg Except.ok (Prod.ext hi he)
    · rintro ⟨-, hn⟩
      rw [hn, map_append]
      rfl

end
end Fallible
end RustLibp2p.StreamDecode
