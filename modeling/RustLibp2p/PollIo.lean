import Mathlib.Logic.Basic

/-! Polling one end of a byte stream. The transport answers every call as a schedule says: it can be
pending, take or give only a part of what is asked for, and it reports the end of the stream once the
other end was dropped and everything is read. -/

namespace RustLibp2p.PollIo
open List

inductive Poll (α : Type) where
  | pending
  | ready (value : α)
  deriving DecidableEq

inductive IoError where
  | unexpectedEof
  | invalidData (message : String)
  | writeZero (message : String)
  | brokenPipe
  | other (message : String)
  /-- The call does not return: it panics. -/
  | panicked
  deriving DecidableEq

/-- The transport's answer to one call. A call that is ready moves up to `extra + 1` bytes. Writes to an end
that was dropped may be taken, answered with zero bytes, or fail. -/
inductive Answer where
  | pending
  | ready (extra : Nat)
  | zero
  | broken

/-- One end of a stream during a poll: what has arrived, whether the other end was dropped, what the
transport took and holds back, what it passed on to the other end since the poll began, and how the next
calls are answered. There are no more answers when the transport is pending from then on. -/
structure Port where
  incoming : List UInt8
  remoteDropped : Bool
  held : List UInt8
  passed : List UInt8
  answers : List Answer

namespace Port

section

variable (port : Port) (len : Nat)

def pollRead : Poll (Except IoError (List UInt8)) × Port :=
  match port.answers with
  | [] => (.pending, port)
  | .ready extra :: answers =>
    if port.incoming = [] then
      if port.remoteDropped then (.ready (.ok []), { port with answers := answers })
      else (.pending, { port with answers := answers })
    else
      (.ready (.ok (port.incoming.take (min (extra + 1) len))),
        { port with incoming := port.incoming.drop (min (extra + 1) len), answers := answers })
  | _ :: answers => (.pending, { port with answers := answers })

def pollWrite (bytes : List UInt8) : Poll (Except IoError Nat) × Port :=
  match port.answers with
  | [] => (.pending, port)
  | .ready extra :: answers =>
    (.ready (.ok (min (extra + 1) bytes.length)),
      { port with held := port.held ++ bytes.take (min (extra + 1) bytes.length), answers := answers })
  | .zero :: answers => (if port.remoteDropped then .ready (.ok 0) else .pending, { port with answers := answers })
  | .broken :: answers =>
    (if port.remoteDropped then .ready (.error .brokenPipe) else .pending, { port with answers := answers })
  | .pending :: answers => (.pending, { port with answers := answers })

/-- When a flush is ready the transport holds nothing back. -/
def pollFlush : Poll (Except IoError Unit) × Port :=
  match port.answers with
  | [] => (.pending, port)
  | .ready _ :: answers =>
    (.ready (.ok ()), { port with held := [], passed := port.passed ++ port.held, answers := answers })
  | _ :: answers => (.pending, { port with answers := answers })

def Served : Prop := ∃ extra answers, port.answers = .ready extra :: answers

theorem not_served {port : Port} {ans : List Answer} (ha : port.answers = ans)
    (hr : ∀ extra rest, ans ≠ .ready extra :: rest) : ¬ port.Served :=
  fun ⟨extra, rest, hs⟩ => hr extra rest (ha.symm.trans hs)

theorem pollRead_cases :
    (∃ answers, port.pollRead len = (.pending, { port with answers }) ∧
        answers.length ≤ port.answers.length ∧
        (port.Served → port.incoming = [] ∧ port.remoteDropped = false)) ∨
    (∃ answers, port.pollRead len = (.ready (.ok []), { port with answers }) ∧
        answers.length < port.answers.length ∧
        (0 < len → port.incoming = [] ∧ port.remoteDropped)) ∨
    ∃ byte bs rest answers, port.pollRead len = (.ready (.ok (byte :: bs)), { port with incoming := rest, answers }) ∧
        answers.length < port.answers.length ∧ port.incoming = byte :: bs ++ rest ∧
        (byte :: bs).length ≤ len := by
  unfold pollRead
  cases ha : port.answers with
  | nil =>
    exact .inl ⟨port.answers, rfl, Nat.le_of_eq (congrArg length ha), fun hs => absurd hs (not_served ha nofun)⟩
  | cons ans answers =>
    have hl : answers.length < (ans :: answers).length := Nat.lt_succ_self _
    cases ans with
    | ready extra =>
      dsimp only
      by_cases he : port.incoming = []
      · rw [if_pos he]
        cases hd : port.remoteDropped with
        | true => exact .inr (.inl ⟨answers, by simp [← hd], hl, fun _ => ⟨he, rfl⟩⟩)
        | false => exact .inl ⟨answers, by simp [← hd], Nat.le_of_lt hl, fun _ => ⟨he, rfl⟩⟩
      · rw [if_neg he]
        have hsp := (take_append_drop (min (extra + 1) len) port.incoming).symm
        cases hc : port.incoming.take (min (extra + 1) len) with
        | nil =>
          rw [hc, nil_append] at hsp
          refine .inr (.inl ⟨answers, by rw [← hsp], hl, fun hlen => absurd hc ?_⟩)
          rw [take_eq_nil_iff, not_or]
          exact ⟨by omega, he⟩
        | cons byte bs =>
          rw [hc] at hsp
          refine .inr (.inr ⟨byte, bs, _, answers, rfl, hl, hsp, ?_⟩)
          rw [← hc, length_take]
          omega
    | _ =>
      refine .inl ⟨answers, rfl, Nat.le_of_lt hl, fun hs => absurd hs ?_⟩
      exact not_served ha nofun

theorem pollWrite_cases {bs : List UInt8} (hb : bs ≠ []) :
    (∃ answers, port.pollWrite bs = (.pending, { port with answers }) ∧
        answers.length ≤ port.answers.length ∧ ¬ port.Served) ∨
    (∃ res answers, port.pollWrite bs = (.ready res, { port with answers }) ∧
        answers.length < port.answers.length ∧ ¬ port.Served ∧ port.remoteDropped ∧
        (res = .ok 0 ∨ res = .error .brokenPipe)) ∨
    ∃ taken rest answers, port.pollWrite bs =
          (.ready (.ok taken.length), { port with held := port.held ++ taken, answers }) ∧
        answers.length < port.answers.length ∧ bs = taken ++ rest ∧ taken ≠ [] := by
  unfold pollWrite
  cases ha : port.answers with
  | nil => exact .inl ⟨port.answers, rfl, Nat.le_of_eq (congrArg length ha), not_served ha nofun⟩
  | cons ans answers =>
    have hl : answers.length < (ans :: answers).length := Nat.lt_succ_self _
    cases ans with
    | pending => exact .inl ⟨answers, rfl, Nat.le_of_lt hl, not_served ha nofun⟩
    | ready extra =>
      have ht : (bs.take (min (extra + 1) bs.length)).length = min (extra + 1) bs.length := by
        rw [length_take]
        omega
      refine .inr (.inr ⟨bs.take (min (extra + 1) bs.length), _, answers, by rw [ht], hl,
        (take_append_drop _ _).symm, ?_⟩)
      have hpos := length_pos_iff.2 hb
      rw [ne_eq, take_eq_nil_iff, not_or]
      exact ⟨by omega, hb⟩
    | zero | broken =>
      have han := not_served ha nofun
      cases hd : port.remoteDropped with
      | true => exact .inr (.inl ⟨_, answers, rfl, hl, han, rfl, by simp⟩)
      | false => exact .inl ⟨answers, by simp [← hd], Nat.le_of_lt hl, han⟩

theorem pollFlush_cases : (∃ answers, port.pollFlush = (.pending, { port with answers }) ∧
        answers.length ≤ port.answers.length ∧ ¬ port.Served) ∨
    ∃ answers, port.pollFlush =
          (.ready (.ok ()), { port with held := [], passed := port.passed ++ port.held, answers }) ∧
        answers.length < port.answers.length := by
  unfold pollFlush
  cases ha : port.answers with
  | nil => exact .inl ⟨port.answers, rfl, Nat.le_of_eq (congrArg length ha), not_served ha nofun⟩
  | cons ans answers =>
    have hl : answers.length < (ans :: answers).length := Nat.lt_succ_self _
    cases ans with
    | ready => exact .inr ⟨answers, rfl, hl⟩
    | _ => exact .inl ⟨answers, rfl, Nat.le_of_lt hl, not_served ha nofun⟩

end
end Port

/-- One turn of a loop: go on with another state, or return. -/
inductive Turn (σ ρ : Type) where
  | next (state : σ)
  | stop (result : ρ)

variable {σ ρ : Type}

/-- At most `fuel` turns. -/
def loop (body : σ → Turn σ ρ) : Nat → σ → Option ρ
  | 0, _ => none
  | fuel + 1, state =>
    match body state with
    | .next state => loop body fuel state
    | .stop result => some result

section

variable (Inv : σ → Prop) (Post : ρ → Prop) (measure : σ → Nat)

/-- What a turn may come to: it goes on with the invariant and a smaller measure, or it returns. -/
def Turn.Meets (bound : Nat) : Turn σ ρ → Prop
  | .next state => Inv state ∧ measure state < bound
  | .stop result => Post result

/-- A loop whose turns keep an invariant and decrease a measure returns, and returns what a turn with the
invariant may return. -/
theorem loop_spec {body : σ → Turn σ ρ}
    (hb : ∀ st, Inv st → (body st).Meets Inv Post measure (measure st)) {fuel : Nat} {st : σ}
    (hs : Inv st) (hf : measure st < fuel) (default : ρ) : Post ((loop body fuel st).getD default) := by
  induction fuel generalizing st with
  | zero => exact absurd hf (Nat.not_lt_zero _)
  | succ fuel ih =>
    have hm := hb st hs
    unfold loop
    cases ht : body st with
    | next =>
      rw [ht] at hm
      exact ih hm.1 (Nat.lt_of_lt_of_le hm.2 (Nat.le_of_lt_succ hf))
    | stop =>
      rw [ht] at hm
      exact hm

end
end RustLibp2p.PollIo
