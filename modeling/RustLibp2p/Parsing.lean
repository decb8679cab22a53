import Mathlib.Data.List.Basic

/-! Parsers that take a value off the front of a buffer and may fail. A parser that succeeded does the
same when more input follows; a parser reads an encoding if it takes exactly its bytes. Both compose,
and together they make an encoding self-delimiting. -/

namespace RustLibp2p.Parsing

variable {ε β α γ : Type}

/-- The value and the unread rest of the buffer, or what was wrong with the buffer. -/
abbrev Parser (ε β α : Type) := StateT (List β) (Except ε) α

/-- Input that follows does not change what was read. -/
def Extends (parser : Parser ε β α) : Prop :=
  ∀ buffer value rest more, parser.run buffer = .ok (value, rest) →
    parser.run (buffer ++ more) = .ok (value, rest ++ more)

/-- The parser takes exactly these bytes for this value, whatever follows them. -/
def Reads (parser : Parser ε β α) (bytes : List β) (value : α) : Prop :=
  ∀ more, parser.run (bytes ++ more) = .ok (value, more)

variable {parser : Parser ε β α} {next : α → Parser ε β γ} {value : γ} {bytes : List β}

theorem run_bind_eq_ok {buffer rest : List β} (hrun : (parser >>= next).run buffer = .ok (value, rest)) :
    ∃ first middle, parser.run buffer = .ok (first, middle) ∧ (next first).run middle = .ok (value, rest) := by
  cases hf : parser.run buffer with
  | error =>
    rw [StateT.run_bind, hf] at hrun
    cases hrun
  | ok pair =>
    rw [StateT.run_bind, hf] at hrun
    exact ⟨pair.1, pair.2, rfl, hrun⟩

theorem Extends.pure (value : α) : Extends (Pure.pure value : Parser ε β α) := by
  intro _ _ _ _ hrun
  cases hrun
  rfl

theorem Extends.throw (e : ε) : Extends (MonadExcept.throw e : Parser ε β α) := by
  intro _ _ _ _ hrun
  cases hrun

theorem Extends.bind (hp : Extends parser) (hn : ∀ value, Extends (next value)) : Extends (parser >>= next) := by
  intro _ _ _ more hrun
  obtain ⟨first, _, hf, hs⟩ := run_bind_eq_ok hrun
  rw [StateT.run_bind, hp _ _ _ more hf]
  exact hn first _ _ _ more hs

theorem Reads.pure (value : α) : Reads (Pure.pure value : Parser ε β α) [] value := fun _ => rfl

variable {first : α}

theorem Reads.bind {bytes' : List β} (hp : Reads parser bytes first)
    (hn : Reads (next first) bytes' value) : Reads (parser >>= next) (bytes ++ bytes') value := by
  intro more
  rw [StateT.run_bind, List.append_assoc, hp]
  exact hn more

theorem Reads.check (hp : Reads parser [] first) (hn : Reads (next first) bytes value) :
    Reads (parser >>= next) bytes value :=
  Reads.bind hp hn

theorem Reads.bind_check (hp : Reads parser bytes first) (hn : Reads (next first) [] value) :
    Reads (parser >>= next) bytes value := by
  have hr := Reads.bind hp hn
  rwa [List.append_nil] at hr

theorem Reads.map {value : α} (hp : Reads parser bytes value) (f : α → γ) : Reads (f <$> parser) bytes (f value) := by
  intro _
  rw [StateT.run_map, hp]
  rfl

theorem Reads.run_self {value : α} (hr : Reads parser bytes value) : parser.run bytes = .ok (value, []) := by
  have hrun := hr []
  rwa [List.append_nil] at hrun

theorem Reads.take_error (he : Extends parser) {value : α} (hr : Reads parser bytes value) {length : Nat}
    (hp : length < bytes.length) : ∃ e, parser.run (bytes.take length) = .error e := by
  cases hea : parser.run (bytes.take length) with
  | error e => exact ⟨e, rfl⟩
  | ok pair =>
    have hw := he _ _ _ (bytes.drop length) hea
    rw [List.take_append_drop, hr.run_self] at hw
    have hre : [] = pair.2 ++ bytes.drop length := congrArg Prod.snd (Except.ok.inj hw)
    have hd := List.drop_eq_nil_iff.1 (List.append_eq_nil_iff.1 hre.symm).2
    omega

end RustLibp2p.Parsing
