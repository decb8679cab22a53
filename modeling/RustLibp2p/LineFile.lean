import Mathlib.Data.List.Basic

/-! A text file that is read line by line through a buffer of fixed size, changed in one line and written back whole.
`nl` is the symbol that ends a line and `cap` the number of symbols the buffer takes. -/

namespace RustLibp2p.LineFile
open List

section Reading

variable {α : Type} {nl : α} {cap : Nat}

/-- What one read gives in the middle of a text: the line end stands last or the buffer is full. -/
structure Complete (nl : α) (cap : Nat) (line : List α) : Prop where
  nonempty : line ≠ []
  inner : nl ∉ line.dropLast
  fits : line.length ≤ cap
  ends : line.getLast? = some nl ∨ line.length = cap

theorem complete_take {body : List α} (hb : nl ∉ body) (hc : 0 < cap) :
    Complete nl cap ((body ++ [nl]).take cap) where
  nonempty := by
    rw [Ne, take_eq_nil_iff]
    rintro (hz | hnil)
    · omega
    · simp at hnil
  inner := by
    intro hmem
    have hs : min (((body ++ [nl]).take cap).length - 1) cap ≤ body.length := by
      rw [length_take, length_append, length_singleton]
      omega
    rw [dropLast_eq_take, take_take, take_append_of_le_length hs] at hmem
    exact hb (mem_of_mem_take hmem)
  fits := length_take_le _ _
  ends := by
    by_cases hf : body.length + 1 ≤ cap
    · left
      rw [take_of_length_le (by simpa using hf)]
      simp
    · right
      rw [length_take, length_append, length_singleton]
      omega

variable [DecidableEq α]

/-- The lines that reading to the end of `text` gives, one buffer at a time. `buf` is what the current buffer holds:
it is handed out behind a line end, when it is full, and at the end of the text if it holds anything. -/
def readLines (nl : α) (cap : Nat) : List α → List α → List (List α)
  | buf, [] => if buf = [] then [] else [buf]
  | buf, c :: text =>
    if c = nl ∨ buf.length + 1 = cap then (buf ++ [c]) :: readLines nl cap [] text
    else readLines nl cap (buf ++ [c]) text

theorem readLines_append {rest : List α} (hr : rest ≠ []) (text : List α) :
    ∀ buf : List α, Complete nl cap (buf ++ rest) →
      readLines nl cap buf (rest ++ text) = (buf ++ rest) :: readLines nl cap [] text := by
  induction rest with
  | nil => exact absurd rfl hr
  | cons c rest ih =>
    intro buf hl
    rw [cons_append, readLines]
    by_cases hla : rest = []
    · subst hla
      have he : c = nl ∨ buf.length + 1 = cap := by simpa [getLast?_append] using hl.ends
      rw [if_pos he, nil_append]
    have hi : c ≠ nl := by
      intro heq
      apply hl.inner
      rw [dropLast_append_of_ne_nil (by simp), dropLast_cons_of_ne_nil hla, heq]
      simp
    have hro : buf.length + 1 ≠ cap := by
      have hf := hl.fits
      have hpos := length_pos_iff.2 hla
      simp only [length_append, length_cons] at hf
      omega
    rw [if_neg (by tauto), ih hla (buf ++ [c]) (by simpa using hl)]
    simp

theorem readLines_flatten {lines : List (List α)} (hl : ∀ line ∈ lines, Complete nl cap line) :
    readLines nl cap [] lines.flatten = lines := by
  induction lines with
  | nil => simp [readLines]
  | cons line lines ih =>
    have hli := hl line mem_cons_self
    rw [flatten_cons, readLines_append hli.nonempty _ [] hli, nil_append,
      ih fun other ho => hl other (mem_cons_of_mem _ ho)]

end Reading

section Editing

variable {α : Type} {p q : α → Bool} {new : α}

/-- The first element that `p` accepts becomes `new`. -/
def setFirst (p : α → Bool) (new : α) : List α → List α
  | [] => []
  | line :: lines => if p line then new :: lines else line :: setFirst p new lines

/-- Put `new` in the place of the first element that `p` accepts, or behind the last one while there is room. -/
def put (p : α → Bool) (new : α) (room : Nat) (lines : List α) : List α :=
  if lines.any p then setFirst p new lines
  else if lines.length < room then lines ++ [new]
  else lines

variable {lines : List α} {room : Nat} {line : α} {β : Type} {f : α → β}

theorem mem_setFirst (hl : line ∈ setFirst p new lines) : line = new ∨ line ∈ lines := by
  induction lines with
  | nil => simp [setFirst] at hl
  | cons head lines ih =>
    rw [setFirst] at hl
    split at hl
    · rcases mem_cons.1 hl with heq | hmem
      · exact .inl heq
      · exact .inr (mem_cons_of_mem _ hmem)
    · rcases mem_cons.1 hl with heq | hmem
      · exact .inr (mem_cons.2 (.inl heq))
      · exact (ih hmem).imp_right (mem_cons_of_mem _)

theorem mem_put (hl : line ∈ put p new room lines) : line = new ∨ line ∈ lines := by
  unfold put at hl
  split_ifs at hl
  · exact mem_setFirst hl
  · rcases mem_append.1 hl with hmem | hmem
    · exact .inr hmem
    · exact .inl (mem_singleton.1 hmem)
  · exact .inr hl

theorem find?_setFirst (ha : lines.any p) (hnew : p new) : (setFirst p new lines).find? p = some new := by
  induction lines with
  | nil => simp at ha
  | cons line lines ih =>
    rw [setFirst]
    by_cases hl : p line
    · rw [if_pos hl, find?_cons_of_pos hnew]
    · rw [if_neg hl, find?_cons_of_neg hl]
      exact ih (by simpa [hl] using ha)

theorem find?_put (hr : lines.any p ∨ lines.length < room) (hnew : p new) :
    (put p new room lines).find? p = some new := by
  unfold put
  by_cases ha : lines.any p
  · rw [if_pos ha]
    exact find?_setFirst ha hnew
  have hn : lines.find? p = none := by
    rw [find?_eq_none]
    intro line hl hp
    exact ha (any_eq_true.2 ⟨line, hl, hp⟩)
  rw [if_neg ha, if_pos (hr.resolve_left ha), find?_append, hn, Option.none_or, find?_cons_of_pos hnew]

section

variable (hdis : ∀ line, p line → q line = false) (hnew : q new = false)
include hdis hnew

theorem find?_setFirst_of_disjoint : (setFirst p new lines).find? q = lines.find? q := by
  induction lines with
  | nil => rfl
  | cons line lines ih =>
    rw [setFirst]
    by_cases hl : p line
    · rw [if_pos hl, find?_cons_of_neg (by simp [hnew]), find?_cons_of_neg (by simp [hdis line hl])]
    · rw [if_neg hl, find?_cons, find?_cons, ih]

theorem find?_put_of_disjoint : (put p new room lines).find? q = lines.find? q := by
  unfold put
  split_ifs
  · exact find?_setFirst_of_disjoint hdis hnew
  · simp [hnew]
  · rfl

end

theorem map_setFirst (hp : ∀ line ∈ lines, p line → f line = f new) : (setFirst p new lines).map f = lines.map f := by
  induction lines with
  | nil => rfl
  | cons line lines ih =>
    rw [setFirst]
    split_ifs with hl
    · rw [map_cons, map_cons, hp line mem_cons_self hl]
    · rw [map_cons, map_cons, ih fun other ho => hp other (mem_cons_of_mem _ ho)]

theorem nodup_map_put (hp : ∀ line ∈ lines, p line ↔ f line = f new)
    (hn : (lines.map f).Nodup) : ((put p new room lines).map f).Nodup := by
  unfold put
  by_cases ha : lines.any p
  · rw [if_pos ha, map_setFirst fun line hl => (hp line hl).1]
    exact hn
  rw [if_neg ha]
  split_ifs
  · rw [map_append, map_singleton, nodup_append]
    refine ⟨hn, pairwise_singleton _ _, ?_⟩
    intro _ hna _ hna' heq
    obtain ⟨line, hl, rfl⟩ := mem_map.1 hna
    rw [mem_singleton.1 hna'] at heq
    exact ha (any_eq_true.2 ⟨line, hl, (hp line hl).2 heq⟩)
  · exact hn

end Editing
end RustLibp2p.LineFile
