import Mathlib.Data.List.Infix
import Mathlib.Data.List.TakeWhile
import RustLibp2p.MplexBlocking

/-! What the history of a connection says about one substream: the data the remote sent on it, and how far each
side has closed it. -/

namespace RustLibp2p.Mplex
open List Event

/-- What happened since the substream was opened. -/
def session (id : LocalStreamId) (history : List Event) : List Event :=
  (history.dropWhile fun event => event ≠ .opened id).tail

def Event.endsRemotely (id : LocalStreamId) (event : Event) : Bool :=
  event = .received (.close id) || event = .received (.reset id)

def Event.payload? (id : LocalStreamId) : Event → Option (List UInt8)
  | .received (.data streamId payload) => if streamId = id then some payload else none
  | _ => none

section

variable (id : LocalStreamId) (events : List Event)

/-- The data the remote sent before it closed or reset the substream. -/
def payloads : List (List UInt8) := (events.takeWhile fun event => !event.endsRemotely id).filterMap (payload? id)

def sentOn (history : List Event) : List (List UInt8) := payloads id (session id history)

def RemoteEnded : Prop := .received (.close id) ∈ events ∨ .received (.reset id) ∈ events

/-- The substream was reset, or closed by both sides. -/
def Finished : Prop := .received (.reset id) ∈ events ∨ .received (.close id) ∈ events ∧ .closed id ∈ events

/-- No `Reset` frame comes for a substream that was reset already, or closed by both sides. -/
def ResetInTime : Prop := ∀ before, before ++ [.received (.reset id)] <+: events → ¬ Finished id before

end

instance (id : LocalStreamId) (events : List Event) : Decidable (Finished id events) :=
  inferInstanceAs (Decidable (_ ∨ _))

instance (id : LocalStreamId) (events : List Event) : Decidable (RemoteEnded id events) :=
  inferInstanceAs (Decidable (_ ∨ _))

instance (id : LocalStreamId) (events : List Event) : Decidable (ResetInTime id events) :=
  decidable_of_iff (∀ before ∈ events.inits, before ++ [.received (.reset id)] <+: events → ¬ Finished id before)
    ⟨fun h before hpre => h before (List.mem_inits _ _ |>.mpr ((List.prefix_append _ _).trans hpre)) hpre,
      fun h before _ => h before⟩

variable {id : LocalStreamId} {history events : List Event} {event : Event}

theorem dropWhile_opened_eq_nil : history.dropWhile (fun event => event ≠ .opened id) = [] ↔ .opened id ∉ history := by
  rw [dropWhile_eq_nil_iff]
  constructor
  · exact fun hall ho => of_decide_eq_true (hall _ ho) rfl
  · exact fun hn event he => decide_eq_true fun heq => hn (heq ▸ he)

theorem session_eq_nil (hn : .opened id ∉ history) : session id history = [] := by
  rw [session, dropWhile_opened_eq_nil.2 hn, tail_nil]

theorem session_append (ho : .opened id ∈ history)
    (events : List Event) : session id (history ++ events) = session id history ++ events := by
  have hne : history.dropWhile (fun event => event ≠ .opened id) ≠ [] :=
    fun hnil => dropWhile_opened_eq_nil.1 hnil ho
  rw [session, List.dropWhile_append, if_neg (by rwa [List.isEmpty_iff]), List.tail_append_of_ne_nil hne, session]

theorem session_opened (hn : .opened id ∉ history) : session id (history ++ [.opened id]) = [] := by
  rw [session, dropWhile_append, dropWhile_opened_eq_nil.2 hn]
  simp

theorem session_mono {history' : List Event} (hp : history <+: history') :
    session id history <+: session id history' := by
  obtain ⟨_, rfl⟩ := hp
  by_cases ho : .opened id ∈ history
  · rw [session_append ho]
    exact prefix_append _ _
  · rw [session_eq_nil ho]
    exact nil_prefix

theorem endsRemotely_iff :
    event.endsRemotely id ↔ event = .received (.close id) ∨ event = .received (.reset id) := by
  rw [endsRemotely, Bool.or_eq_true, decide_eq_true_eq, decide_eq_true_eq]

theorem remoteEnded_iff : RemoteEnded id events ↔ ∃ event ∈ events, event.endsRemotely id := by
  constructor
  · rintro (hc | hr)
    · exact ⟨_, hc, endsRemotely_iff.2 (.inl rfl)⟩
    · exact ⟨_, hr, endsRemotely_iff.2 (.inr rfl)⟩
  rintro ⟨_, he, hen⟩
  rcases endsRemotely_iff.1 hen with rfl | rfl
  · exact .inl he
  · exact .inr he

theorem payload?_of_endsRemotely (he : event.endsRemotely id) : event.payload? id = none := by
  rcases endsRemotely_iff.1 he with rfl | rfl
  all_goals rfl

theorem payloads_append_of_ended (he : RemoteEnded id events)
    (later : List Event) : payloads id (events ++ later) = payloads id events := by
  rw [remoteEnded_iff] at he
  rw [payloads, payloads]
  congr 1
  induction events with
  | nil => exact absurd he (by simp)
  | cons event events ih =>
    rw [cons_append, takeWhile_cons, takeWhile_cons]
    split_ifs with hp
    · rw [ih]
      rw [exists_mem_cons_iff] at he
      refine he.resolve_left fun hen => ?_
      rw [hen] at hp
      cases hp
    · rfl

theorem payloads_snoc (ho : ¬ RemoteEnded id events)
    (event : Event) : payloads id (events ++ [event]) = payloads id events ++ (event.payload? id).toList := by
  have hp : ∀ e ∈ events, (!e.endsRemotely id) := by
    intro e he
    rw [Bool.not_eq_true', Bool.eq_false_iff]
    exact fun hen => ho (remoteEnded_iff.2 ⟨e, he, hen⟩)
  rw [payloads, payloads, takeWhile_append_of_pos hp, takeWhile_eq_self_iff.2 hp, filterMap_append]
  congr 1
  cases hen : event.endsRemotely id with
  | true => simp [hen, payload?_of_endsRemotely hen]
  | false => cases hpa : event.payload? id <;> simp [hen, hpa]

theorem remoteEnded_snoc :
    RemoteEnded id (events ++ [event]) ↔ RemoteEnded id events ∨ event.endsRemotely id := by
  rw [remoteEnded_iff, remoteEnded_iff]
  simp

theorem RemoteEnded.append (he : RemoteEnded id events) (later : List Event) : RemoteEnded id (events ++ later) :=
  he.imp (mem_append_left _) (mem_append_left _)

theorem sentOn_snoc (ho : .opened id ∈ history) (hop : ¬ RemoteEnded id (session id history)) (event : Event) :
    sentOn id (history ++ [event]) = sentOn id history ++ (event.payload? id).toList := by
  rw [sentOn, session_append ho, payloads_snoc hop, sentOn]

theorem sentOn_append_of_ended (ho : .opened id ∈ history) (he : RemoteEnded id (session id history))
    (later : List Event) : sentOn id (history ++ later) = sentOn id history := by
  rw [sentOn, session_append ho, payloads_append_of_ended he, sentOn]

/-- The event opens the substream, carries data of it or ends it. -/
def Event.concerns (id : LocalStreamId) : Event → Bool
  | .opened streamId => streamId = id
  | .received (.data streamId _) | .received (.close streamId) | .received (.reset streamId) => streamId = id
  | _ => false

section

variable (hoth : event.concerns id = false)
include hoth

theorem ne_opened_of_not_concerns : event ≠ .opened id := by
  rintro rfl
  simp [concerns] at hoth

theorem endsRemotely_of_not_concerns : event.endsRemotely id = false := by
  rw [Bool.eq_false_iff]
  intro he
  rcases endsRemotely_iff.1 he with rfl | rfl
  all_goals simp [concerns] at hoth

theorem payload?_of_not_concerns : event.payload? id = none := by
  unfold payload?
  split
  next payload =>
    rw [concerns, decide_eq_false_iff_not] at hoth
    rw [if_neg hoth]
  next => rfl

end

theorem sentOn_snoc_of_not_concerns (ho : .opened id ∈ history) (hoth : event.concerns id = false) : sentOn id
    (history ++ [event]) = sentOn id history := by
  by_cases he : RemoteEnded id (session id history)
  · exact sentOn_append_of_ended ho he _
  · rw [sentOn_snoc ho he, payload?_of_not_concerns hoth, Option.toList_none, append_nil]

/-! Delivery of data. What the reader of a substream got and what is buffered for it is, in order, what
the remote sent on it. -/

open SubstreamState

/-! ### The state of a substream and its history -/

/-- The events that brought a substream into its state. -/
def Explains (id : LocalStreamId) (events : List Event) : SubstreamState → Prop
  | .opened _ => ¬ RemoteEnded id events
  | .sendClosed _ => ¬ RemoteEnded id events ∧ .closed id ∈ events
  | .recvClosed _ => .received (.close id) ∈ events
  | .closed _ => .received (.close id) ∈ events ∧ .closed id ∈ events
  | .reset _ => .received (.reset id) ∈ events

namespace Explains

variable {state : SubstreamState}

section

variable (hexl : Explains id events state)
include hexl

theorem not_remoteEnded (ho : state.recvOpen) : ¬ RemoteEnded id events := by
  cases state with
  | opened => exact hexl
  | sendClosed => exact hexl.1
  | recvClosed | closed | reset => cases ho

theorem remoteEnded (hc : state.recvOpen = false) : RemoteEnded id events := by
  cases state with
  | opened | sendClosed => cases hc
  | recvClosed => exact .inl hexl
  | closed => exact .inl hexl.1
  | reset => exact .inr hexl

theorem withBuf (buf : RecvBuf) : Explains id events (state.withBuf buf) := by cases state <;> exact hexl

theorem snoc {event : Event} (hg : event.endsRemotely id = false) : Explains id (events ++ [event]) state := by
  have ho : ¬ RemoteEnded id events → ¬ RemoteEnded id (events ++ [event]) := by
    rw [remoteEnded_snoc, hg]
    simp
  cases state with
  | opened => exact ho hexl
  | sendClosed => exact ⟨ho hexl.1, mem_append_left _ hexl.2⟩
  | recvClosed | reset => exact mem_append_left _ hexl
  | closed => exact ⟨mem_append_left _ hexl.1, mem_append_left _ hexl.2⟩

theorem afterClose : Explains id (events ++ [.received (.close id)]) state.afterClose := by
  have hc : Event.received (.close id) ∈ events ++ [.received (.close id)] := by simp
  cases state with
  | opened | recvClosed => exact hc
  | sendClosed | closed => exact ⟨hc, mem_append_left _ hexl.2⟩
  | reset => exact mem_append_left _ hexl

theorem afterReset (ht : ¬ Finished id events) :
    state.afterReset = some (.reset state.recvBuf) ∧
      Explains id (events ++ [.received (.reset id)]) (.reset state.recvBuf) := by
  have hr : Explains id (events ++ [.received (.reset id)]) (.reset state.recvBuf) := by simp [Explains]
  cases state with
  | opened | sendClosed | recvClosed => exact ⟨rfl, hr⟩
  | closed => exact absurd (.inr hexl) ht
  | reset => exact absurd (.inl hexl) ht

end
end Explains

def delivered (id : LocalStreamId) (deliveries : List (LocalStreamId × List UInt8)) : List (List UInt8) :=
  deliveries.filterMap fun delivery => if delivery.1 = id then some delivery.2 else none

theorem delivered_append (id : LocalStreamId) (deliveries later : List (LocalStreamId × List UInt8)) :
    delivered id (deliveries ++ later) = delivered id deliveries ++ delivered id later :=
  filterMap_append

@[simp]
theorem delivered_self (id : LocalStreamId) (data : List UInt8) : delivered id [(id, data)] = [data] := by
  simp [delivered]

theorem delivered_of_ne {id id' : LocalStreamId} (hne : id' ≠ id) (data : List UInt8) :
    delivered id [(id', data)] = [] := by
  simp [delivered, hne]

variable {frame : RemoteFrame}

namespace Multiplexed

/-- What becomes of a connection: it is not opened again, and its history goes on. -/
structure Later (m m' : Multiplexed) : Prop where
  status : m'.status = .opened → m.status = .opened
  history : m.history <+: m'.history

theorem Later.refl (m : Multiplexed) : Later m m := ⟨fun h => h, List.prefix_rfl⟩

variable {m m' : Multiplexed}

theorem Later.trans {m'' : Multiplexed} (h : Later m m') (h' : Later m' m'') : Later m m'' :=
  ⟨h.status ∘ h'.status, h.history.trans h'.history⟩

variable {delivery : Option (LocalStreamId × List UInt8)}

theorem Quiet.later (hq : Quiet m m') : Later m m' := ⟨fun h => hq.status ▸ h, hq.history ▸ prefix_rfl⟩

theorem Failed.not_opened (hf : Failed m m') : m'.status ≠ .opened := by
  obtain ⟨_, he⟩ := hf.status
  rw [he]
  exact nofun

theorem Failed.later (hf : Failed m m') : Later m m' :=
  ⟨fun h => absurd h hf.not_opened, hf.history ▸ prefix_rfl⟩

theorem Took.later (htook : Took m frame m') : Later m m' :=
  ⟨fun h => htook.status ▸ h, htook.history ▸ prefix_append _ _⟩

theorem OnlySubstreams.later (ho : OnlySubstreams m m') : Later m m' :=
  ⟨fun h => ho.status ▸ h, ho.history ▸ prefix_rfl⟩

theorem later_move (hmo : Move m delivery m') : Later m m' := by
  cases hmo with
  | quiet hq => exact hq.later
  | fail hf => exact hf.later
  | opened htook _ ho =>
    refine htook.later.trans ?_
    cases ho with
    | failed _ hf => exact hf.later
    | refused hq => exact hq.later
    | accepted => exact ⟨fun h => h, prefix_append _ _⟩
  | buffered htook _ hb =>
    refine htook.later.trans ?_
    cases hb with
    | failed _ hf => exact hf.later
    | ignored => exact .refl _
    | kept | blocked => exact ⟨fun h => h, prefix_rfl⟩
    | overflowed _ _ hq =>
      refine ⟨fun h => hq.status ▸ h, ?_⟩
      exact List.IsPrefix.trans (hq.history ▸ prefix_rfl) (prefix_append _ _)
  | delivered htook => exact htook.later
  | closed htook => exact htook.later.trans (onlySubstreams_onClose ..).later
  | reset htook => exact htook.later.trans (onlySubstreams_onReset ..).later
  | read => exact ⟨fun h => h, prefix_rfl⟩
  | openOut | sendClose | sendCloseLast => exact ⟨fun h => h, prefix_append _ _⟩

/-- Nothing has happened that may lose data of the substream. -/
structure Undisturbed (id : LocalStreamId) (m : Multiplexed) : Prop where
  status : m.status = .opened
  dropped : .dropped id ∉ m.history
  overflowed : .overflowed id ∉ m.history
  reset : ResetInTime id (session id m.history)

theorem Undisturbed.before (hund : Undisturbed id m') (hl : Later m m') : Undisturbed id m where
  status := hl.status hund.status
  dropped hmem := hund.dropped (hl.history.subset hmem)
  overflowed hmem := hund.overflowed (hl.history.subset hmem)
  reset before hp := hund.reset before (hp.trans (session_mono hl.history))

/-- What was delivered and what is buffered is what the remote sent. -/
inductive Faithful (id : LocalStreamId) (given : List (List UInt8)) (m : Multiplexed) : Prop where
  | unopened (hget : m.substreams.get? id = none) (hnew : .opened id ∉ m.history) (hgiven : given = []) :
      Faithful id given m
  | opened {state : SubstreamState} (hget : m.substreams.get? id = some state) (hopened : .opened id ∈ m.history)
      (hexplains : Explains id (session id m.history) state)
      (hgiven : given ++ state.recvBuf = sentOn id m.history) : Faithful id given m

variable {given : List (List UInt8)} {st' : SubstreamState}

namespace Faithful

section

variable (hm : Faithful id given m)
include hm

theorem same (hg : m'.substreams.get? id = m.substreams.get? id)
    (hh : m'.history = m.history) : Faithful id given m' := by
  cases hm with
  | unopened hn hne hgi => exact .unopened (hg.trans hn) (hh ▸ hne) hgi
  | opened hsta ho hexl hgi =>
    rw [← hh] at ho hexl hgi
    exact .opened (hg.trans hsta) ho hexl hgi

theorem absent (hh : m'.history = m.history ++ [event])
    (hn : m.substreams.get? id = none) (hg : m'.substreams.get? id = none) (he : event ≠ .opened id) :
    Faithful id given m' := by
  cases hm with
  | unopened _ hne hgi =>
    refine .unopened hg ?_ hgi
    rw [hh, mem_append, mem_singleton, not_or]
    exact ⟨hne, he.symm⟩
  | opened hsta => cases hn.symm.trans hsta

theorem other (hh : m'.history = m.history ++ [event])
    (hg : m'.substreams.get? id = m.substreams.get? id) (ho : event.concerns id = false) :
    Faithful id given m' := by
  cases hm with
  | unopened hn hne hgi =>
    exact (unopened hn hne hgi).absent hh hn (hg.trans hn) (ne_opened_of_not_concerns ho)
  | opened hsta hop hexl hgi =>
    refine .opened (hg.trans hsta) (hh ▸ mem_append_left _ hop) ?_ ?_
    · rw [hh, session_append hop]
      exact hexl.snoc (endsRemotely_of_not_concerns ho)
    · rw [hh, sentOn_snoc_of_not_concerns hop ho]
      exact hgi

theorem start (hn : m.substreams.get? id = none)
    (hg : m'.substreams.get? id = some (.opened [])) (hh : m'.history = m.history ++ [.opened id]) :
    Faithful id given m' := by
  cases hm with
  | unopened _ hne hgi =>
    have hs := session_opened hne
    refine .opened hg (hh ▸ mem_append_right _ mem_cons_self) ?_ ?_
    · rw [hh, hs]
      simp [Explains, RemoteEnded]
    · rw [hgi, hh, sentOn, hs]
      rfl
  | opened hsta => cases hn.symm.trans hsta

theorem ignored {data : List UInt8} (hc : ∀ state, m.substreams.get? id = some state → state.recvOpen = false)
    (hg : m'.substreams.get? id = m.substreams.get? id)
    (hh : m'.history = m.history ++ [.received (.data id data)]) : Faithful id given m' := by
  cases hm with
  | unopened hn hne hgi => exact (unopened hn hne hgi).absent hh hn (hg.trans hn) nofun
  | opened hsta ho hexl hgi =>
    refine .opened (hg.trans hsta) (hh ▸ mem_append_left _ ho) ?_ ?_
    · rw [hh, session_append ho]
      exact hexl.snoc rfl
    · rw [hh, sentOn_append_of_ended ho (hexl.remoteEnded (hc _ hsta))]
      exact hgi

variable {state : SubstreamState} {buf : RecvBuf}

section

variable (hsta : m.substreams.get? id = some state)
include hsta

theorem data {data : List UInt8} {given' : List (List UInt8)} (ho : state.recvOpen)
    (hg : m'.substreams.get? id = some (state.withBuf buf))
    (hh : m'.history = m.history ++ [.received (.data id data)])
    (hgi : given' ++ buf = given ++ state.recvBuf ++ [data]) : Faithful id given' m' := by
  cases hm with
  | unopened hn => cases hn.symm.trans hsta
  | opened hs' hop hexl hs =>
    cases hsta.symm.trans hs'
    refine .opened hg (hh ▸ mem_append_left _ hop) ?_ ?_
    · rw [hh, session_append hop]
      exact (hexl.snoc rfl).withBuf buf
    · rw [hh, sentOn_snoc hop (hexl.not_remoteEnded ho), recvBuf_withBuf, hgi, hs]
      simp [Event.payload?]

theorem ended (hg : m'.substreams.get? id = some st')
    (hb : st'.recvBuf = state.recvBuf) (hh : m'.history = m.history ++ [event])
    (hp : event.payload? id = none)
    (he : Explains id (session id m.history) state → Explains id (session id m.history ++ [event]) st') :
    Faithful id given m' := by
  cases hm with
  | unopened hn => cases hn.symm.trans hsta
  | opened hs' ho hexl hgi =>
    cases hsta.symm.trans hs'
    refine .opened hg (hh ▸ mem_append_left _ ho) ?_ ?_
    · rw [hh, session_append ho]
      exact he hexl
    rw [hh, hb, hgi]
    by_cases hen : RemoteEnded id (session id m.history)
    · rw [sentOn_append_of_ended ho hen]
    · rw [sentOn_snoc ho hen, hp, Option.toList_none, append_nil]

theorem read {data : List UInt8} (hb : state.recvBuf = data :: buf)
    (hg : m'.substreams.get? id = some (state.withBuf buf)) (hh : m'.history = m.history) :
    Faithful id (given ++ [data]) m' := by
  cases hm with
  | unopened hn => cases hn.symm.trans hsta
  | opened hs' ho hexl hgi =>
    cases hsta.symm.trans hs'
    rw [← hh] at ho hexl hgi
    refine .opened hg ho (hexl.withBuf buf) ?_
    rw [recvBuf_withBuf, append_assoc, singleton_append, ← hb]
    exact hgi

end
end
end Faithful

variable {m₁ : Multiplexed} {frame : RemoteFrame} {streamId : RemoteStreamId} {state : SubstreamState}

section

variable (hm : Faithful id given m) (hund : Undisturbed id m') (htook : Took m frame m₁)
include hm hund htook

theorem faithful_opened {res : Except IoError (Option LocalStreamId)} (hf : frame.frame = .opened streamId)
    (ho : OpenCase m₁ streamId.intoLocal (res, m')) : Faithful id given m' := by
  have hm₁ : Faithful id given m₁ := hm.other (htook.received hf) (htook.lookup id) rfl
  cases ho with
  | failed _ hfa => exact absurd hund.status hfa.not_opened
  | refused hq => exact hm₁.same (hq.lookup id) hq.history
  | accepted hn =>
    by_cases heq : streamId.intoLocal = id
    · subst heq
      exact hm₁.start hn (get?_setSubstream_self ..) rfl
    · exact hm₁.other rfl (get?_setSubstream_of_ne _ (Ne.symm heq) _) (decide_eq_false heq)

theorem faithful_buffered {data : List UInt8} {res : Except IoError Unit}
    (hf : frame.frame = .data streamId data) (hb : BufferCase m₁ streamId.intoLocal data (res, m')) :
    Faithful id given m' := by
  have hh : m₁.history = m.history ++ [.received (.data streamId.intoLocal data)] := htook.received hf
  by_cases heq : streamId.intoLocal = id
  · subst heq
    have ht : ∀ {state}, m₁.substreams.get? streamId.intoLocal = some state → state.recvOpen →
        ∀ {m₂ : Multiplexed}, m₂.substreams.get? streamId.intoLocal = some (state.withBuf (state.recvBuf ++ [data])) →
          m₂.history = m₁.history → Faithful streamId.intoLocal given m₂ := by
      intro state hsta ho m₂ hg hs
      rw [htook.lookup] at hsta
      exact hm.data hsta ho hg (hs.trans hh) (append_assoc ..).symm
    cases hb with
    | failed _ hfa => exact absurd hund.status hfa.not_opened
    | ignored hc =>
      refine hm.ignored (fun state hsta => hc state ?_) (htook.lookup _) hh
      rw [htook.lookup, hsta]
    | kept hsta ho | blocked hsta ho => exact ht hsta ho (get?_setSubstream_self ..) rfl
    | overflowed => exact absurd (mem_append_right _ mem_cons_self) hund.overflowed
  · have hne : id ≠ streamId.intoLocal := Ne.symm heq
    have hm₁ := hm.other hh (htook.lookup id) (decide_eq_false heq)
    cases hb with
    | failed _ hfa => exact absurd hund.status hfa.not_opened
    | ignored => exact hm₁
    | kept | blocked => exact hm₁.same (get?_setSubstream_of_ne _ hne _) rfl
    | @overflowed _ _ _ m₂ hq =>
      have hm₂ : Faithful id given m₂ :=
        hm₁.same ((hq.lookup id).trans (get?_setSubstream_of_ne _ hne _)) hq.history
      exact hm₂.other rfl rfl rfl

end

theorem faithful_closed (hm : Faithful id given m) (htook : Took m frame m₁)
    (hf : frame.frame = .close streamId) : Faithful id given (m₁.onClose streamId.intoLocal) := by
  have hh : (m₁.onClose streamId.intoLocal).history = m.history ++ [.received (.close streamId.intoLocal)] := by
    rw [(onlySubstreams_onClose ..).history]
    exact htook.received hf
  have hg := get?_onClose m₁ streamId.intoLocal id
  rw [htook.substreams] at hg
  by_cases heq : id = streamId.intoLocal
  · subst heq
    rw [if_pos rfl] at hg
    cases hsta : m.substreams.get? streamId.intoLocal with
    | none =>
      rw [hsta] at hg
      exact hm.absent hh hsta hg nofun
    | some state =>
      rw [hsta] at hg
      exact hm.ended hsta hg (recvBuf_afterClose state) hh rfl Explains.afterClose
  · rw [if_neg heq] at hg
    exact hm.other hh hg (decide_eq_false (Ne.symm heq))

theorem faithful_reset (hm : Faithful id given m)
    (hund : Undisturbed id (m₁.onReset streamId.intoLocal)) (htook : Took m frame m₁)
    (hf : frame.frame = .reset streamId) : Faithful id given (m₁.onReset streamId.intoLocal) := by
  have hh : (m₁.onReset streamId.intoLocal).history = m.history ++ [.received (.reset streamId.intoLocal)] := by
    rw [(onlySubstreams_onReset ..).history]
    exact htook.received hf
  have hg := get?_onReset m₁ streamId.intoLocal id
  rw [htook.substreams] at hg
  by_cases heq : id = streamId.intoLocal
  · subst heq
    rw [if_pos rfl] at hg
    cases hm with
    | unopened hn hne hgi =>
      rw [hn] at hg
      exact (Faithful.unopened hn hne hgi).absent hh hn hg nofun
    | opened hsta ho hexl hgi =>
      -- A finished substream would be removed here, together with what is buffered for it.
      have ht : ¬ Finished streamId.intoLocal (session streamId.intoLocal m.history) := by
        apply hund.reset
        rw [hh, session_append ho]
      obtain ⟨ha, he'⟩ := hexl.afterReset ht
      rw [hsta, Option.bind_some, ha] at hg
      exact (Faithful.opened hsta ho hexl hgi).ended hsta hg rfl hh rfl fun _ => he'
  · rw [if_neg heq] at hg
    exact hm.other hh hg (decide_eq_false (Ne.symm heq))

theorem faithful_delivered {data : List UInt8}
    (hm : Faithful id given m) (htook : Took m frame m₁) (hf : frame.frame = .data streamId data)
    (hsta : m.substreams.get? streamId.intoLocal = some state) (ho : state.recvOpen)
    (hb : state.recvBuf = []) : Faithful id (given ++ delivered id [(streamId.intoLocal, data)]) m₁ := by
  have hh : m₁.history = m.history ++ [.received (.data streamId.intoLocal data)] := htook.received hf
  by_cases heq : streamId.intoLocal = id
  · subst heq
    have hg : m₁.substreams.get? streamId.intoLocal = some (state.withBuf []) := by
      rw [htook.lookup, hsta, ← hb, withBuf_recvBuf]
    rw [delivered_self]
    refine hm.data hsta ho hg hh ?_
    rw [hb, append_nil, append_nil]
  · rw [delivered_of_ne heq, append_nil]
    exact hm.other hh (htook.lookup id) (decide_eq_false heq)

variable {id' : LocalStreamId}

section

variable (hm : Faithful id given m) (hsta : m.substreams.get? id' = some state)
include hm hsta

theorem faithful_read {data : List UInt8} {buf : RecvBuf}
    (hb : state.recvBuf = data :: buf)
    (hg : m'.substreams.get? id = if id = id' then some (state.withBuf buf) else m.substreams.get? id)
    (hh : m'.history = m.history) : Faithful id (given ++ delivered id [(id', data)]) m' := by
  by_cases heq : id = id'
  · subst heq
    rw [if_pos rfl] at hg
    rw [delivered_self]
    exact hm.read hsta hb hg hh
  · rw [if_neg heq] at hg
    rw [delivered_of_ne (Ne.symm heq), append_nil]
    exact hm.same hg hh

theorem faithful_sendClose
    (hg : m'.substreams.get? id = if id = id' then some st' else m.substreams.get? id)
    (hh : m'.history = m.history ++ [.closed id']) (hb : st'.recvBuf = state.recvBuf)
    (he : ∀ events, Explains id' events state → Explains id' (events ++ [.closed id']) st') :
    Faithful id given m' := by
  by_cases heq : id = id'
  · subst heq
    rw [if_pos rfl] at hg
    exact hm.ended hsta hg hb hh rfl (he _)
  · rw [if_neg heq] at hg
    exact hm.other hh hg rfl

end

theorem faithful_move (hall : Allotted m) (hund : Undisturbed id m')
    (hm : Faithful id given m) (hmo : Move m delivery m') :
    Faithful id (given ++ delivered id delivery.toList) m' := by
  have hn : given ++ delivered id [] = given := append_nil given
  cases hmo with
  | quiet hq => exact hn.symm ▸ hm.same (hq.lookup id) hq.history
  | fail hf => exact absurd hund.status hf.not_opened
  | opened htook hfr ho => exact hn.symm ▸ faithful_opened hm hund htook hfr ho
  | buffered htook hfr hb => exact hn.symm ▸ faithful_buffered hm hund htook hfr hb
  | delivered htook hfr hsta ho hbu => exact faithful_delivered hm htook hfr hsta ho hbu
  | closed htook hfr => exact hn.symm ▸ faithful_closed hm htook hfr
  | reset htook hfr => exact hn.symm ▸ faithful_reset hm hund htook hfr
  | read hsta hbu => exact faithful_read hm hsta hbu (get?_setSubstream ..) rfl
  | openOut =>
    -- The new substream has a number that was not given before, so it replaces none.
    refine hn.symm ▸ ?_
    by_cases heq : m.nextOutboundStreamId = id
    · subst heq
      exact hm.start hall.fresh (get?_setSubstream_self ..) rfl
    · exact hm.other rfl (get?_setSubstream_of_ne _ (Ne.symm heq) _) (decide_eq_false heq)
  | sendClose hsta | sendCloseLast hsta =>
    refine hn.symm ▸ faithful_sendClose hm hsta (get?_setSubstream ..) rfl rfl fun events hexl => ?_
    exact ⟨hexl.snoc rfl, by simp⟩

end Multiplexed

/-! Delivery of data over whole runs: a reader that comes to the end of a substream has got all that the
remote sent on it. -/

open Transition

def Inbound.frame? : Inbound → Option (Frame LocalStreamId)
  | .frame remote => some remote.frame.intoLocal
  | .err _ => none
  | .eof => none

def Event.frame? : Event → Option (Frame LocalStreamId)
  | .received frame => some frame
  | _ => none

def MplexCall.arrivals : MplexCall → List (Option (Frame LocalStreamId))
  | .receive item => [item.frame?]
  | _ => []

/-- What the underlying stream got to be read. -/
def arrivals (inputs : List MplexInput) : List (Option (Frame LocalStreamId)) :=
  inputs.flatMap fun input => input.call.arrivals

namespace Multiplexed

/-- The frames that were dealt with, followed by what waits to be read. -/
def arrived (m : Multiplexed) : List (Option (Frame LocalStreamId)) :=
  (m.history.filterMap Event.frame?).map some ++ m.io.inbound.map Inbound.frame?

variable {m m' s : Multiplexed} {input : MplexInput} {output : MplexOutput} {given : List (List UInt8)}

theorem arrived_same (hh : m'.history = m.history) (hi : m'.io.inbound = m.io.inbound) : m'.arrived = m.arrived := by
  rw [arrived, arrived, hh, hi]

theorem arrived_note {ev : Event} (hh : m'.history = m.history ++ [ev])
    (hi : m'.io.inbound = m.io.inbound) (he : ev.frame? = none) : m'.arrived = m.arrived := by
  rw [arrived, arrived, hh, hi, filterMap_append]
  simp [he]

theorem Took.arrived (ht : Took m frame m') : m'.arrived = m.arrived := by
  rw [Multiplexed.arrived, Multiplexed.arrived, ht.history, ht.inbound, filterMap_append]
  simp [Event.frame?, Inbound.frame?]

theorem arrived_move {delivery : Option (LocalStreamId × List UInt8)}
    (hm : Move m delivery m') (hs : m'.status = .opened) : m'.arrived = m.arrived := by
  cases hm with
  | quiet hq => exact arrived_same hq.history hq.inbound
  | fail hf => exact absurd hs hf.not_opened
  | opened ht _ ho =>
    rw [← ht.arrived]
    cases ho with
    | failed _ hf => exact absurd hs hf.not_opened
    | refused hq => exact arrived_same hq.history hq.inbound
    | accepted => exact arrived_note rfl rfl rfl
  | @buffered _ _ _ streamId _ _ ht _ hb =>
    rw [← ht.arrived]
    cases hb with
    | failed _ hf => exact absurd hs hf.not_opened
    | ignored | kept | blocked => rfl
    | @overflowed _ _ _ m₂ hq =>
      have hn : (m₂.note (.overflowed streamId.intoLocal)).arrived = m₂.arrived := arrived_note rfl rfl rfl
      exact hn.trans (arrived_same hq.history hq.inbound)
  | delivered ht => exact ht.arrived
  | closed ht =>
    have hon := onlySubstreams_onClose
    exact (arrived_same (hon ..).history (congrArg _ (hon ..).io)).trans ht.arrived
  | reset ht =>
    have hon := onlySubstreams_onReset
    exact (arrived_same (hon ..).history (congrArg _ (hon ..).io)).trans ht.arrived
  | read => rfl
  | openOut | sendClose | sendCloseLast => exact arrived_note rfl rfl rfl

/-- What is known of a connection after some calls: `past` are the calls and `given` is what they returned. -/
structure Kept (id : LocalStreamId) (past : List MplexInput) (given : List MplexOutput) (m : Multiplexed) :
    Prop where
  allotted : Allotted m
  arrived : m.status = .opened → m.arrived = arrivals past
  faithful : Undisturbed id m → Faithful id (delivered id (given.flatMap MplexOutput.deliveries)) m

theorem later_exec (he : m.exec input = .ok (output, m')) : Later m m' := by
  have hc := actCase_exec he
  generalize input.call = call at hc
  have hs : Later m (m.withAnswers input) := ⟨fun h => h, prefix_rfl⟩
  generalize m.withAnswers input = m₁ at hs hc
  refine hs.trans ?_
  cases hc with
  | receive => exact ⟨fun h => h, prefix_rfl⟩
  | @drop id _ hd =>
    have hnot : Later m₁ ((m₁.removeSubstream id).note (.dropped id)) := ⟨fun h => h, prefix_append _ _⟩
    cases hd with
    | ignored => exact .refl _
    | dropped hq => exact hnot.trans hq.later
    | failed hf => exact hnot.trans hf.later
  | close hcl =>
    cases hcl with
    | ignored => exact .refl _
    | finished hst _ _ _ hh => exact ⟨fun h => absurd h hst, hh ▸ prefix_rfl⟩
  | moves _ hm =>
    exact hm.invariant (fun _ m => Later m₁ m) (fun h hmo => h.trans (later_move hmo)) [] (.refl m₁)

theorem arrived_exec (he : m.exec input = .ok (output, m')) (hs : m'.status = .opened) :
    m'.arrived = m.arrived ++ input.call.arrivals := by
  have hc := actCase_exec he
  have hst : (m.withAnswers input).arrived = m.arrived := rfl
  rw [← hst]
  generalize input.call = call at hc ⊢
  generalize m.withAnswers input = m₁ at hc ⊢
  cases hc with
  | receive => simp [arrived, MplexCall.arrivals]
  | @drop id _ hd =>
    refine Eq.trans ?_ (append_nil _).symm
    cases hd with
    | ignored => rfl
    | failed hf => exact absurd hs hf.not_opened
    | dropped hq => exact arrived_note hq.history hq.inbound rfl
  | close hcl =>
    refine Eq.trans ?_ (append_nil _).symm
    cases hcl with
    | ignored => rfl
    | finished hcs => exact absurd hs hcs
  | moves hca hmo =>
    have hn : call.arrivals = [] := by
      unfold MplexCall.arrivals
      split
      next item => exact absurd rfl (hca item)
      next => rfl
    rw [hn, append_nil]
    have hi := hmo.invariant (fun _ m => m.status = .opened → m.arrived = m₁.arrived) ?_ [] fun _ => rfl
    · exact hi hs
    · intro _ m _ _ hm hmv hs
      exact (arrived_move hmv hs).trans (hm ((later_move hmv).status hs))

theorem faithful_exec (hall : Allotted m) (hm : Faithful id given m) (hu : Undisturbed id m')
    (he : m.exec input = .ok (output, m')) : Faithful id (given ++ delivered id output.deliveries) m' := by
  have hc := actCase_exec he
  generalize input.call = call at hc
  have hs : Faithful id given (m.withAnswers input) := hm.same rfl rfl
  have ha' : Allotted (m.withAnswers input) := { hall with }
  generalize m.withAnswers input = m₁ at hs ha' hc
  have hn : given ++ delivered id [] = given := append_nil given
  cases hc with
  | receive => exact hn.symm ▸ hs.same rfl rfl
  | @drop id' _ hd =>
    refine hn.symm ▸ ?_
    cases hd with
    | ignored => exact hs
    | failed hf => exact absurd hu.status hf.not_opened
    | dropped hq =>
      have hne : id ≠ id' := by
        rintro rfl
        refine hu.dropped (hq.history ▸ ?_)
        exact mem_append_right _ mem_cons_self
      refine hs.other hq.history ?_ rfl
      exact (hq.lookup id).trans ((get?_removeSubstream ..).trans (if_neg hne))
  | close hcl =>
    refine hn.symm ▸ ?_
    cases hcl with
    | ignored => exact hs
    | finished hst => exact absurd hu.status hst
  | moves _ hmo =>
    have hi := hmo.invariant
      (fun past m => Allotted m ∧ (Undisturbed id m → Faithful id (given ++ delivered id past) m)) ?_ []
      ⟨ha', fun _ => hn.symm ▸ hs⟩
    · exact hi.2 hu
    intro past m _ _ hm hmv
    refine ⟨allotted_move hm.1 hmv, fun hu => ?_⟩
    rw [delivered_append, ← append_assoc]
    exact faithful_move hm.1 hu (hm.2 (hu.before (later_move hmv))) hmv

theorem kept_exec {past : List MplexInput} {given : List MplexOutput} (hm : Kept id past given m)
    (he : m.exec input = .ok (output, m')) : Kept id (past ++ [input]) (given ++ [output]) m' where
  allotted := allotted_exec hm.allotted he
  arrived hs := by
    rw [arrived_exec he hs, hm.arrived ((later_exec he).status hs), arrivals, arrivals,
      flatMap_append, flatMap_singleton]
  faithful hu := by
    rw [flatMap_append, delivered_append, flatMap_singleton]
    exact faithful_exec hm.allotted (hm.faithful (hu.before (later_exec he))) hu he

theorem kept_new (id : LocalStreamId) (config : Config) : Kept id [] [] (new config) where
  allotted := allotted_new config
  arrived _ := rfl
  faithful _ := .unopened rfl nofun rfl

theorem ended_of_exec (he : m.exec input = .ok (.endOf id, m')) : Ended id m' := by
  have hc := actCase_exec he
  generalize ho : MplexOutput.endOf id = output at hc
  generalize input.call = call at hc
  cases hc with
  | receive | drop | close => cases ho
  | moves _ _ hen => exact hen id ho.symm

variable {inputs : List MplexInput} {outputs : List MplexOutput}

theorem kept_run {config : Config} (hrun : run exec (new config) inputs = .ok (outputs, s)) : Kept id inputs outputs s
    := by
  have hs : ∀ past given m input output m', Kept id past given m → True → m.exec input = .ok (output, m') →
      Kept id (past ++ [input]) (given ++ [output]) m' := fun _ _ _ _ _ _ hm _ he => kept_exec hm he
  exact run_trace hs [] [] (kept_new id config) (along_of_forall (fun _ _ => trivial) _ _) hrun

theorem later_run (hrun : run exec m inputs = .ok (outputs, s)) : Later m s := by
  have hs : ∀ m₁ input output m', Later m m₁ → True → m₁.exec input = .ok (output, m') → Later m m' :=
    fun _ _ _ _ hm _ he => hm.trans (later_exec he)
  exact run_invariant hs (.refl m) (along_of_forall (fun _ _ => trivial) _ _) hrun

theorem delivered_of_end (hall : Allotted m) (hm : Faithful id given m) (ho : .opened id ∈ m.history)
    (he : m.exec input = .ok (.endOf id, m')) (hl : Later m' s) (hu : Undisturbed id s) :
    RemoteEnded id (session id s.history) ∧ given = sentOn id s.history := by
  have hm' := faithful_exec hall hm (hu.before hl) he
  have ho' := (later_exec he).history.subset ho
  cases hm' with
  | unopened _ hn => exact absurd ho' hn
  | opened hs _ hex hg =>
    obtain ⟨hb, hc⟩ := ended_of_exec he _ hs
    have hen := hex.remoteEnded hc
    obtain ⟨events, hev⟩ := hl.history
    rw [← hev, session_append ho', sentOn_append_of_ended ho' hen, ← hg, hb]
    exact ⟨hen.append events, by simp [MplexOutput.endOf, MplexOutput.deliveries, delivered]⟩

def buffered (m : Multiplexed) (id : LocalStreamId) : RecvBuf :=
  ((m.substreams.get? id).map SubstreamState.recvBuf).getD []

theorem Faithful.delivered_buffered (hm : Faithful id given m) : given ++ m.buffered id = sentOn id m.history := by
  cases hm with
  | unopened hn hne hg =>
    rw [buffered, hn, hg, sentOn, session_eq_nil hne]
    rfl
  | opened hs _ _ hg =>
    rw [buffered, hs]
    exact hg

/-- In every run, what the reads of a substream return and what is buffered for it is what the remote sent on
it before it closed or reset it, in order; and once a read has come to the end, nothing of that is missing. -/
theorem run_delivers_sent (config : Config) (inputs : List MplexInput) {outputs : List MplexOutput} {s : Multiplexed}
    (hrun : run exec (new config) inputs = .ok (outputs, s)) (id : LocalStreamId) (hstatus : s.status = .opened)
    (hdropped : .dropped id ∉ s.history) (hoverflowed : .overflowed id ∉ s.history)
    (hreset : ResetInTime id (session id s.history)) : s.arrived = arrivals inputs ∧
      delivered id (outputs.flatMap MplexOutput.deliveries) ++ s.buffered id = sentOn id s.history ∧
      ∀ before input after given m m', inputs = before ++ input :: after →
        run exec (new config) before = .ok (given, m) → .opened id ∈ m.history →
        m.exec input = .ok (.endOf id, m') →
          RemoteEnded id (session id s.history) ∧
            delivered id (given.flatMap MplexOutput.deliveries) = sentOn id s.history := by
  have hu : Undisturbed id s := ⟨hstatus, hdropped, hoverflowed, hreset⟩
  have hs : Kept id inputs outputs s := kept_run hrun
  refine ⟨hs.arrived hstatus, (hs.faithful hu).delivered_buffered, ?_⟩
  rintro before _ _ given m _ rfl hb ho he
  obtain ⟨_, _, _, hf, hr, -⟩ := run_append_eq_ok hrun
  cases hf.symm.trans hb
  obtain ⟨_, _, _, hf, hr, -⟩ := run_cons_eq_ok hr
  cases hf.symm.trans he
  have hl := later_run hr
  have hm : Kept id before given m := kept_run hb
  exact delivered_of_end hm.allotted (hm.faithful (hu.before ((later_exec he).trans hl))) ho he hl hu

def readFirst : MplexInput := { call := .pollReadStream ⟨0, .listener⟩ }

def closedTwiceInputs : List MplexInput :=
  [.remoteOpen 0, { call := .pollNextStream }, .remoteData 0 [1], readFirst, .remoteData 0 [2], .remoteClose 0,
    .remoteClose 0, .remoteOpen 1, { call := .pollNextStream }, readFirst]

theorem run_delivers_sent_closedTwice : ∃ outputs given s m,
    run exec (new .default) closedTwiceInputs = .ok (given, m) ∧
      run exec (new .default) (closedTwiceInputs ++ [readFirst]) = .ok (outputs, s) ∧
      m.exec readFirst = .ok (.endOf ⟨0, .listener⟩, s) ∧ sentOn ⟨0, .listener⟩ s.history = [[1], [2]] ∧
      RemoteEnded ⟨0, .listener⟩ (session ⟨0, .listener⟩ s.history) ∧
      delivered ⟨0, .listener⟩ (given.flatMap MplexOutput.deliveries) = sentOn ⟨0, .listener⟩ s.history := by
  refine ⟨_, _, _, _, rfl, rfl, rfl, by decide +kernel, ?_⟩
  have hrun := run_delivers_sent .default (closedTwiceInputs ++ [readFirst]) rfl ⟨0, .listener⟩ (by decide +kernel)
    (by decide +kernel) (by decide +kernel) (by decide +kernel)
  exact hrun.2.2 closedTwiceInputs readFirst [] _ _ _ rfl rfl (by decide +kernel) rfl

def resetTwiceInputs : List MplexInput :=
  [.remoteOpen 0, { call := .pollNextStream }, .remoteData 0 [1], .remoteReset 0, .remoteReset 0, .remoteOpen 1,
    { call := .pollNextStream }, readFirst]

/-- What was buffered is gone, and the first read comes to the end. -/
theorem lost_resetTwice : ∃ outputs s, run exec (new .default) resetTwiceInputs = .ok (outputs, s) ∧
    s.status = .opened ∧ .opened ⟨0, .listener⟩ ∈ s.history ∧ .dropped ⟨0, .listener⟩ ∉ s.history ∧
    .overflowed ⟨0, .listener⟩ ∉ s.history ∧ outputs.getLast? = some (.endOf ⟨0, .listener⟩) ∧
    sentOn ⟨0, .listener⟩ s.history = [[1]] ∧
    delivered ⟨0, .listener⟩ (outputs.flatMap MplexOutput.deliveries) = [] ∧ s.buffered ⟨0, .listener⟩ = [] :=
  ⟨_, _, rfl, by decide +kernel, by decide +kernel, by decide +kernel, by decide +kernel, by decide +kernel,
    by decide +kernel, by decide +kernel, by decide +kernel⟩

end Multiplexed
end RustLibp2p.Mplex
