import RustLibp2p.RegistryMessage
import RustLibp2p.Transition
import Mathlib.Data.List.Induction

/-! The relay's registry: a map from serials to peers, shared by the handlers of all registry streams. A
handler runs between its awaits without the others; it waits for each read, for the lock of the map and
for each write. -/

namespace RustLibp2p.Camera
open Transition List RegistryMessage Function

structure RegistryEntry where
  peerId : List UInt8
  pubkey : List UInt8
  signature : List UInt8
  deriving DecidableEq

/-- Why a handler gave up on its stream. -/
inductive RegistryFailure where
  | io
  | noData
  | decode (e : RegistryDecodeError)
  | invalidPeerId
  | peerMismatch
  | invalidPubkey
  | pubkeyMismatch
  | badSignature
  | unexpectedMessage

/-- Where a handler of a registry stream waits. -/
inductive RegistryHandler where
  | reading (buf : List UInt8)
  | inserting (serial : String) (entry : RegistryEntry)
  | lookingUp (serial : String)
  | replying (reply : RegistryMessage) (result : Except RegistryFailure Unit)
  | finished (result : Except RegistryFailure Unit)

variable {PublicKey : Type} (identity : Identity PublicKey) (debugText : RegistryMessage → String)

namespace RegistryHandler

/-- The handler from a decoded message to its next await. `debugText` is the derived `Debug` form. -/
def handleMessage (remotePeer : PeerId) : RegistryMessage → RegistryHandler
  | .register serial peerId pubkey signature =>
    match identity.peerIdFromBytes peerId with
    | none => .finished (.error .invalidPeerId)
    | some claimed =>
      if claimed ≠ remotePeer then
        .replying (.error "peer_id 与连接身份不符 (未认证)") (.error .peerMismatch)
      else
        match identity.tryDecodeProtobuf pubkey with
        | none => .finished (.error .invalidPubkey)
        | some pk =>
          if identity.toPeerId pk ≠ claimed then
            .replying (.error "pubkey 与 peer_id 不匹配") (.error .pubkeyMismatch)
          else if !identity.verify pk (signPayload serial peerId) signature then
            .replying (.error "签名无效") (.error .badSignature)
          else .inserting serial ⟨peerId, pubkey, signature⟩
  | .query serial => .lookingUp serial
  | other => .replying (.error ("unexpected message: " ++ debugText other)) (.error .unexpectedMessage)

def handleBytes (remotePeer : PeerId) (buf : List UInt8) : RegistryHandler :=
  if buf = [] then .finished (.error .noData)
  else
    match decode buf with
    | .error e => .finished (.error (.decode e))
    | .ok msg => handleMessage identity debugText remotePeer msg

def onRead (remotePeer : PeerId) (chunk : List UInt8) : RegistryHandler → RegistryHandler
  | .reading buf =>
    match readTurn relayReadLimit buf chunk with
    | .again buf => .reading buf
    | .finished buf => handleBytes identity debugText remotePeer buf
  | handler => handler

def onWritten : RegistryHandler → RegistryHandler
  | .replying _ result => .finished result
  | handler => handler

/-- The read or the write that the handler waits for fails. -/
def onIoError : RegistryHandler → RegistryHandler
  | .reading _ => .finished (.error .io)
  | .replying _ _ => .finished (.error .io)
  | handler => handler

def answer : Option RegistryEntry → RegistryMessage
  | some entry => .response entry.peerId entry.pubkey entry.signature
  | none => .notFound

end RegistryHandler

open RegistryHandler

/-- The map and the handlers, each with the peer that the connection of its stream authenticated. -/
structure RelayRegistry where
  registry : String → Option RegistryEntry
  handlers : List (PeerId × RegistryHandler)

inductive RelayInput where
  | accept (peer : PeerId)
  | read (handler : Nat) (chunk : List UInt8)
  /-- The handler gets the lock, if it waits for it. -/
  | lock (handler : Nat)
  | written (handler : Nat)
  | ioError (handler : Nat)

inductive RelayEvent where
  | none
  /-- A stream of `peer` binds the serial. -/
  | bound (serial : String) (peer : PeerId) (entry : RegistryEntry)
  /-- A query of the serial is answered with the entry. -/
  | answered (serial : String) (entry : Option RegistryEntry)
  deriving DecidableEq

namespace RelayRegistry

def init : RelayRegistry := ⟨fun _ => none, []⟩

/-- The lock covers the insertion or the lookup; nothing is asked of an entry that is already there. -/
def lock (relay : RelayRegistry) (index : Nat) : RelayEvent × RelayRegistry :=
  match relay.handlers[index]? with
  | some (peer, .inserting serial entry) =>
    (.bound serial peer entry,
      { registry := update relay.registry serial (some entry)
        handlers := relay.handlers.set index (peer, .replying
          (.response entry.peerId entry.pubkey entry.signature) (.ok ())) })
  | some (peer, .lookingUp serial) =>
    (.answered serial (relay.registry serial),
      { relay with handlers := relay.handlers.set index (peer, .replying (answer (relay.registry serial)) (.ok ())) })
  | _ => (.none, relay)

/-- A step of one handler that does not touch the map. -/
def update (relay : RelayRegistry) (index : Nat) (next : PeerId → RegistryHandler → RegistryHandler) : RelayRegistry :=
  { relay with handlers := relay.handlers.modify index fun entry => (entry.1, next entry.1 entry.2) }

def step (relay : RelayRegistry) : RelayInput → RelayEvent × RelayRegistry
  | .accept peer => (.none, { relay with handlers := relay.handlers ++ [(peer, .reading [])] })
  | .read index chunk => (.none, relay.update index (onRead identity debugText · chunk))
  | .lock index => relay.lock index
  | .written index => (.none, relay.update index fun _ => onWritten)
  | .ioError index => (.none, relay.update index fun _ => onIoError)

/-! ### What is bound, and what is answered -/

/-- What the handler checks before it binds the serial for a stream of `peer`. -/
def RegisterValid (peer : PeerId) (serial : String) (entry : RegistryEntry) : Prop :=
  identity.peerIdFromBytes entry.peerId = some peer ∧
    ∃ pk ∈ identity.tryDecodeProtobuf entry.pubkey, identity.toPeerId pk = peer ∧
      identity.verify pk (signPayload serial entry.peerId) entry.signature = true

instance (peer : PeerId) (serial : String) (entry : RegistryEntry) :
    Decidable (RegisterValid identity peer serial entry) :=
  inferInstanceAs (Decidable (_ ∧ _))

variable {peer : PeerId} {serial : String} {entry : RegistryEntry} {relay : RelayRegistry}
  {map : String → Option RegistryEntry}

theorem handleMessage_eq_inserting {msg : RegistryMessage}
    (hi : handleMessage identity debugText peer msg = .inserting serial entry) :
    msg = .register serial entry.peerId entry.pubkey entry.signature ∧ RegisterValid identity peer serial entry := by
  cases msg with
  | register serial' peerId pubkey sig =>
    simp only [handleMessage] at hi
    cases hc : identity.peerIdFromBytes peerId with
    | none => simp only [hc, reduceCtorEq] at hi
    | some claimed =>
      simp only [hc] at hi
      split at hi
      · cases hi
      rename_i hp
      cases hpk : identity.tryDecodeProtobuf pubkey with
      | none => simp only [hpk, reduceCtorEq] at hi
      | some pk =>
        simp only [hpk] at hi
        split at hi
        · cases hi
        rename_i hm
        split at hi
        · cases hi
        rename_i hv
        cases hi
        rw [ne_eq, not_not] at hp hm
        subst hp
        exact ⟨rfl, hc, pk, hpk, hm, by simpa using hv⟩
  | query serial' | response peerId pubkey sig | notFound | error message => cases hi

/-- The message that a read completes, and the peer that sent it. -/
def completed (relay : RelayRegistry) (index : Nat) (chunk : List UInt8) : Option (PeerId × RegistryMessage) :=
  match relay.handlers[index]? with
  | some (peer, .reading buf) =>
    match readTurn relayReadLimit buf chunk with
    | .again _ => none
    | .finished buf => (decode buf).toOption.map (peer, ·)
  | _ => none

/-- A Register of `peer` that passes the checks is for a serial that it owns. -/
def OwnRegister (owner : String → PeerId) (peer : PeerId) : RegistryMessage → Prop
  | .register serial peerId pubkey signature =>
    RegisterValid identity peer serial ⟨peerId, pubkey, signature⟩ → peer = owner serial
  | _ => True

instance (owner : String → PeerId) (peer : PeerId) :
    ∀ msg, Decidable (OwnRegister identity owner peer msg)
  | .register _ _ _ _ => inferInstanceAs (Decidable (_ → _))
  | .query _ | .response _ _ _ | .notFound | .error _ => .isTrue trivial

/-- Only the owner of a serial sends a Register for it that passes the checks. -/
def OnlyOwner (owner : String → PeerId) (relay : RelayRegistry) : RelayInput → Prop
  | .read index chunk => ∀ found ∈ completed relay index chunk, OwnRegister identity owner found.1 found.2
  | _ => True

instance (owner : String → PeerId) (relay : RelayRegistry) :
    ∀ input, Decidable (OnlyOwner identity owner relay input)
  | .read index chunk => inferInstanceAs (Decidable (∀ found ∈ completed relay index chunk, _))
  | .accept _ | .lock _ | .written _ | .ioError _ => .isTrue trivial

/-- What a step does to the map, and what it says about it. -/
inductive Effect (relay : RelayRegistry) : RelayEvent → (String → Option RegistryEntry) → Prop
  | none : Effect relay .none relay.registry
  | bound {peer : PeerId} {serial : String} {entry : RegistryEntry}
      (hhandler : (peer, inserting serial entry) ∈ relay.handlers) :
      Effect relay (.bound serial peer entry) (Function.update relay.registry serial (some entry))
  | answered (serial : String) :
      Effect relay (.answered serial (relay.registry serial)) relay.registry

theorem Effect.handler_of_bound (he : Effect relay (.bound serial peer entry) map) :
    (peer, inserting serial entry) ∈ relay.handlers := by
  cases he with
  | bound hh => exact hh

theorem Effect.answer_eq {ans : Option RegistryEntry} (he : Effect relay (.answered serial ans) map) :
    ans = relay.registry serial := by
  cases he
  rfl

theorem lock_effect (relay : RelayRegistry) (idx : Nat) :
    Effect relay (relay.lock idx).1 (relay.lock idx).2.registry := by
  unfold lock
  split
  · rename_i hh
    exact .bound (mem_of_getElem? hh)
  · exact .answered _
  · exact .none

theorem step_effect (relay : RelayRegistry) (inp : RelayInput) : Effect relay (step identity debugText relay inp).1
      (step identity debugText relay inp).2.registry := by
  cases inp with
  | lock idx => exact lock_effect relay idx
  | accept | read | written | ioError => exact .none

theorem mem_handlers_update {idx : Nat} {next : PeerId → RegistryHandler → RegistryHandler}
    {handler : RegistryHandler} (hmem : (peer, handler) ∈ (relay.update idx next).handlers) :
    (peer, handler) ∈ relay.handlers ∨ ∃ old, relay.handlers[idx]? = some (peer, old) ∧ handler = next peer old := by
  obtain ⟨pos, hpos⟩ := getElem?_of_mem hmem
  rw [update, getElem?_modify] at hpos
  obtain ⟨⟨_, old⟩, ho, heq⟩ := Option.map_eq_some_iff.1 hpos
  by_cases hi : idx = pos
  · rw [if_pos hi] at heq
    cases heq
    exact .inr ⟨old, by rw [hi, ho], rfl⟩
  · rw [if_neg hi] at heq
    cases heq
    exact .inl (mem_of_getElem? ho)

theorem mem_handlers_lock {idx : Nat} (hmem : (peer, inserting serial entry) ∈ (relay.lock idx).2.handlers) :
    (peer, inserting serial entry) ∈ relay.handlers := by
  unfold lock at hmem
  split at hmem
  case h_3 => exact hmem
  all_goals
    rcases mem_or_eq_of_mem_set hmem with ho | hn
    · exact ho
    · cases hn

/-- A handler comes to wait for an insertion only by a read that completes a Register which passes the
checks. -/
theorem inserting_of_step {inp : RelayInput}
    (hmem : (peer, inserting serial entry) ∈ (step identity debugText relay inp).2.handlers) :
    (peer, inserting serial entry) ∈ relay.handlers ∨
      ∃ idx chunk, inp = .read idx chunk ∧ completed relay idx chunk =
          some (peer, .register serial entry.peerId entry.pubkey entry.signature) ∧
        RegisterValid identity peer serial entry := by
  cases inp with
  | accept =>
    rcases mem_append.1 hmem with ho | hn
    · exact .inl ho
    · cases mem_singleton.1 hn
  | lock => exact .inl (mem_handlers_lock hmem)
  | written idx | ioError idx =>
    rcases mem_handlers_update hmem with ho | ⟨old, ho, hn⟩
    · exact .inl ho
    · cases old <;> cases hn
      exact .inl (mem_of_getElem? ho)
  | read idx chunk =>
    rcases mem_handlers_update hmem with ho | ⟨old, ho, hn⟩
    · exact .inl ho
    cases old with
    | reading buf =>
      unfold onRead at hn
      cases ht : readTurn relayReadLimit buf chunk with
      | again => simp only [ht, reduceCtorEq] at hn
      | finished buf' =>
        simp only [ht, handleBytes] at hn
        split at hn
        · cases hn
        cases hd : decode buf' with
        | error => simp only [hd, reduceCtorEq] at hn
        | ok =>
          simp only [hd] at hn
          obtain ⟨rfl, hv⟩ := handleMessage_eq_inserting identity debugText hn.symm
          refine .inr ⟨idx, chunk, rfl, ?_, hv⟩
          simp [completed, ho, ht, hd, Except.toOption]
    | inserting =>
      cases hn
      exact .inl (mem_of_getElem? ho)
    | lookingUp => cases hn
    | replying => cases hn
    | finished => cases hn

/-- The map after the bindings of some events. -/
def bindings (events : List RelayEvent) : String → Option RegistryEntry :=
  events.foldl (fun map event =>
    match event with
    | .bound serial _ entry => Function.update map serial (some entry)
    | _ => map) (fun _ => none)

theorem bindings_eq_last (pre middle : List RelayEvent) (peer : PeerId)
    (entry : RegistryEntry) (hm : ∀ peer' entry', RelayEvent.bound serial peer' entry' ∉ middle) :
    bindings (pre ++ .bound serial peer entry :: middle) serial = some entry := by
  induction middle using List.reverseRecOn with
  | nil => simp [bindings]
  | append_singleton middle ev ih =>
    have he := ih fun peer' entry' hmem => hm peer' entry' (mem_append_left _ hmem)
    have hs : pre ++ .bound serial peer entry :: (middle ++ [ev]) =
        (pre ++ .bound serial peer entry :: middle) ++ [ev] := by simp
    rw [hs, bindings, foldl_append]
    change (match ev with
      | .bound serial' _ entry' => Function.update (bindings _) serial' (some entry')
      | _ => bindings _) serial = some entry
    cases ev with
    | none | answered => exact he
    | bound serial' peer' entry' =>
      have ho : serial ≠ serial' := by
        rintro rfl
        exact hm peer' entry' (by simp)
      exact (update_of_ne ho _ _).trans he

/-- After some events: the map is what their bindings made of it, and something holds of everything that is bound
or waits to be bound. -/
structure Consistent (holds : PeerId → String → RegistryEntry → Prop) (events : List RelayEvent)
    (relay : RelayRegistry) : Prop where
  registry : relay.registry = bindings events
  events : ∀ serial peer entry, .bound serial peer entry ∈ events → holds peer serial entry
  handlers : ∀ serial peer entry, (peer, inserting serial entry) ∈ relay.handlers → holds peer serial entry

theorem bindings_append_singleton {events : List RelayEvent} {ev : RelayEvent} (he : Effect relay ev map)
    (hr : relay.registry = bindings events) : map = bindings (events ++ [ev]) := by
  rw [bindings, foldl_append]
  cases he with
  | none | answered => exact hr
  | bound => rw [hr]; rfl

theorem step_consistent {holds : PeerId → String → RegistryEntry → Prop} {events : List RelayEvent}
    {inp : RelayInput} (hc : Consistent holds events relay)
    (hread : ∀ idx chunk serial peer entry, inp = .read idx chunk → completed relay idx chunk =
        some (peer, .register serial entry.peerId entry.pubkey entry.signature) →
      RegisterValid identity peer serial entry → holds peer serial entry) :
    Consistent holds (events ++ [(step identity debugText relay inp).1]) (step identity debugText relay inp).2 where
  registry := bindings_append_singleton (step_effect identity debugText relay inp) hc.registry
  events := by
    intro serial peer entry hmem
    rcases mem_append.1 hmem with ho | hn
    · exact hc.events serial peer entry ho
    · have he := step_effect identity debugText relay inp
      rw [← mem_singleton.1 hn] at he
      exact hc.handlers serial peer entry he.handler_of_bound
  handlers := by
    intro serial peer entry hmem
    rcases inserting_of_step identity debugText hmem with ho | ⟨idx, chunk, hi, hco, hv⟩
    · exact hc.handlers serial peer entry ho
    · exact hread idx chunk serial peer entry hi hco hv

theorem init_consistent (holds : PeerId → String → RegistryEntry → Prop) : Consistent holds [] init where
  registry := rfl
  events := nofun
  handlers := nofun

/-- In every run in which a valid Register for a serial only ever comes from the serial's owner: a
serial that a stream of `peer` has bound was bound by a valid Register of `peer`, and a later query
for it is answered with that entry unless `peer` itself has bound the serial again in between. -/
theorem run_binding_kept (owner : String → PeerId) (inputs : List RelayInput)
    (hallowed : AlongTotal (step identity debugText) (OnlyOwner identity owner) init inputs)
    (before middle after : List RelayEvent) (serial : String) (peer : PeerId) (entry : RegistryEntry)
    (answer : Option RegistryEntry) (hevents : (runTotal (step identity debugText) init inputs).1 =
      before ++ .bound serial peer entry :: (middle ++ .answered serial answer :: after))
    (hmiddle : ∀ entry', .bound serial peer entry' ∉ middle) :
    RegisterValid identity peer serial entry ∧ answer = some entry := by
  rw [← cons_append, ← append_assoc] at hevents
  obtain ⟨first, inp, _, rfl, hf, ha⟩ := runTotal_eq_append_cons hevents
  let holds peer serial entry := RegisterValid identity peer serial entry ∧ peer = owner serial
  have hstep : ∀ events relay inp, Consistent holds events relay → OnlyOwner identity owner relay inp →
      Consistent holds (events ++ [(step identity debugText relay inp).1]) (step identity debugText relay inp).2 := by
    intro _ _ _ hc hall
    refine step_consistent identity debugText hc ?_
    rintro _ _ _ _ _ rfl hco hv
    exact ⟨hv, hall _ hco hv⟩
  have hc := runTotal_along hstep first [] (init_consistent holds) (alongTotal_append_left hallowed)
  rw [nil_append, hf] at hc
  have hb := hc.events serial peer entry (by simp)
  have he := step_effect identity debugText (runTotal (step identity debugText) init first).2 inp
  rw [ha] at he
  refine ⟨hb.1, ?_⟩
  rw [he.answer_eq, hc.registry]
  apply bindings_eq_last
  -- Whoever bound the serial in between owns it, and so does `peer`.
  intro peer' entry' hmem
  have ho := hc.events serial peer' entry' (by simp [hmem])
  have hs : peer' = peer := ho.2.trans hb.2.symm
  exact hmiddle entry' (hs ▸ hmem)

/-- However the streams interleave, an answer is what the bindings before it made of the map, each by a valid Register
of the peer on whose stream it came. -/
theorem run_answers_bindings (inputs : List RelayInput) :
    let events := (runTotal (step identity debugText) init inputs).1
    (∀ serial peer entry, .bound serial peer entry ∈ events → RegisterValid identity peer serial entry) ∧
      ∀ before serial answer after, events = before ++ .answered serial answer :: after →
        answer = bindings before serial := by
  have hstep : ∀ events relay inp, Consistent (RegisterValid identity) events relay →
      Consistent (RegisterValid identity) (events ++ [(step identity debugText relay inp).1])
        (step identity debugText relay inp).2 :=
    fun _ _ _ hc => step_consistent identity debugText hc fun _ _ _ _ _ _ _ hv => hv
  have hv inputs := runTotal_history hstep inputs [] (init_consistent _)
  refine ⟨(hv inputs).events, fun before serial answer after hb => ?_⟩
  obtain ⟨first, inp, _, rfl, rfl, ha⟩ := runTotal_eq_append_cons hb
  have he := step_effect identity debugText (runTotal (step identity debugText) init first).2 inp
  rw [ha] at he
  rw [he.answer_eq, (hv first).registry, nil_append]

/-- Two cameras, with the keys 1 and 2, that both sign for the serial "A1". -/
def rivals : Identity UInt8 := Identity.small [(1, [65, 49, 0, 1, 1]), (2, [65, 49, 0, 1, 2])]

/-- A stream of the camera with this key, which registers the serial in one read. -/
def registration (index : Nat) (key : UInt8) : List RelayInput :=
  [.accept (rivals.toPeerId key), .read index (registerMessage rivals (fun _ => [key]) key "A1").encode, .lock index]

/-- A stream of a viewer, which asks for the serial. -/
def lookup (index : Nat) : List RelayInput :=
  [.accept (rivals.toPeerId 9), .read index (query "A1").encode, .lock index]

theorem run_binding_kept_rivals : (runTotal (step rivals fun _ => "") init (registration 0 1 ++ lookup 1)).1 =
        [.none, .none] ++ .bound "A1" (rivals.toPeerId 1) ⟨[0, 1, 1], [1], [1]⟩ ::
          ([.none, .none] ++ .answered "A1" (some ⟨[0, 1, 1], [1], [1]⟩) :: []) ∧
      RegisterValid rivals (rivals.toPeerId 1) "A1" ⟨[0, 1, 1], [1], [1]⟩ := by
  have he : (runTotal (step rivals fun _ => "") init (registration 0 1 ++ lookup 1)).1 =
      [.none, .none] ++ .bound "A1" (rivals.toPeerId 1) ⟨[0, 1, 1], [1], [1]⟩ ::
        ([.none, .none] ++ .answered "A1" (some ⟨[0, 1, 1], [1], [1]⟩) :: []) := by decide +kernel
  exact ⟨he, (run_binding_kept rivals (fun _ => "") (fun _ => rivals.toPeerId 1)
    (registration 0 1 ++ lookup 1) (by decide +kernel) _ _ _ _ _ _ _ he (by simp)).1⟩

/-- The second camera registers the serial of the first under its own identity, and the viewer is sent
to the second camera. -/
theorem binding_overwritten : rivals.toPeerId 1 ≠ rivals.toPeerId 2 ∧
      (runTotal (step rivals fun _ => "") init (registration 0 1 ++ registration 1 2 ++ lookup 2)).1 =
        [.none, .none] ++ .bound "A1" (rivals.toPeerId 1) ⟨[0, 1, 1], [1], [1]⟩ ::
          ([.none, .none, .bound "A1" (rivals.toPeerId 2) ⟨[0, 1, 2], [2], [2]⟩, .none, .none] ++
            .answered "A1" (some ⟨[0, 1, 2], [2], [2]⟩) :: []) := by
  decide +kernel

end RelayRegistry
end RustLibp2p.Camera
