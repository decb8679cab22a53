import RustLibp2p.Transition
import Mathlib.Data.List.Nodup

/-! The registrations of a rendezvous server. What a discover request is answered, and the cookies that
say what was told before, are left out: they change no registration. -/

namespace RustLibp2p.Rendezvous
open List

structure Config where
  minTtl : Nat
  maxTtl : Nat
  maxRegistrationsPerPeer : Nat
  maxRegistrationsTotal : Nat

def defaultTtl : Nat := 60 * 60 * 2

/-- Of the signed record only the peer it is about is kept. -/
structure NewRegistration (Peer Namespace : Type) where
  ns : Namespace
  record : Peer
  ttl : Option Nat

structure Registration (Peer Namespace : Type) where
  ns : Namespace
  record : Peer
  ttl : Nat

inductive ErrorCode where
  | notAuthorized
  | invalidTtl
  | unavailable
deriving DecidableEq

inductive Event (Peer Namespace : Type) where
  | peerRegistered (registration : Registration Peer Namespace)
  | peerNotRegistered (peer : Peer) (ns : Namespace) (error : ErrorCode)
  | peerUnregistered (peer : Peer) (ns : Namespace)
  | registrationExpired (registration : Registration Peer Namespace)

/-- The maps are lists of entries, the first of them read in both directions; a timer stands with its end. -/
structure Registrations (Peer Namespace : Type) where
  registrationsForPeer : List ((Peer × Namespace) × Nat)
  registrations : List (Nat × Registration Peer Namespace)
  nextExpiry : List (Nat × Nat)

/-- What can happen next; the id that a registration may get is drawn at random. -/
inductive Input (Peer Namespace : Type) where
  | register (peer : Peer) (new : NewRegistration Peer Namespace) (id : Nat)
  | unregister (peer : Peer) (ns : Namespace)
  | discover
  | timer (timer : Nat × Nat)

variable {Peer Namespace : Type}

def NewRegistration.effectiveTtl (new : NewRegistration Peer Namespace) : Nat := new.ttl.getD defaultTtl

def Registration.pair (registration : Registration Peer Namespace) : Peer × Namespace :=
  (registration.record, registration.ns)

variable [DecidableEq Peer] [DecidableEq Namespace]

namespace Registrations

section

variable (config : Config) (state : Registrations Peer Namespace) (now : Nat) (live : List ((Peer × Namespace) × Nat))

def countFor (peer : Peer) : Nat := state.registrationsForPeer.countP fun entry => entry.1.1 = peer

def add (new : NewRegistration Peer Namespace) (id : Nat) :
    Except ErrorCode (Registration Peer Namespace × Registrations Peer Namespace) :=
  let ttl := new.effectiveTtl
  if ttl > config.maxTtl ∨ ttl < config.minTtl then .error .invalidTtl
  else if state.countFor new.record ≥ config.maxRegistrationsPerPeer ∨
      state.registrationsForPeer.length > config.maxRegistrationsTotal then .error .unavailable
  else
    let registration := ⟨new.ns, new.record, ttl⟩
    .ok (registration,
      { registrationsForPeer := (registration.pair, id) ::
          state.registrationsForPeer.filter fun entry => entry.1 ≠ registration.pair ∧ entry.2 ≠ id
        registrations := (id, registration) :: state.registrations.filter fun entry => entry.1 ≠ id
        nextExpiry := (now + ttl, id) :: state.nextExpiry })

def remove (ns : Namespace) (peer : Peer) : Registrations Peer Namespace :=
  match state.registrationsForPeer.find? fun entry => entry.1 = (peer, ns) with
  | none => state
  | some (_, id) =>
    { state with
      registrationsForPeer := state.registrationsForPeer.filter fun entry => entry.1 ≠ (peer, ns)
      registrations := state.registrations.filter fun entry => entry.1 ≠ id }

/-- A turn of the loop in `poll`, for a timer that is over. -/
def pollTurn (timer : Nat × Nat) : Option (Registration Peer Namespace) × Registrations Peer Namespace :=
  if timer ∈ state.nextExpiry ∧ timer.1 ≤ now then
    ((state.registrations.find? fun entry => entry.1 = timer.2).map Prod.snd,
      { registrationsForPeer := state.registrationsForPeer.filter fun entry => entry.2 ≠ timer.2
        registrations := state.registrations.filter fun entry => entry.1 ≠ timer.2
        nextExpiry := state.nextExpiry.erase timer })
  else (none, state)

/-- The event that follows is given with its time. -/
def step : Nat × Input Peer Namespace → (Nat × Option (Event Peer Namespace)) × Registrations Peer Namespace
  | (now, .register peer new id) =>
    if new.record ≠ peer then ((now, some (.peerNotRegistered peer new.ns .notAuthorized)), state)
    else
      match state.add config now new id with
      | .ok (registration, next) => ((now, some (.peerRegistered registration)), next)
      | .error error => ((now, some (.peerNotRegistered peer new.ns error)), state)
  | (now, .unregister peer ns) => ((now, some (.peerUnregistered peer ns)), state.remove ns peer)
  | (now, .discover) => ((now, none), state)
  | (now, .timer timer) => ((now, (state.pollTurn now timer).1.map .registrationExpired), (state.pollTurn now timer).2)

/-- The registered pairs, each with the time at which its current registration is over. -/
def liveAfter : Nat × Option (Event Peer Namespace) → List ((Peer × Namespace) × Nat)
  | (now, some (.peerRegistered registration)) =>
    (registration.pair, now + registration.ttl) :: live.filter fun entry => entry.1 ≠ registration.pair
  | (_, some (.peerUnregistered peer ns)) => live.filter fun entry => entry.1 ≠ (peer, ns)
  | (_, some (.registrationExpired registration)) => live.filter fun entry => entry.1 ≠ registration.pair
  | _ => live

/-- A renewal finds a place, and what expires is a current registration that is over. -/
def Answered : Nat × Option (Event Peer Namespace) → Prop
  | (_, some (.peerNotRegistered peer ns .unavailable)) => (peer, ns) ∉ live.map Prod.fst
  | (now, some (.registrationExpired registration)) => ∃ entry ∈ live, entry.1 = registration.pair ∧ entry.2 ≤ now
  | _ => True

/-- The limits hold, and what is stored is one registration for every registered pair. -/
structure Right : Prop where
  total : state.registrations.length ≤ config.maxRegistrationsTotal
  perPeer : ∀ peer, state.registrations.countP (fun entry => entry.2.record = peer) ≤ config.maxRegistrationsPerPeer
  stored : state.registrations.map (fun entry => entry.2.pair) = live.map Prod.fst
  once : (live.map Prod.fst).Nodup

structure Kept : Prop extends state.Right config live where
  entries : state.registrationsForPeer = state.registrations.map fun entry => (entry.2.pair, entry.1)
  ids : (state.registrations.map Prod.fst).Nodup
  timed : ∀ ending id registration, (ending, id) ∈ state.nextExpiry → (id, registration) ∈ state.registrations →
    (registration.pair, ending) ∈ live

/-- A registration that can be taken up gets a new id, is for a pair that is not registered, and finds a place, unless
its peer has no more. -/
def orderly : Nat × Input Peer Namespace → Bool
  | (_, .register peer new id) =>
    new.record ≠ peer ∨ (new.effectiveTtl > config.maxTtl ∨ new.effectiveTtl < config.minTtl) ∨
      id ∉ state.registrations.map Prod.fst ∧ id ∉ state.nextExpiry.map Prod.snd ∧
        (peer, new.ns) ∉ state.registrationsForPeer.map Prod.fst ∧
        (state.countFor peer ≥ config.maxRegistrationsPerPeer ∨
          state.registrationsForPeer.length < config.maxRegistrationsTotal)
  | _ => true

end

namespace Kept

variable {config : Config} {state next : Registrations Peer Namespace} {live : List ((Peer × Namespace) × Nat)}
  {id : Nat} {registration : Registration Peer Namespace} (hkept : state.Kept config live)

include hkept

omit [DecidableEq Namespace] in
theorem countFor_eq (peer : Peer) :
    state.countFor peer = state.registrations.countP fun e => e.2.record = peer := by
  rw [countFor, hkept.entries, countP_map]
  rfl

omit [DecidableEq Namespace] in
theorem mem_live {pair : Peer × Namespace} :
    pair ∈ live.map Prod.fst ↔ pair ∈ state.registrationsForPeer.map Prod.fst := by
  rw [← hkept.stored, hkept.entries, map_map]
  rfl

omit [DecidableEq Namespace] in
/-- An id stands for a pair and the other way round. -/
theorem id_ne_iff (hmem : (id, registration) ∈ state.registrations)
    {e : Nat × Registration Peer Namespace} (he : e ∈ state.registrations) :
    e.1 ≠ id ↔ e.2.pair ≠ registration.pair := by
  have ho : (state.registrations.map fun e => e.2.pair).Nodup := hkept.stored ▸ hkept.once
  refine not_congr ⟨fun heq => ?_, fun heq => ?_⟩
  · rw [inj_on_of_nodup_map hkept.ids he hmem heq]
  · rw [inj_on_of_nodup_map ho he hmem heq]

theorem drop (hmem : (id, registration) ∈ state.registrations)
    (hs : next.registrations = state.registrations.filter fun e => e.1 ≠ id)
    (he : next.registrationsForPeer = next.registrations.map fun e => (e.2.pair, e.1))
    (ht : ∀ timer ∈ next.nextExpiry, timer ∈ state.nextExpiry) :
    next.Kept config (live.filter fun e => e.1 ≠ registration.pair) := by
  have hsub : next.registrations.Sublist state.registrations := hs ▸ filter_sublist
  have hl : (live.filter fun e => e.1 ≠ registration.pair).map Prod.fst =
      (live.map Prod.fst).filter fun pair => pair ≠ registration.pair := by
    rw [filter_map]
    rfl
  have hp : next.registrations = state.registrations.filter fun e => e.2.pair ≠ registration.pair := by
    rw [hs]
    exact filter_congr fun e hen => decide_eq_decide.2 (hkept.id_ne_iff hmem hen)
  refine ⟨⟨Nat.le_trans hsub.length_le hkept.total,
      fun peer => Nat.le_trans hsub.countP_le (hkept.perPeer peer), ?_, ?_⟩,
    he, hkept.ids.sublist (hsub.map _), ?_⟩
  · rw [hl, ← hkept.stored, filter_map, hp]
    rfl
  · rw [hl]
    exact hkept.once.filter _
  intro ending other found hti hf
  rw [hp] at hf
  obtain ⟨ho, hne⟩ := mem_filter.1 hf
  exact mem_filter.2 ⟨hkept.timed ending other found (ht _ hti) ho, hne⟩

theorem remove (ns : Namespace) (peer : Peer) :
    (state.remove ns peer).Kept config (live.filter fun e => e.1 ≠ (peer, ns)) := by
  unfold Registrations.remove
  split
  · next hn =>
    rw [filter_eq_self.2]
    · exact hkept
    intro e he
    refine decide_eq_true fun heq => ?_
    obtain ⟨known, hk, hp⟩ := mem_map.1 (hkept.mem_live.1 (mem_map_of_mem he))
    exact find?_eq_none.1 hn known hk (decide_eq_true (hp.trans heq))
  · next hf =>
    have hp := find?_some hf
    have hk := mem_of_find?_eq_some hf
    rw [hkept.entries] at hk
    obtain ⟨⟨_, _⟩, hmem, heq⟩ := mem_map.1 hk
    cases heq
    rw [← of_decide_eq_true hp]
    refine hkept.drop hmem rfl ?_ fun _ h => h
    rw [hkept.entries, filter_map]
    refine congrArg (List.map _) (filter_congr fun e he => ?_)
    exact decide_eq_decide.2 (hkept.id_ne_iff hmem he).symm

theorem pollTurn (now : Nat) (timer : Nat × Nat) :
    Answered live (now, (state.pollTurn now timer).1.map .registrationExpired) ∧
    (state.pollTurn now timer).2.Kept config
      (liveAfter live (now, (state.pollTurn now timer).1.map .registrationExpired)) := by
  unfold Registrations.pollTurn
  split_ifs with hr
  · have he : (state.registrationsForPeer.filter fun e => e.2 ≠ timer.2) =
        (state.registrations.filter fun e => e.1 ≠ timer.2).map fun e => (e.2.pair, e.1) := by
      rw [hkept.entries, filter_map]
      rfl
    cases hf : state.registrations.find? fun e => e.1 = timer.2 with
    | none =>
      -- the registration of the timer has been removed before
      have hs : (state.registrations.filter fun e => e.1 ≠ timer.2) = state.registrations :=
        filter_eq_self.2 fun e hen => decide_eq_true fun heq =>
          find?_eq_none.1 hf e hen (decide_eq_true heq)
      rw [he, hs]
      exact ⟨trivial, { hkept with }, rfl, hkept.ids,
        fun ending other found ht => hkept.timed ending other found (mem_of_mem_erase ht)⟩
    | some e =>
      have hid := find?_some hf
      have hmem : (timer.2, e.2) ∈ state.registrations := of_decide_eq_true hid ▸ mem_of_find?_eq_some hf
      exact ⟨⟨_, hkept.timed timer.1 timer.2 e.2 hr.1 hmem, rfl, hr.2⟩,
        hkept.drop hmem rfl he fun _ => mem_of_mem_erase⟩
  · exact ⟨trivial, hkept⟩

theorem added (registration : Registration Peer Namespace) (hid : id ∉ state.registrations.map Prod.fst)
    (ht : id ∉ state.nextExpiry.map Prod.snd) (hp : registration.pair ∉ state.registrationsForPeer.map Prod.fst)
    (ho : ¬ state.countFor registration.record ≥ config.maxRegistrationsPerPeer)
    (hpl : state.registrationsForPeer.length < config.maxRegistrationsTotal) (ending : Nat) :
    Kept config
      { registrationsForPeer := (registration.pair, id) ::
          state.registrationsForPeer.filter fun e => e.1 ≠ registration.pair ∧ e.2 ≠ id
        registrations := (id, registration) :: state.registrations.filter fun e => e.1 ≠ id
        nextExpiry := (ending, id) :: state.nextExpiry }
      ((registration.pair, ending) :: live.filter fun e => e.1 ≠ registration.pair) := by
  -- no entry has to make way
  have he : (state.registrationsForPeer.filter fun e => e.1 ≠ registration.pair ∧ e.2 ≠ id) =
      state.registrationsForPeer := by
    refine filter_eq_self.2 fun e hen => decide_eq_true ⟨?_, ?_⟩
    · exact fun heq => hp (heq ▸ mem_map_of_mem hen)
    rintro rfl
    rw [hkept.entries] at hen
    obtain ⟨_, hk, rfl⟩ := mem_map.1 hen
    exact hid (mem_map_of_mem hk)
  have hs : (state.registrations.filter fun e => e.1 ≠ id) = state.registrations :=
    filter_eq_self.2 fun e hen => decide_eq_true fun heq => hid (heq ▸ mem_map_of_mem hen)
  have hl : (live.filter fun e => e.1 ≠ registration.pair) = live :=
    filter_eq_self.2 fun e hen => decide_eq_true fun heq =>
      hp (hkept.mem_live.1 (heq ▸ mem_map_of_mem hen))
  rw [hkept.countFor_eq] at ho
  rw [hkept.entries, length_map] at hpl
  rw [he, hs, hl]
  refine ⟨⟨hpl, fun peer => ?_, ?_, ?_⟩, ?_, nodup_cons.2 ⟨hid, hkept.ids⟩, ?_⟩
  · rw [countP_cons]
    split_ifs with heq
    · rw [← of_decide_eq_true heq]
      exact Nat.lt_of_not_le ho
    · exact hkept.perPeer peer
  · rw [map_cons, map_cons, hkept.stored]
  · exact nodup_cons.2 ⟨fun hmem => hp (hkept.mem_live.1 hmem), hkept.once⟩
  · rw [hkept.entries, map_cons]
  intro ending' other found hot hf
  rcases mem_cons.1 hot with heq | hot <;> rcases mem_cons.1 hf with heq' | hf
  · cases heq
    cases heq'
    exact mem_cons_self
  · cases heq
    exact absurd (mem_map_of_mem hf) hid
  · cases heq'
    exact absurd (mem_map_of_mem hot) ht
  · exact mem_cons_of_mem _ (hkept.timed ending' other found hot hf)

theorem step (inp : Nat × Input Peer Namespace) (ho : state.orderly config inp) :
    Answered live (state.step config inp).1 ∧
      (state.step config inp).2.Kept config (liveAfter live (state.step config inp).1) := by
  obtain ⟨now, inp⟩ := inp
  cases inp with
  | register peer new =>
    simp only [Registrations.step]
    split_ifs with hr
    · exact ⟨trivial, hkept⟩
    obtain rfl : new.record = peer := not_not.1 hr
    have hf := (of_decide_eq_true ho).resolve_left hr
    unfold add
    dsimp only
    split_ifs with ht hfu
    · exact ⟨trivial, hkept⟩
    · exact ⟨fun hmem => (hf.resolve_left ht).2.2.1 (hkept.mem_live.1 hmem), hkept⟩
    · obtain ⟨hid, hti, hp, hpl⟩ := hf.resolve_left ht
      obtain ⟨how, -⟩ := not_or.1 hfu
      exact ⟨trivial, hkept.added ⟨new.ns, new.record, new.effectiveTtl⟩ hid hti hp how (hpl.resolve_left how) _⟩
  | unregister peer ns => exact ⟨trivial, hkept.remove ns peer⟩
  | discover => exact ⟨trivial, hkept⟩
  | timer timer => exact hkept.pollTurn now timer

end Kept

/-- The server after some inputs, with the events so far. -/
def after (config : Config) (inputs : List (Nat × Input Peer Namespace)) :
    List (Nat × Option (Event Peer Namespace)) × Registrations Peer Namespace :=
  Transition.runTotal (step config) ⟨[], [], []⟩ inputs

/-- In every run whose registrations are in order the limits hold, one registration is stored for every registered
pair, and the next event is right. -/
theorem run_registers_rightly (config : Config) (inputs : List (Nat × Input Peer Namespace))
    (horderly : Transition.AlongTotal (step config) (fun state input => state.orderly config input) ⟨[], [], []⟩
      inputs) :
    (after config inputs).2.Right config ((after config inputs).1.foldl liveAfter []) ∧
    ∀ input, (after config inputs).2.orderly config input →
      Answered ((after config inputs).1.foldl liveAfter []) ((after config inputs).2.step config input).1 := by
  have hs : ∀ past (state : Registrations Peer Namespace) input, state.Kept config (past.foldl liveAfter []) →
      state.orderly config input → (state.step config input).2.Kept config
        ((past ++ [(state.step config input).1]).foldl liveAfter []) := by
    intro past state input hkept hi
    rw [foldl_append]
    exact (hkept.step input hi).2
  have hn : (⟨[], [], []⟩ : Registrations Peer Namespace).Kept config [] :=
    ⟨⟨Nat.zero_le _, fun _ => Nat.zero_le _, rfl, .nil⟩, rfl, .nil, nofun⟩
  have hkept := Transition.runTotal_along hs inputs [] hn horderly
  exact ⟨hkept.toRight, fun input hi => (hkept.step input hi).1⟩

def onePlace : Config := ⟨1, 10, 1, 1⟩

def registered : List (Nat × Input Nat Nat) := [(0, .register 1 ⟨7, 1, some 5⟩ 40)]

theorem run_registers_rightly_expired :
    (after onePlace registered).2.orderly onePlace (5, .timer (5, 40)) ∧
      Answered ((after onePlace registered).1.foldl liveAfter [])
        ((after onePlace registered).2.step onePlace (5, .timer (5, 40))).1 :=
  ⟨rfl, (run_registers_rightly onePlace registered (by decide)).2 _ rfl⟩

/-- A second peer is let in at the limit of one; a renewal is refused for the limit of its own peer; a renewal leaves
the old registration stored, and its timer then ends the pair before the new one is over. -/
theorem renewals_and_limits_broken :
    (after onePlace [(0, .register 1 ⟨7, 1, some 5⟩ 40),
      (0, .register 2 ⟨7, 2, some 5⟩ 41)]).2.registrations.length = 2 ∧
    ¬ Answered ((after onePlace registered).1.foldl liveAfter [])
      ((after onePlace registered).2.step onePlace (1, .register 1 ⟨7, 1, some 5⟩ 41)).1 ∧
    ∃ renewed, renewed = after ⟨1, 10, 2, 2⟩ [(0, .register 1 ⟨7, 1, some 5⟩ 40), (4, .register 1 ⟨7, 1, some 9⟩ 41)] ∧
      renewed.2.registrations.map (fun entry => entry.2.pair) = [(1, 7), (1, 7)] ∧
      ¬ Answered (renewed.1.foldl liveAfter []) (renewed.2.step ⟨1, 10, 2, 2⟩ (5, .timer (5, 40))).1 := by
  refine ⟨by decide, fun h => h (by decide), _, rfl, by decide, ?_⟩
  rintro ⟨_, he, -, ho⟩
  cases mem_singleton.1 he
  exact absurd ho (by decide)

end Registrations
end RustLibp2p.Rendezvous
