import RustLibp2p.ControlStream

/-! Which request a response of the control channel answers. A call that gives up early leaves its
response behind, and the next call on the same stream takes that one. -/

namespace RustLibp2p.Camera.Control
open Transition Control.System List

variable {Request Response δ : Type}

def callOn (index : Nat) (call : Option (Call Request)) : Option (Call Request) :=
  call.filter fun found => found.stream == index

@[simp] theorem callOn_none (index : Nat) : callOn index (none : Option (Call Request)) = none := rfl

variable {found : Call Request} {index : Nat}

theorem callOn_of_eq (heq : found.stream = index) : callOn index (some found) = some found := by simp [callOn, heq]

theorem callOn_of_ne (hne : found.stream ≠ index) : callOn index (some found) = none := by simp [callOn, hne]

variable {call : Option (Call Request)}

theorem eq_of_callOn (hfou : callOn index call = some found) : call = some found :=
  (Option.filter_eq_some_iff.1 hfou).1

section System

variable (service : Service Request Response δ)

/-- Every stream on which no call has failed is in step, and no call waits on another one. -/
structure Consistent (system : System Request Response δ) : Prop where
  streams : ∀ index stream, system.streams[index]? = some stream → stream.failed = false →
    InStep service stream (callOn index system.call)
  call : ∀ found, system.call = some found →
    ∃ stream, system.streams[found.stream]? = some stream ∧ stream.failed = false

/-- What a call needs: its frame has a length that fits, and no earlier call on the viewer's stream
has failed after it began to write. -/
def CleanCall (system : System Request Response δ) : Input Request → Prop
  | .sendControl request _ _ => (service.encodeRequest request).length < 2 ^ 32 ∧
      ∀ index ∈ system.current, ∀ stream ∈ system.streams[index]?, stream.failed = false
  | _ => True

instance (system : System Request Response δ) : ∀ input, Decidable (CleanCall service system input)
  | .sendControl _ _ _ => inferInstanceAs (Decidable (_ ∧ _))
  | .openStream | .closeStream | .viewerRead _ | .timeout | .viewerReadError | .deviceRead _ _
  | .deviceReply _ _ | .deviceReadError _ => .isTrue trivial

/-- The record of the stream has the request and the response at the place of the call. -/
def Recorded (system : System Request Response δ) (request : Request) (place : Option (Nat × Nat))
    (response : Response) : Prop :=
  ∃ index position stream, place = some (index, position) ∧ system.streams[index]? = some stream ∧
    stream.sent[position]? = some request ∧ stream.served[position]? = some (some request, response)

def Grows (system next : System Request Response δ) : Prop :=
  ∀ (index : Nat) (stream : ControlStream Request Response), system.streams[index]? = some stream →
    ∃ stream' : ControlStream Request Response, next.streams[index]? = some stream' ∧
      stream.sent <+: stream'.sent ∧ stream.served <+: stream'.served

variable {service} {system next : System Request Response δ}

theorem Grows.refl (system : System Request Response δ) : Grows system system :=
  fun _ stream hs => ⟨stream, hs, prefix_rfl, prefix_rfl⟩

variable {request : Request} {stream : ControlStream Request Response}
  {f : ControlStream Request Response → ControlStream Request Response} {α : Type} {item : α}

theorem getElem?_of_isPrefix {items more : List α} (hb : items <+: more)
    (hi : items[index]? = some item) : more[index]? = some item := by
  obtain ⟨_, rfl⟩ := hb
  rw [List.getElem?_append_left (List.getElem?_eq_some_iff.1 hi).1, hi]

theorem Recorded.grows {place : Option (Nat × Nat)} {response : Response}
    (hr : Recorded system request place response) (hg : Grows system next) :
    Recorded next request place response := by
  obtain ⟨index, pos, stream, hp, hs, hre, hrs⟩ := hr
  obtain ⟨stream', hs', hse, hsr⟩ := hg index stream hs
  exact ⟨index, pos, stream', hp, hs', getElem?_of_isPrefix hse hre, getElem?_of_isPrefix hsr hrs⟩

theorem getElem?_modify_self {items : List α} (f : α → α)
    (hi : items[index]? = some item) : (items.modify index f)[index]? = some (f item) := by
  rw [getElem?_modify, hi]
  simp

theorem Consistent.of_modify (hcon : Consistent service system) (hs : system.streams[index]? = some stream)
    (hst : next.streams = system.streams.modify index f)
    (ho : ∀ other, index ≠ other → callOn other next.call = callOn other system.call)
    (hse : callOn index next.call = call)
    (hsp : (f stream).failed = false → InStep service (f stream) call)
    (hc : ∀ found, next.call = some found → found.stream = index → (f stream).failed = false) :
    Consistent service next := by
  have hu := getElem?_modify_self f hs
  refine ⟨?_, ?_⟩
  · intro other found hfou hf
    rw [hst] at hfou
    by_cases hi : index = other
    · subst hi
      rw [hu] at hfou
      cases hfou
      rw [hse]
      exact hsp hf
    · rw [getElem?_modify_ne _ _ hi] at hfou
      rw [ho other hi]
      exact hcon.streams other found hfou hf
  · intro found hfou
    rw [hst]
    by_cases hi : index = found.stream
    · exact ⟨f stream, hi ▸ hu, hc found hfou hi.symm⟩
    rw [getElem?_modify_ne _ _ hi]
    have hsa := ho found.stream hi
    rw [hfou, callOn_of_eq rfl] at hsa
    exact hcon.call found (eq_of_callOn hsa.symm)

theorem Grows.of_modify (hs : next.streams = system.streams.modify index f)
    (hf : ∀ stream, stream.sent <+: (f stream).sent ∧ stream.served <+: (f stream).served) : Grows system next := by
  intro other stream hst
  rw [hs]
  by_cases hi : index = other
  · subst hi
    exact ⟨f stream, getElem?_modify_self f hst, hf stream⟩
  · exact ⟨stream, by rw [getElem?_modify_ne _ _ hi, hst], prefix_rfl, prefix_rfl⟩

/-- The system stays consistent, records only get longer, and a response that is returned is the recorded
one. -/
structure StepPaired (service : Service Request Response δ) (system : System Request Response δ)
    (result : Output Request Response × System Request Response δ) : Prop where
  consistent : Consistent service result.2
  grows : Grows system result.2
  recorded : ∀ request place response, result.1 = .returned request place (.ok response) →
    Recorded result.2 request place response

open StepPaired

theorem addStream_consistent (hcon : Consistent service system) (hc : system.call = none) :
    Consistent service system.addStream := by
  refine ⟨?_, ?_⟩
  · intro index stream hs hf
    show InStep service stream (callOn index system.call)
    rcases Nat.lt_or_ge index system.streams.length with ho | hn
    · rw [addStream, getElem?_append_left ho] at hs
      exact hcon.streams index stream hs hf
    rw [addStream, getElem?_append_right hn] at hs
    rw [getElem?_singleton] at hs
    split at hs
    · cases hs
      rw [hc, callOn_none]
      exact InStep.opened service
    · cases hs
  · intro _ hfou
    rw [addStream, hc] at hfou
    cases hfou

theorem Grows.trans {middle : System Request Response δ} (hf : Grows system middle)
    (hs : Grows middle next) : Grows system next := by
  intro index stream hst
  obtain ⟨stream', hst', hse, hsr⟩ := hf index stream hst
  obtain ⟨stream'', hst'', hse', hsr'⟩ := hs index stream' hst'
  exact ⟨stream'', hst'', hse.trans hse', hsr.trans hsr'⟩

theorem addStream_grows (system : System Request Response δ) : Grows system system.addStream := by
  intro _ stream hs
  refine ⟨stream, ?_, prefix_rfl, prefix_rfl⟩
  rw [addStream, List.getElem?_append_left (List.getElem?_eq_some_iff.1 hs).1, hs]

theorem StepPaired.quiet (hcon : Consistent service next) (hg : Grows system next) :
    StepPaired service system (.none, next) :=
  ⟨hcon, hg, nofun⟩

theorem streams_finish (system : System Request Response δ) (found : Call Request)
    (f : ControlStream Request Response → ControlStream Request Response) (ended : Bool)
    (res : Except ControlError Response) :
    ((system.updateStream found.stream f).finish found ended res).2.streams =
      system.streams.modify found.stream ((fun stream => { stream with failed := stream.failed || !ended }) ∘ f) :=
  modify_modify_eq _ _ _ _

section

variable (hcon : Consistent service system) (hfou : system.call = some found)
include hcon hfou

theorem finish_failed_paired (hf : ∀ stream, (f stream).sent = stream.sent ∧ (f stream).served = stream.served)
    (e : ControlError) :
    StepPaired service system ((system.updateStream found.stream f).finish found false (.error e)) := by
  have hs := streams_finish system found f false (.error e)
  obtain ⟨stream, hst, -⟩ := hcon.call found hfou
  refine ⟨hcon.of_modify hst hs ?_ rfl ?_ nofun, Grows.of_modify hs ?_, nofun⟩
  · intro _ ho
    rw [hfou, callOn_of_ne ho]
    rfl
  · intro hfa
    simp at hfa
  intro stream
  show _ <+: (f stream).sent ∧ _ <+: (f stream).served
  rw [(hf stream).1, (hf stream).2]
  exact ⟨prefix_rfl, prefix_rfl⟩

theorem finish_complete_paired (hs : system.streams[found.stream]? = some stream) {toViewer : List UInt8}
    (hst : InStep service { stream with toViewer } none)
    {res : Except ControlError Response}
    (hr : ∀ resp, res = .ok resp →
      stream.sent[found.position]? = some found.request ∧
        stream.served[found.position]? = some (some found.request, resp)) :
    StepPaired service system ((system.updateStream found.stream fun stream =>
      { stream with toViewer }).finish found true res) := by
  have hse := streams_finish system found (fun stream => { stream with toViewer }) true res
  refine ⟨hcon.of_modify hs hse ?_ rfl ?_ nofun, Grows.of_modify hse ?_, ?_⟩
  · intro _ ho
    rw [hfou, callOn_of_ne ho]
    rfl
  · intro _
    change InStep service { stream with toViewer, failed := stream.failed || !true } none
    rwa [Bool.not_true, Bool.or_false]
  · exact fun stream => ⟨prefix_rfl, prefix_rfl⟩
  intro _ _ resp hre
  obtain ⟨rfl, rfl, hok⟩ := Output.returned.inj hre
  obtain ⟨hrq, hrp⟩ := hr resp hok
  rw [Recorded, hse]
  exact ⟨found.stream, found.position, _, rfl, getElem?_modify_self _ hs, hrq, hrp⟩

end

section

variable (hcon : Consistent service system)
include hcon

theorem StepPaired.idle : StepPaired service system (.none, system) := .quiet hcon (Grows.refl system)

theorem viewerRead_paired (hs : service.Sound) (count : Nat) :
    StepPaired service system (system.viewerRead service count) := by
  unfold viewerRead
  cases hfou : system.call with
  | none => exact idle hcon
  | some found =>
    obtain ⟨stream, hst, hf⟩ := hcon.call found hfou
    have hse := hcon.streams found.stream stream hst hf
    rw [hfou, callOn_of_eq rfl] at hse
    obtain ⟨-, hr, -⟩ := hse.waiting found rfl
    simp only [hst]
    cases hre : found.reader.read count stream.toViewer with
    | mk progress toViewer =>
      cases progress with
      | pending =>
        have hn := hse.viewer_pending hre
        refine quiet (hcon.of_modify hst rfl ?_ (callOn_of_eq rfl) (fun _ => hn) fun _ _ _ => hf)
          (Grows.of_modify rfl fun stream => ⟨prefix_rfl, prefix_rfl⟩)
        intro _ ho
        rw [hfou, callOn_of_ne ho]
        exact callOn_of_ne ho
      | tooLarge =>
        exact finish_failed_paired hcon hfou (f := fun stream => { stream with toViewer }) (fun stream => ⟨rfl, rfl⟩) _
      | complete =>
        obtain ⟨_, rfl, hsv, hn⟩ := hse.viewer_complete hre
        simp only [hs.decodeResponse_encode]
        apply finish_complete_paired hcon hfou hst hn
        rintro _ ⟨⟩
        exact ⟨hr, hsv⟩

theorem sendOn_paired (hc : system.call = none) (hf : (service.encodeRequest request).length < 2 ^ 32)
    (index : Nat) (hcl : ∀ stream ∈ system.streams[index]?, stream.failed = false) (cut : Option Nat) :
    StepPaired service system (system.sendOn service request index cut) := by
  unfold sendOn
  cases hs : system.streams[index]? with
  | none => exact idle hcon
  | some stream =>
    have hfa := hcl stream hs
    have hst := hcon.streams index stream hs hfa
    rw [hc, callOn_none] at hst
    cases cut with
    | some =>
      refine ⟨hcon.of_modify hs rfl (fun _ _ => rfl) rfl nofun ?_,
        Grows.of_modify rfl fun stream => ⟨prefix_rfl, prefix_rfl⟩, nofun⟩
      intro _ hfou
      cases hc.symm.trans hfou
    | none =>
      refine quiet (hcon.of_modify hs rfl ?_ (callOn_of_eq rfl) (fun _ => hst.send hf index) fun _ _ _ => hfa)
        (Grows.of_modify rfl fun stream => ⟨prefix_append _ _, prefix_rfl⟩)
      intro _ ho
      rw [hc]
      exact callOn_of_ne ho

theorem sendControl_paired (hc : system.call = none) {opens : Bool} {cut : Option Nat}
    (hcl : CleanCall service system (.sendControl request opens cut)) :
    StepPaired service system (system.sendControl service request opens cut) := by
  unfold sendControl
  cases hcu : system.current with
  | some index => exact sendOn_paired hcon hc hcl.1 index (hcl.2 index hcu) cut
  | none =>
    cases opens with
    | false => exact ⟨hcon, Grows.refl system, nofun⟩
    | true =>
      have ho : ∀ stream ∈ system.addStream.streams[system.streams.length]?, stream.failed = false := by
        intro stream hs
        rw [addStream, getElem?_append_right (Nat.le_refl _), Nat.sub_self] at hs
        cases hs
        rfl
      have hp := sendOn_paired (addStream_consistent hcon hc) hc hcl.1 _ ho cut
      exact { hp with grows := (addStream_grows system).trans hp.grows }

theorem device_paired (hs : system.streams[index]? = some stream)
    (hst : next.streams = system.streams.modify index f) (hc : next.call = system.call)
    (hf : (f stream).failed = stream.failed)
    (hg : ∀ stream, stream.sent <+: (f stream).sent ∧ stream.served <+: (f stream).served)
    (hse : ∀ call, InStep service stream call → InStep service (f stream) call) :
    StepPaired service system (.none, next) := by
  refine quiet (hcon.of_modify hs hst (fun _ _ => by rw [hc]) rfl ?_ ?_) (Grows.of_modify hst hg)
  · intro hnot
    rw [hc]
    exact hse _ (hcon.streams index stream hs (hf ▸ hnot))
  rintro found hfou rfl
  obtain ⟨_, ho, hnot⟩ := hcon.call found (hc ▸ hfou)
  cases hs.symm.trans ho
  rw [hf, hnot]

theorem deviceRead_paired (hs : service.Sound) (index count : Nat) :
    StepPaired service system (.none, system.deviceRead service index count) := by
  unfold deviceRead
  split
  · rename_i toDevice toViewer reader sent served failed hst
    cases hr : reader.read count toDevice with
    | mk progress rest =>
      cases progress with
      | pending =>
        exact device_paired hcon hst rfl rfl rfl
          (fun _ => ⟨prefix_rfl, prefix_rfl⟩) fun _ hse => hse.device_pending rfl hr
      | tooLarge =>
        exact device_paired hcon hst rfl rfl rfl
          (fun _ => ⟨prefix_rfl, prefix_rfl⟩) fun _ hse => hse.device_ended rfl rest
      | complete =>
        exact device_paired hcon hst rfl rfl rfl (fun _ => ⟨prefix_rfl, prefix_append _ _⟩)
          fun _ hse => hse.device_complete hs rfl hr system.device
  · exact idle hcon

theorem deviceReply_paired (index : Nat) (cut : Option Nat) :
    StepPaired service system (.none, system.deviceReply service index cut) := by
  unfold deviceReply
  split
  · rename_i toDevice toViewer resp endsOnError sent served failed hs
    cases cut with
    | none =>
      exact device_paired hcon hs rfl rfl rfl (fun _ => ⟨prefix_rfl, prefix_rfl⟩) fun _ hst => hst.device_replied rfl
    | some count =>
      exact device_paired hcon hs rfl rfl rfl (fun _ => ⟨prefix_rfl, prefix_rfl⟩) fun _ hst => hst.device_cut rfl count
  · exact idle hcon

theorem deviceReadError_paired (index : Nat) :
    StepPaired service system (step service system (.deviceReadError index)) := by
  cases hs : system.streams[index]? with
  | none =>
    rw [step, updateStream, modify_eq_self (getElem?_eq_none_iff.1 hs)]
    exact idle hcon
  | some stream =>
    refine device_paired hcon hs rfl rfl rfl (fun _ => ⟨prefix_rfl, prefix_rfl⟩) fun call hst => ?_
    cases hh : stream.handler with
    | reading => exact hst.device_ended hh stream.toDevice
    | replying response endsOnError | ended =>
      simp only
      rwa [← hh]

theorem step_paired (hs : service.Sound) (inp : Input Request) (hc : CleanCall service system inp) :
    StepPaired service system (step service system inp) := by
  have hidle := idle hcon
  have hgiU : ∀ found e, system.call = some found →
      StepPaired service system (system.finish found false (.error e)) := by
    intro found e hfou
    have hsa : system.updateStream found.stream id = system := by rw [updateStream, modify_id]
    have hp := finish_failed_paired hcon hfou (f := id) (fun _ => ⟨rfl, rfl⟩) e
    rwa [hsa] at hp
  cases inp with
  | openStream =>
    by_cases hca : system.call.isSome
    · rw [step, if_pos hca]
      exact hidle
    · rw [step, if_neg hca]
      rw [Option.not_isSome_iff_eq_none] at hca
      exact quiet (addStream_consistent hcon hca) (addStream_grows system)
  | closeStream =>
    by_cases hca : system.call.isSome
    · rw [step, if_pos hca]
      exact hidle
    · rw [step, if_neg hca]
      exact quiet { hcon with } (Grows.refl system)
  | sendControl =>
    by_cases hca : system.call.isSome
    · rw [step, if_pos hca]
      exact hidle
    · rw [step, if_neg hca]
      exact sendControl_paired hcon (Option.not_isSome_iff_eq_none.1 hca) hc
  | viewerRead count => exact viewerRead_paired hcon hs count
  | timeout | viewerReadError =>
    cases hca : system.call with
    | none =>
      simp only [step, hca]
      exact hidle
    | some found =>
      simp only [step, hca]
      exact hgiU found _ hca
  | deviceRead index count => exact deviceRead_paired hcon hs index count
  | deviceReply index cut => exact deviceReply_paired hcon index cut
  | deviceReadError index => exact deviceReadError_paired hcon index

end

variable (service) in
/-- The system is consistent, and every response returned so far is the recorded one. -/
def PairedSoFar (outputs : List (Output Request Response)) (system : System Request Response δ) : Prop :=
  Consistent service system ∧ ∀ request place response,
    .returned request place (.ok response) ∈ outputs → Recorded system request place response

theorem step_pairedSoFar (hs : service.Sound) (outs : List (Output Request Response))
    (system : System Request Response δ) (inp : Input Request) (hp : PairedSoFar service outs system)
    (hc : CleanCall service system inp) :
    PairedSoFar service (outs ++ [(step service system inp).1]) (step service system inp).2 := by
  have hpa := step_paired hp.1 hs inp hc
  refine ⟨hpa.consistent, fun request place resp hmem => ?_⟩
  rcases mem_append.1 hmem with ho | hn
  · exact (hp.2 request place resp ho).grows hpa.grows
  · exact hpa.recorded request place resp (mem_singleton.1 hn).symm

end System

/-- In every run in which no call is made on a stream on which an earlier call failed after it began
to write: a response that a call returns is the one that the camera gave to the call's own request. -/
theorem run_response_paired (service : Service Request Response δ) (hservice : service.Sound) (device : δ)
    (inputs : List (Input Request)) (hclean : AlongTotal (step service) (CleanCall service) (init device) inputs)
    (request : Request) (place : Option (Nat × Nat)) (response : Response)
    (hreturned : .returned request place (.ok response) ∈ (runTotal (step service) (init device) inputs).1) :
    Recorded (runTotal (step service) (init device) inputs).2 request place response := by
  have hi : PairedSoFar service [] (init device) := ⟨⟨nofun, nofun⟩, nofun⟩
  exact (runTotal_along (step_pairedSoFar hservice) inputs [] hi hclean).2 request place response hreturned

/-- Requests and responses of one byte; the response to `n` is `n + 100`. -/
def plusHundred : Service UInt8 UInt8 Unit where
  encodeRequest request := [request]
  decodeRequest bytes := bytes.head?
  encodeResponse response := [response]
  decodeResponse bytes := bytes.head?
  handleRequest _ request := (request + 100, ())
  invalidJson := 0

theorem plusHundred_sound : plusHundred.Sound := ⟨fun _ => rfl, fun _ => rfl, fun _ _ => show 1 < 2 ^ 32 by decide⟩

/-- The camera reads the next request on stream 0 and answers it. -/
def answerNext : List (Input UInt8) := [.deviceRead 0 4, .deviceRead 0 1, .deviceReply 0 none]

def readNext : List (Input UInt8) := [.viewerRead 4, .viewerRead 1]

theorem run_response_paired_inTime : Recorded (runTotal (step plusHundred) (init ())
      (.sendControl 1 true none :: (answerNext ++ readNext))).2 1 (some (0, 0)) 101 :=
  run_response_paired plusHundred plusHundred_sound () _ (by decide +kernel) 1 (some (0, 0)) 101 (by decide +kernel)

/-- The first call times out while its response is on the way; the second call, on the same stream,
returns that response. -/
theorem late_response_taken :
    let inputs := .sendControl 1 true none :: (answerNext ++ .timeout :: .sendControl 2 true none ::
      (answerNext ++ readNext))
    .returned 2 (some (0, 1)) (.ok 101) ∈ (runTotal (step plusHundred) (init ()) inputs).1 ∧
      ¬ Recorded (runTotal (step plusHundred) (init ()) inputs).2 2 (some (0, 1)) 101 := by
  intro inputs
  refine ⟨by decide +kernel, ?_⟩
  rintro ⟨_, _, _, hp, hs, -, hr⟩
  cases hp
  have hse : (runTotal (step plusHundred) (init ()) inputs).2.streams[0]?.map
      ControlStream.served = some [(some 1, 101), (some 2, 102)] := by decide +kernel
  rw [hs] at hse
  rw [Option.some.inj hse] at hr
  revert hr
  decide

/-! ### The stream of the next call -/

/-- The viewer reconnects, upgrades or lets its stream go. -/
def Input.renews : Input Request → Bool
  | openStream | closeStream => true
  | _ => false

def Input.isCall : Input Request → Bool
  | sendControl _ _ _ => true
  | _ => false

/-- The stream that the next call uses, if one can be opened. -/
def System.nextStream (system : System Request Response δ) : Nat := system.current.getD system.streams.length

/-- The viewer's stream exists, and a call waits on no other. -/
structure Attached (system : System Request Response δ) : Prop where
  current : ∀ index, system.current = some index → index < system.streams.length
  call : ∀ found, system.call = some found → system.current = some found.stream

section Renewal

variable (service : Service Request Response δ) {system : System Request Response δ}

theorem call_nextStream (ha : Attached system) (hidle : system.call = none) (next : Request) :
    (step service system (.sendControl next true none)).2.call.map Call.stream = some system.nextStream := by
  unfold nextStream
  cases hc : system.current with
  | none => simp [step, sendControl, hidle, hc, addStream, sendOn]
  | some index => simp [step, sendControl, hidle, hc, sendOn, ha.current index hc]

/-- A call that returns on a stream leaves that stream to the viewer. -/
theorem attached_step (ha : Attached system) (inp : Input Request) :
    Attached (step service system inp).2 ∧ ∀ request index pos res,
      (step service system inp).1 = .returned request (some (index, pos)) res →
        (step service system inp).2.call = none ∧ (step service system inp).2.current = some index := by
  obtain ⟨_, _⟩ := ha
  cases inp
  all_goals
    simp only [step, sendControl, sendOn, viewerRead, deviceRead, deviceReply, finish, addStream, updateStream]
    repeat' split
  all_goals
    refine ⟨⟨?_, ?_⟩, ?_⟩
    all_goals grind [Option.isSome_eq_false_iff, Option.isNone_iff_eq_none]

theorem attached_run (ha : Attached system) (inputs : List (Input Request)) :
    Attached (runTotal (step service) system inputs).2 := by
  induction inputs generalizing system with
  | nil => exact ha
  | cons inp inputs ih => exact ih (attached_step service ha inp).1

variable {count : Nat} (hidle : system.call = none) (hcou : count ≤ system.streams.length)
include hidle hcou

theorem idle_step {inp : Input Request} (hi : inp.isCall = false) :
    (step service system inp).2.call = none ∧ count ≤ (step service system inp).2.streams.length ∧
      (count ≤ (step service system inp).2.nextStream ↔ count ≤ system.nextStream ∨ inp.renews) := by
  cases inp
  case sendControl => cases hi
  all_goals
    simp only [step, viewerRead, deviceRead, deviceReply, hidle, addStream, updateStream]
    repeat' split
  all_goals
    refine ⟨?_, ?_, ?_⟩
    all_goals grind [nextStream, Input.renews]

theorem idle_run {between : List (Input Request)} (hb : ∀ inp ∈ between, inp.isCall = false) :
    (runTotal (step service) system between).2.call = none ∧
      (count ≤ (runTotal (step service) system between).2.nextStream ↔
        count ≤ system.nextStream ∨ ∃ inp ∈ between, inp.renews) := by
  induction between generalizing system with
  | nil => simp [runTotal, hidle]
  | cons inp between ih =>
    obtain ⟨hc, hlen, hs⟩ := idle_step service hidle hcou (hb inp mem_cons_self)
    obtain ⟨hl, hr⟩ := ih hc hlen fun other ho => hb other (mem_cons_of_mem _ ho)
    refine ⟨hl, hr.trans ?_⟩
    simp [hs, or_assoc]

end Renewal

/-- The call after one that failed uses a stream opened since then exactly if the viewer reconnected, upgraded or let
its stream go in between. -/
theorem next_call_renewed_iff (service : Service Request Response δ) (device : δ) (calls between : List (Input Request))
    (hbetween : ∀ input ∈ between, input.isCall = false) (input : Input Request) (request next : Request)
    (index position : Nat) (error : ControlError) :
    let failing := step service (runTotal (step service) (init device) calls).2 input
    let last := (runTotal (step service) failing.2 between).2
    failing.1 = .returned request (some (index, position)) (.error error) →
      (step service last (.sendControl next true none)).2.call.map Call.stream = some last.nextStream ∧
        (failing.2.streams.length ≤ last.nextStream ↔ ∃ input ∈ between, input.renews = true) := by
  intro failing last hf
  have ha : Attached (init device : System Request Response δ) := ⟨nofun, nofun⟩
  obtain ⟨haf, hr⟩ := attached_step service (attached_run service ha calls) input
  obtain ⟨hidle, hc⟩ := hr request index position _ hf
  obtain ⟨hca, hre⟩ := idle_run service hidle (Nat.le_refl _) hbetween
  have ho : ¬ failing.2.streams.length ≤ failing.2.nextStream := by
    rw [nextStream, hc]
    exact Nat.not_le.2 (haf.current index hc)
  exact ⟨call_nextStream service (attached_run service haf between) hca next, hre.trans (or_iff_right ho)⟩

theorem next_call_renewed_iff_reconnected :
    let failing := step plusHundred (runTotal (step plusHundred) (init ()) [.sendControl 1 true none]).2 .timeout
    let last := (runTotal (step plusHundred) failing.2 [.closeStream]).2
    (step plusHundred last (.sendControl 2 true none)).2.call.map Call.stream = some last.nextStream ∧
      failing.2.streams.length ≤ last.nextStream := by
  intro failing last
  have hn := next_call_renewed_iff plusHundred () [.sendControl 1 true none] [.closeStream] (by simp [Input.isCall])
    .timeout 1 2 0 0 .timeout rfl
  exact ⟨hn.1, hn.2.2 ⟨_, mem_singleton_self _, rfl⟩⟩

/-- The first call times out; the second one is made on the same stream. -/
theorem failed_stream_reused :
    let failing := step plusHundred (runTotal (step plusHundred) (init ()) [.sendControl 1 true none]).2 .timeout
    failing.1 = .returned 1 (some (0, 0)) (.error .timeout) ∧
      (step plusHundred failing.2 (.sendControl 2 true none)).2.call.map Call.stream = some 0 :=
  ⟨rfl, rfl⟩

end RustLibp2p.Camera.Control
