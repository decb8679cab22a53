import RustLibp2p.Bytes
import RustLibp2p.Transition

/-! The control channel between a viewer and a camera. A frame is a four-byte length and a JSON payload;
nothing in it says which request it belongs to. The bytes in transit on the two directions of a stream
are explicit, so a reply may be on its way for any time and arrive in any pieces. -/

namespace RustLibp2p.Camera.Control
open Bytes

def lenSize : Nat := 4
def maxFrameSize : Nat := 1024 * 1024

/-- The length is cast to 32 bits, whatever the payload. -/
def writeFrame (payload : List UInt8) : List UInt8 := beBytes lenSize (payload.length % 2 ^ 32) ++ payload

/-- How far `read_frame` has come. What it holds is lost when it is dropped. -/
inductive FrameReader where
  | length (got : List UInt8)
  | payload (len : Nat) (got : List UInt8)

/-- What `read_frame` makes of some more bytes. -/
inductive FrameProgress where
  | pending (reader : FrameReader)
  | complete (payload : List UInt8)
  | tooLarge (len : Nat)

namespace FrameReader

def start : FrameReader := length []

/-- What `read_exact` still asks for. -/
def need : FrameReader → Nat
  | length got => lenSize - got.length
  | payload len got => len - got.length

/-- The bytes taken off the stream so far. -/
def taken : FrameReader → List UInt8
  | length got => got
  | payload len got => beBytes lenSize len ++ got

def feed (bytes : List UInt8) : FrameReader → FrameProgress
  | length got =>
    if (got ++ bytes).length < lenSize then .pending (length (got ++ bytes))
    else
      let len := fromBeBytes (got ++ bytes)
      if maxFrameSize < len then .tooLarge len
      else if len = 0 then .complete []
      else .pending (payload len [])
  | payload len got =>
    if (got ++ bytes).length < len then .pending (payload len (got ++ bytes))
    else .complete (got ++ bytes)

/-- At most `count` bytes arrive, and never more than were asked for. -/
def read (count : Nat) (channel : List UInt8) (reader : FrameReader) : FrameProgress × List UInt8 :=
  (reader.feed (channel.take (min count reader.need)), channel.drop (min count reader.need))

end FrameReader

/-- What the two ends do with requests and responses: `serde_json` and the camera's request handler,
which works on a state of type `δ`. -/
structure Service (Request Response δ : Type) where
  encodeRequest : Request → List UInt8
  decodeRequest : List UInt8 → Option Request
  encodeResponse : Response → List UInt8
  decodeResponse : List UInt8 → Option Response
  handleRequest : δ → Request → Response × δ
  /-- `ControlResponse::err("invalid json")`. -/
  invalidJson : Response

variable {Request Response δ : Type}

/-- Where the camera's handler of a stream waits. -/
inductive Handler (Response : Type) where
  | reading (reader : FrameReader)
  /-- The response is to be written; the handler ends if that fails, except after invalid JSON. -/
  | replying (response : Response) (endsOnError : Bool)
  | ended

/-- The bytes in transit in both directions and the camera's handler. The other fields are a record of
what happened and are not part of the program. -/
structure ControlStream (Request Response : Type) where
  toDevice : List UInt8
  toViewer : List UInt8
  handler : Handler Response
  sent : List Request
  served : List (Option Request × Response)
  failed : Bool

def ControlStream.opened : ControlStream Request Response := ⟨[], [], .reading .start, [], [], false⟩

inductive ControlError where
  | notReady
  | io
  | timeout
  | tooLarge (len : Nat)
  | json
  deriving DecidableEq

/-- A call that waits for its response: its request is number `position` of those written to the stream.
-/
structure Call (Request : Type) where
  request : Request
  stream : Nat
  position : Nat
  reader : FrameReader

structure System (Request Response δ : Type) where
  streams : List (ControlStream Request Response)
  /-- The viewer's `control_stream`. -/
  current : Option Nat
  call : Option (Call Request)
  device : δ

inductive Input (Request : Type) where
  /-- The viewer connects, or upgrades to a direct connection: it gets a new control stream. -/
  | openStream
  /-- The viewer reconnects or shuts down: `control_stream = None`. -/
  | closeStream
  /-- `send_control`. A stream is opened on demand if `opens`; the write of the frame fails after
  some bytes if `cut` says so. -/
  | sendControl (request : Request) (opens : Bool) (cut : Option Nat)
  | viewerRead (count : Nat)
  | timeout
  | viewerReadError
  | deviceRead (stream count : Nat)
  | deviceReply (stream : Nat) (cut : Option Nat)
  | deviceReadError (stream : Nat)

/-- A call returns; `place` is the stream and the position of its request there. -/
inductive Output (Request Response : Type) where
  | none
  | returned (request : Request) (place : Option (Nat × Nat)) (result : Except ControlError Response)
  deriving DecidableEq

namespace System

section

variable (system : System Request Response δ)

def updateStream (index : Nat)
    (f : ControlStream Request Response → ControlStream Request Response) : System Request Response δ :=
  { system with streams := system.streams.modify index f }

def addStream : System Request Response δ :=
  { system with streams := system.streams ++ [.opened], current := some system.streams.length }

/-- The waiting call ends; only a call that has read a whole frame leaves the stream in step. -/
def finish (call : Call Request) (ended : Bool)
    (result : Except ControlError Response) : Output Request Response × System Request Response δ :=
  (.returned call.request (some (call.stream, call.position)) result,
    { system.updateStream call.stream (fun stream => { stream with failed := stream.failed || !ended }) with
      call := none })

end

section

variable (service : Service Request Response δ) (system : System Request Response δ) (request : Request)

/-- `send_control` up to the point where it waits for the response. -/
def sendOn (index : Nat) (cut : Option Nat) : Output Request Response × System Request Response δ :=
  match system.streams[index]? with
  | none => (.none, system)
  | some stream =>
    let frame := writeFrame (service.encodeRequest request)
    match cut with
    | some count =>
      (.returned request (some (index, stream.sent.length)) (.error .io), system.updateStream index fun stream =>
          { stream with toDevice := stream.toDevice ++ frame.take count, failed := true })
    | none =>
      (.none, { system.updateStream index (fun stream =>
            { stream with toDevice := stream.toDevice ++ frame, sent := stream.sent ++ [request] }) with
          call := some ⟨request, index, stream.sent.length, .start⟩ })

def sendControl (opens : Bool) (cut : Option Nat) : Output Request Response × System Request Response δ :=
  match system.current with
  | some index => system.sendOn service request index cut
  | none =>
    if opens then system.addStream.sendOn service request system.streams.length cut
    else (.returned request none (.error .notReady), system)

def viewerRead (count : Nat) : Output Request Response × System Request Response δ :=
  match system.call with
  | none => (.none, system)
  | some call =>
    match system.streams[call.stream]? with
    | none => (.none, system)
    | some stream =>
      let (progress, toViewer) := call.reader.read count stream.toViewer
      let system := system.updateStream call.stream fun stream => { stream with toViewer := toViewer }
      match progress with
      | .pending reader => (.none, { system with call := some { call with reader := reader } })
      | .tooLarge len => system.finish call false (.error (.tooLarge len))
      | .complete payload =>
        match service.decodeResponse payload with
        | none => system.finish call true (.error .json)
        | some response => system.finish call true (.ok response)

/-- The handler has read a frame: the response it will send and the state of the camera. -/
def serve (device : δ) (payload : List UInt8) : Option Request × Response × δ :=
  match service.decodeRequest payload with
  | none => (none, service.invalidJson, device)
  | some request =>
    let (response, device) := service.handleRequest device request
    (some request, response, device)

def deviceRead (index count : Nat) : System Request Response δ :=
  match system.streams[index]? with
  | some { handler := .reading reader, toDevice, .. } =>
    let (progress, toDevice) := reader.read count toDevice
    match progress with
    | .pending reader => system.updateStream index fun stream =>
      { stream with toDevice := toDevice, handler := .reading reader }
    | .tooLarge _ => system.updateStream index fun stream => { stream with toDevice := toDevice, handler := .ended }
    | .complete payload =>
      let (request, response, device) := serve service system.device payload
      { system.updateStream index (fun stream =>
          { stream with
            toDevice := toDevice
            handler := .replying response request.isSome
            served := stream.served ++ [(request, response)] }) with
        device := device }
  | _ => system

/-- The handler writes its response, or fails after some bytes of it. -/
def deviceReply (index : Nat) (cut : Option Nat) : System Request Response δ :=
  match system.streams[index]? with
  | some { handler := .replying response endsOnError, .. } =>
    let frame := writeFrame (service.encodeResponse response)
    match cut with
    | none => system.updateStream index fun stream =>
      { stream with toViewer := stream.toViewer ++ frame, handler := .reading .start }
    | some count => system.updateStream index fun stream =>
      { stream with
        toViewer := stream.toViewer ++ frame.take count
        handler := if endsOnError then .ended else .reading .start }
  | _ => system

/-- `&mut self` keeps the viewer from doing anything else while a call waits. -/
def step : Input Request → Output Request Response × System Request Response δ
  | .openStream => (.none, if system.call.isSome then system else system.addStream)
  | .closeStream => (.none, if system.call.isSome then system else { system with current := none })
  | .sendControl request opens cut =>
    if system.call.isSome then (.none, system) else system.sendControl service request opens cut
  | .viewerRead count => system.viewerRead service count
  | .timeout =>
    match system.call with
    | none => (.none, system)
    | some call => system.finish call false (.error .timeout)
  | .viewerReadError =>
    match system.call with
    | none => (.none, system)
    | some call => system.finish call false (.error .io)
  | .deviceRead index count => (.none, system.deviceRead service index count)
  | .deviceReply index cut => (.none, system.deviceReply service index cut)
  | .deviceReadError index => (.none, system.updateStream index fun stream =>
    { stream with handler := match stream.handler with
        | .reading _ => .ended
        | handler => handler })

end

def init (device : δ) : System Request Response δ := ⟨[], none, none, device⟩

end System

/-! A control stream in step: the frames in transit are exactly those of the requests not yet served and
of the responses not yet read, so the frame that a call reads is the answer to its own request. -/
open List FrameReader Control.System

variable {next : FrameReader}

namespace FrameReader

/-- The states in which `read_exact` still waits. -/
def Waiting : FrameReader → Prop
  | length got => got.length < lenSize
  | payload len got => got.length < len ∧ len ≤ maxFrameSize

theorem waiting_start : start.Waiting := Nat.succ_pos 3

theorem take_length_le_need (reader : FrameReader) (count : Nat) (channel : List UInt8) :
    (channel.take (min count reader.need)).length ≤ reader.need := by
  rw [length_take]
  omega

variable {reader : FrameReader} {count : Nat} {channel rest : List UInt8}

theorem feed_cases (hw : reader.Waiting) {bytes : List UInt8} (hb : bytes.length ≤ reader.need) :
    (∃ next, reader.feed bytes = .pending next ∧ next.Waiting ∧ next.taken = reader.taken ++ bytes) ∨
      (∃ payload, reader.feed bytes = .complete payload ∧ payload.length ≤ maxFrameSize ∧
        writeFrame payload = reader.taken ++ bytes) ∨
      ∃ len, reader.feed bytes = .tooLarge len := by
  cases reader with
  | length got =>
    simp only [need, Waiting] at hb hw
    have hlen : (got ++ bytes).length = got.length + bytes.length := length_append
    by_cases hs : (got ++ bytes).length < lenSize
    · exact .inl ⟨_, if_pos hs, hs, rfl⟩
    have hf : (got ++ bytes).length = lenSize := by omega
    have hbe : beBytes lenSize (fromBeBytes (got ++ bytes)) = got ++ bytes := by
      rw [← hf]
      exact beBytes_fromBeBytes _
    simp only [feed, if_neg hs, taken]
    by_cases hl : maxFrameSize < fromBeBytes (got ++ bytes)
    · exact .inr (.inr ⟨_, if_pos hl⟩)
    rw [if_neg hl]
    by_cases hz : fromBeBytes (got ++ bytes) = 0
    · refine .inr (.inl ⟨[], if_pos hz, Nat.zero_le _, ?_⟩)
      rw [hz] at hbe
      rw [← hbe]
      rfl
    · refine .inl ⟨_, if_neg hz, ⟨Nat.pos_of_ne_zero hz, Nat.not_lt.1 hl⟩, ?_⟩
      show beBytes lenSize (fromBeBytes (got ++ bytes)) ++ [] = got ++ bytes
      rw [append_nil, hbe]
  | payload len got =>
    simp only [need, Waiting] at hb hw
    have hlen : (got ++ bytes).length = got.length + bytes.length := length_append
    simp only [feed, taken]
    by_cases hs : (got ++ bytes).length < len
    · exact .inl ⟨_, if_pos hs, ⟨hs, hw.2⟩, (append_assoc _ _ _).symm⟩
    have hf : (got ++ bytes).length = len := by omega
    refine .inr (.inl ⟨_, if_neg hs, by omega, ?_⟩)
    rw [writeFrame, hf, Nat.mod_eq_of_lt, append_assoc]
    have := hw.2
    simp only [maxFrameSize] at this
    omega

theorem read_pending (hw : reader.Waiting)
    (hr : reader.read count channel = (.pending next, rest)) :
    next.Waiting ∧ next.taken ++ rest = reader.taken ++ channel := by
  obtain ⟨hf, rfl⟩ := Prod.mk.inj hr
  rcases feed_cases hw (take_length_le_need reader count channel) with
    ⟨found, hfo, hn, ht⟩ | ⟨payload, hfo, -⟩ | ⟨len, hfo⟩
  · cases hf.symm.trans hfo
    rw [ht, append_assoc, take_append_drop]
    exact ⟨hn, rfl⟩
  all_goals cases hf.symm.trans hfo

theorem read_complete (hw : reader.Waiting)
    {payload : List UInt8} (hr : reader.read count channel = (.complete payload, rest)) :
    payload.length ≤ maxFrameSize ∧ writeFrame payload ++ rest = reader.taken ++ channel := by
  obtain ⟨hf, rfl⟩ := Prod.mk.inj hr
  rcases feed_cases hw (take_length_le_need reader count channel) with
    ⟨found, hfo, -⟩ | ⟨found, hfo, hs, ht⟩ | ⟨len, hfo⟩
  · cases hf.symm.trans hfo
  · cases hf.symm.trans hfo
    rw [ht, append_assoc, take_append_drop]
    exact ⟨hs, rfl⟩
  · cases hf.symm.trans hfo

end FrameReader

def frames {α : Type} (encode : α → List UInt8) (items : List α) : List UInt8 :=
  items.flatMap fun item => writeFrame (encode item)

variable {α : Type} {payload rest : List UInt8}

theorem frames_append (encode : α → List UInt8) (items items' : List α) :
    frames encode (items ++ items') = frames encode items ++ frames encode items' :=
  flatMap_append

theorem writeFrame_inj {payload' rest' : List UInt8} (hf : payload.length < 2 ^ 32)
    (hf' : payload'.length < 2 ^ 32) (heq : writeFrame payload ++ rest = writeFrame payload' ++ rest') :
    payload = payload' ∧ rest = rest' := by
  simp only [writeFrame, append_assoc] at heq
  obtain ⟨hlen, hb⟩ := append_inj heq (by simp)
  have hl : payload.length = payload'.length := by
    have hv := congrArg fromBeBytes hlen
    rwa [Nat.mod_eq_of_lt hf, Nat.mod_eq_of_lt hf', fromBeBytes_beBytes_of_lt hf, fromBeBytes_beBytes_of_lt hf'] at hv
  exact append_inj hb hl

theorem frames_first {encode : α → List UInt8} {items : List α}
    (hi : ∀ item ∈ items, (encode item).length < 2 ^ 32) {done : Nat}
    (hs : payload.length ≤ maxFrameSize) (heq : writeFrame payload ++ rest = frames encode (items.drop done)) :
    ∃ item, items[done]? = some item ∧ payload = encode item ∧ rest = frames encode (items.drop (done + 1)) := by
  have hf : payload.length < 2 ^ 32 := by simp only [maxFrameSize] at hs; omega
  by_cases hd : done < items.length
  · rw [drop_eq_getElem_cons hd] at heq
    obtain ⟨hp, hr⟩ := writeFrame_inj hf (hi _ (getElem_mem hd)) heq
    exact ⟨_, getElem?_eq_getElem hd, hp, hr⟩
  · rw [drop_eq_nil_of_le (by omega)] at heq
    have hlen := congrArg List.length heq
    simp [writeFrame, frames, lenSize] at hlen

/-- What is asked of the JSON library and of the camera: what was encoded decodes again, and a response
fits its length field. -/
structure Service.Sound (service : Service Request Response δ) : Prop where
  decodeRequest_encode : ∀ request, service.decodeRequest (service.encodeRequest request) = some request
  decodeResponse_encode : ∀ response, service.decodeResponse (service.encodeResponse response) = some response
  response_fits : ∀ device request, (service.encodeResponse (service.handleRequest device request).1).length < 2 ^ 32

/-- The bytes that the waiting call has taken off the stream. -/
def readSoFar : Option (Call Request) → List UInt8
  | none => []
  | some call => call.reader.taken

/-- The number of responses that calls have read off the stream. -/
def readCount (stream : ControlStream Request Response) : Option (Call Request) → Nat
  | none => stream.sent.length
  | some call => call.position

section Streams

variable (service : Service Request Response δ)

/-- The bytes on their way to the handler are the frames of the requests it has not served. -/
def Inbound (toDevice : List UInt8) (unserved : List Request) : Handler Response → Prop
  | .reading reader => reader.Waiting ∧ reader.taken ++ toDevice = frames service.encodeRequest unserved
  | .replying _ _ => toDevice = frames service.encodeRequest unserved
  | .ended => True

/-- The bytes on their way to the viewer are the frames of the responses that it has not read. -/
def Outbound (responses : List Response) (done : Nat) (bytes : List UInt8) : Handler Response → Prop
  | .reading _ => done ≤ responses.length ∧ bytes = frames service.encodeResponse (responses.drop done)
  | .replying response endsOnError => endsOnError = true ∧
      ∃ earlier, responses = earlier ++ [response] ∧ done ≤ earlier.length ∧
        bytes = frames service.encodeResponse (earlier.drop done)
  | .ended => bytes <+: frames service.encodeResponse (responses.drop done)

/-- A stream on which every call so far has read one whole frame, except for one that waits. -/
structure InStep (stream : ControlStream Request Response) (call : Option (Call Request)) : Prop where
  requests_fit : ∀ request ∈ stream.sent, (service.encodeRequest request).length < 2 ^ 32
  responses_fit : ∀ response ∈ stream.served.map Prod.snd, (service.encodeResponse response).length < 2 ^ 32
  served_requests : stream.served.map Prod.fst = (stream.sent.take stream.served.length).map some
  waiting : ∀ found, call = some found → found.position + 1 = stream.sent.length ∧
    stream.sent[found.position]? = some found.request ∧ found.reader.Waiting
  inbound : Inbound service stream.toDevice (stream.sent.drop stream.served.length) stream.handler
  outbound : Outbound service (stream.served.map Prod.snd) (readCount stream call)
    (readSoFar call ++ stream.toViewer) stream.handler

variable {service} {stream : ControlStream Request Response} {call : Option (Call Request)}

theorem InStep.served_le (hstep : InStep service stream call) : stream.served.length ≤ stream.sent.length := by
  have hlen := congrArg List.length hstep.served_requests
  rw [length_map, length_map, length_take] at hlen
  omega

variable (service) in
theorem InStep.opened : InStep service (.opened : ControlStream Request Response) none where
  requests_fit := nofun
  responses_fit := nofun
  served_requests := rfl
  waiting := nofun
  inbound := ⟨waiting_start, rfl⟩
  outbound := ⟨Nat.le_refl 0, rfl⟩

variable {request : Request} {found : Call Request}

theorem InStep.send (hstep : InStep service stream none)
    (hf : (service.encodeRequest request).length < 2 ^ 32) (idx : Nat) : InStep service { stream with
        toDevice := stream.toDevice ++ writeFrame (service.encodeRequest request)
        sent := stream.sent ++ [request] }
      (some ⟨request, idx, stream.sent.length, .start⟩) where
  __ := hstep
  requests_fit := by
    intro found hfo
    rcases mem_append.1 hfo with ho | hn
    · exact hstep.requests_fit found ho
    · rwa [mem_singleton.1 hn]
  served_requests := by
    rw [take_append_of_le_length hstep.served_le]
    exact hstep.served_requests
  waiting := by
    rintro found ⟨⟩
    refine ⟨?_, by simp, waiting_start⟩
    rw [length_append, length_singleton]
  inbound := by
    have hi := hstep.inbound
    rw [drop_append_of_le_length hstep.served_le]
    have hl : frames service.encodeRequest [request] = writeFrame (service.encodeRequest request) :=
      flatMap_singleton _ _
    cases hhan : stream.handler with
    | reading =>
      rw [hhan] at hi
      exact ⟨hi.1, by rw [frames_append, hl, ← hi.2, append_assoc]⟩
    | replying =>
      rw [hhan] at hi
      show _ = _
      rw [frames_append, hl, ← hi]
    | ended => trivial

variable {count : Nat} {reader : FrameReader} {response : Response}

theorem InStep.viewer_pending (hstep : InStep service stream (some found)) {toViewer : List UInt8}
    (hr : found.reader.read count stream.toViewer = (.pending reader, toViewer)) :
    InStep service { stream with toViewer } (some { found with reader }) := by
  obtain ⟨hpos, hre, hw⟩ := hstep.waiting found rfl
  obtain ⟨hn, ht⟩ := read_pending hw hr
  refine { hstep with waiting := ?_, outbound := ?_ }
  · rintro _ ⟨⟩
    exact ⟨hpos, hre, hn⟩
  · have ho := hstep.outbound
    rw [readSoFar, ← ht] at ho
    exact ho

theorem InStep.served_at (hstep : InStep service stream call) {pos : Nat} (hr : stream.sent[pos]? = some request)
    (hre : (stream.served.map Prod.snd)[pos]? = some response) :
    stream.served[pos]? = some (some request, response) := by
  rw [List.getElem?_map] at hre
  obtain ⟨⟨_, _⟩, he, rfl⟩ := Option.map_eq_some_iff.1 hre
  have ha := congrArg (fun list => list[pos]?) hstep.served_requests
  have hpos := (List.getElem?_eq_some_iff.1 he).1
  simp only [getElem?_map, he, getElem?_take_of_lt hpos, hr, Option.map_some] at ha
  rw [he, Option.some.inj ha]

theorem InStep.viewer_complete (hstep : InStep service stream (some found)) {payload toViewer : List UInt8}
    (hr : found.reader.read count stream.toViewer = (.complete payload, toViewer)) :
    ∃ response, payload = service.encodeResponse response ∧
      stream.served[found.position]? = some (some found.request, response) ∧
      InStep service { stream with toViewer } none := by
  obtain ⟨hpos, hre, hw⟩ := hstep.waiting found rfl
  obtain ⟨hs, ht⟩ := read_complete hw hr
  have ho := hstep.outbound
  rw [readSoFar, ← ht, readCount] at ho
  -- One more response has been read; what remains is in transit as before.
  suffices hn : ∃ response, (stream.served.map Prod.snd)[found.position]? = some response ∧
      payload = service.encodeResponse response ∧
      Outbound service (stream.served.map Prod.snd) stream.sent.length toViewer stream.handler by
    obtain ⟨response, hrs, hp, hrt⟩ := hn
    exact ⟨response, hp, hstep.served_at hre hrs, hstep.requests_fit,
      hstep.responses_fit, hstep.served_requests, nofun, hstep.inbound, hrt⟩
  rw [← hpos]
  cases hhan : stream.handler with
  | reading =>
    rw [hhan] at ho
    obtain ⟨response, hrs, hp, hrt⟩ := frames_first hstep.responses_fit hs ho.2
    exact ⟨response, hrs, hp, (List.getElem?_eq_some_iff.1 hrs).1, hrt⟩
  | replying =>
    rw [hhan] at ho
    obtain ⟨he, earlier, hea, -, heq⟩ := ho
    have hf : ∀ response ∈ earlier, (service.encodeResponse response).length < 2 ^ 32 :=
      fun response hmem => hstep.responses_fit response (hea ▸ mem_append_left _ hmem)
    obtain ⟨response, hrs, hp, hrt⟩ := frames_first hf hs heq
    have hb := (List.getElem?_eq_some_iff.1 hrs).1
    exact ⟨response, by rw [hea, getElem?_append_left hb, hrs], hp, he, earlier, hea, hb, hrt⟩
  | ended =>
    rw [hhan] at ho
    obtain ⟨tail, hta⟩ := ho
    rw [append_assoc] at hta
    obtain ⟨response, hrs, hp, hrt⟩ := frames_first hstep.responses_fit hs hta
    exact ⟨response, hrs, hp, tail, hrt⟩

section

variable (hstep : InStep service stream call)
include hstep

theorem InStep.device_pending (hhan : stream.handler = .reading reader) {toDevice : List UInt8}
    (hr : reader.read count stream.toDevice = (.pending next, toDevice)) :
    InStep service { stream with toDevice, handler := .reading next } call := by
  have hin := hstep.inbound
  have ho := hstep.outbound
  rw [hhan] at hin ho
  obtain ⟨hn, ht⟩ := read_pending hin.1 hr
  exact { hstep with inbound := ⟨hn, ht.trans hin.2⟩, outbound := ho }

theorem InStep.device_ended (hhan : stream.handler = .reading reader)
    (toDevice : List UInt8) : InStep service { stream with toDevice, handler := .ended } call := by
  have ho := hstep.outbound
  rw [hhan] at ho
  exact { hstep with inbound := trivial, outbound := ho.2 ▸ prefix_rfl }

/-- The handler has read a whole frame: it is the next request, and the handler's answer is recorded
next to it. -/
theorem InStep.device_complete (hs : service.Sound) (hhan : stream.handler = .reading reader)
    {payload toDevice : List UInt8}
    (hr : reader.read count stream.toDevice = (.complete payload, toDevice)) (device : δ) :
    InStep service { stream with
        toDevice
        handler := .replying (serve service device payload).2.1 (serve service device payload).1.isSome
        served := stream.served ++ [((serve service device payload).1, (serve service device payload).2.1)] }
      call := by
  have hin := hstep.inbound
  have ho := hstep.outbound
  rw [hhan] at hin ho
  obtain ⟨hsi, ht⟩ := read_complete hin.1 hr
  obtain ⟨request, hre, rfl, hrs⟩ := frames_first hstep.requests_fit hsi (ht.trans hin.2)
  have hse : serve service device (service.encodeRequest request) =
      (some request, service.handleRequest device request) := by
    rw [serve, hs.decodeRequest_encode]
  rw [hse]
  refine ⟨hstep.requests_fit, ?_, ?_, hstep.waiting, ?_, ?_⟩
  · intro response hres
    rw [map_append] at hres
    rcases mem_append.1 hres with hol | hn
    · exact hstep.responses_fit response hol
    · rw [mem_singleton.1 hn]
      exact hs.response_fits device request
  · have hta : stream.sent.take (stream.served.length + 1) = stream.sent.take stream.served.length ++ [request] := by
      rw [take_add_one, hre]
      rfl
    simp [hta, hstep.served_requests]
  · show toDevice = frames service.encodeRequest (stream.sent.drop (stream.served ++ _).length)
    rw [length_append]
    exact hrs
  · refine ⟨rfl, stream.served.map Prod.snd, ?_, ho.1, ho.2⟩
    rw [map_append]
    rfl

variable {endsOnError : Bool}

section

variable (hhan : stream.handler = .replying response endsOnError)
include hhan

theorem InStep.device_replied : InStep service { stream with
        toViewer := stream.toViewer ++ writeFrame (service.encodeResponse response)
        handler := .reading .start } call := by
  have hin := hstep.inbound
  have ho := hstep.outbound
  rw [hhan] at hin ho
  obtain ⟨-, _, he, hd, heq⟩ := ho
  refine ⟨hstep.requests_fit, hstep.responses_fit, hstep.served_requests, hstep.waiting, ⟨waiting_start, hin⟩, ?_, ?_⟩
  · show readCount stream call ≤ (stream.served.map Prod.snd).length
    rw [he, length_append]
    omega
  show readSoFar call ++ (stream.toViewer ++ _) =
    frames service.encodeResponse ((stream.served.map Prod.snd).drop (readCount stream call))
  rw [he, drop_append_of_le_length hd, frames_append, ← heq, append_assoc]
  exact congrArg _ (congrArg _ (flatMap_singleton _ _).symm)

theorem InStep.device_cut (count : Nat) : InStep service { stream with
        toViewer := stream.toViewer ++ (writeFrame (service.encodeResponse response)).take count
        handler := if endsOnError then .ended else .reading .start } call := by
  have hw := (hstep.device_replied hhan).outbound
  have ho := hstep.outbound
  rw [hhan] at ho
  rw [ho.1, if_pos rfl]
  refine { hstep with inbound := trivial, outbound := ?_ }
  refine ⟨(writeFrame (service.encodeResponse response)).drop count, Eq.trans ?_ hw.2⟩
  simp

end
end
end Streams
end RustLibp2p.Camera.Control
