import RustLibp2p.MultistreamMessage

/-! Negotiating a protocol on a stream: the futures of the two sides, the stream that they resolve to, and
the two sides with a transport between them. -/

namespace RustLibp2p.Multistream
open PollIo

variable [UnsignedVarint]

/-- A stream on which a protocol was settled, possibly before the remote has confirmed it. -/
inductive Negotiated where
  | expecting (io : LengthDelimited) (header : Option HeaderLine) (protocol : Protocol)
  | completed
  | invalid

/-- A negotiation: the future while it is pending, and what it resolves to. -/
inductive Party (σ : Type) where
  | selecting (future : σ)
  | settled (protocol : String) (stream : Negotiated)
  | failed (error : NegotiationError)

namespace Party

variable {σ : Type}

def ioError (error : IoError) : Party σ := .failed (.protocolError (.ioError error))

def protocolError (error : ProtocolError) : Party σ := .failed (.protocolError error)

/-- The negotiation is complete; panics while the framing holds bytes. -/
def completed (io : LengthDelimited) (protocol : String) : Party σ :=
  match io.intoInner with
  | .ok () => .settled protocol .completed
  | .error error => .ioError error

end Party

inductive DialerPhase where
  | sendHeader
  | sendProtocol (protocol : String)
  | flushProtocol (protocol : String)
  | awaitProtocol (protocol : String)

/-- `DialerSelectFuture` before it is done: the protocols that have not been proposed and the stream. -/
structure Dialer where
  version : Version
  protocols : List String
  io : LengthDelimited
  phase : DialerPhase

def dialerSelectProto (protocols : List String) (version : Version) : Dialer := ⟨version, protocols, .new, .sendHeader⟩

namespace Dialer

/-- One turn of the loop in `poll`. -/
def turn : Dialer × Port → Turn (Dialer × Port) (Party Dialer × Port)
  | (dialer, port) =>
    match dialer.phase with
    | .sendHeader =>
      match dialer.io.pollReady port with
      | (.pending, io, port) => .stop (.selecting { dialer with io := io }, port)
      | (.ready (.error error), _, port) => .stop (.ioError error, port)
      | (.ready (.ok ()), io, port) =>
        match startSend io (.header (.ofVersion dialer.version)) with
        | .error error => .stop (.protocolError error, port)
        | .ok io =>
          match dialer.protocols with
          | [] => .stop (.failed .failed, port)
          | protocol :: protocols =>
            .next ({ dialer with protocols := protocols, io := io, phase := .sendProtocol protocol }, port)
    | .sendProtocol protocol =>
      match dialer.io.pollReady port with
      | (.pending, io, port) => .stop (.selecting { dialer with io := io }, port)
      | (.ready (.error error), _, port) => .stop (.ioError error, port)
      | (.ready (.ok ()), io, port) =>
        match Protocol.tryFromStr protocol with
        | .error error => .stop (.protocolError error, port)
        | .ok p =>
          match startSend io (.protocol p) with
          | .error error => .stop (.protocolError error, port)
          | .ok io =>
            if dialer.protocols ≠ [] ∨ dialer.version = .v1 then
              .next ({ dialer with io := io, phase := .flushProtocol protocol }, port)
            else
              -- the only effect of the lazy version: the last protocol is settled at once
              .stop (.settled protocol (.expecting io (some (.ofVersion .v1Lazy)) p), port)
    | .flushProtocol protocol =>
      match dialer.io.pollFlush port with
      | (.pending, io, port) => .stop (.selecting { dialer with io := io }, port)
      | (.ready (.error error), _, port) => .stop (.ioError error, port)
      | (.ready (.ok ()), io, port) => .next ({ dialer with io := io, phase := .awaitProtocol protocol }, port)
    | .awaitProtocol protocol =>
      match pollStream dialer.io port with
      | (.pending, io, port) => .stop (.selecting { dialer with io := io }, port)
      | (.ready none, _, port) => .stop (.failed .failed, port)
      | (.ready (some (.error error)), _, port) => .stop (.protocolError error, port)
      | (.ready (some (.ok message)), io, port) =>
        match message with
        | .header line =>
          if line = .ofVersion dialer.version then .next ({ dialer with io := io }, port)
          else .stop (.protocolError .invalidMessage, port)
        | .protocol p =>
          if p.name = protocol then .stop (.completed io protocol, port)
          else .stop (.protocolError .invalidMessage, port)
        | .notAvailable =>
          match dialer.protocols with
          | [] => .stop (.failed .failed, port)
          | protocol :: protocols =>
            .next ({ dialer with protocols := protocols, io := io, phase := .sendProtocol protocol }, port)
        | _ => .stop (.protocolError .invalidMessage, port)

def poll (dialer : Dialer) (port : Port) : Party Dialer × Port :=
  (loop turn (4 * port.answers.length + 4) (dialer, port)).getD (.selecting dialer, port)

end Dialer

inductive ListenerPhase where
  | recvHeader
  | sendHeader
  | recvMessage
  | sendMessage (message : Message) (protocol : Option String)
  | flush (protocol : Option String)

/-- `ListenerSelectFuture` before it is done. -/
structure Listener where
  protocols : List (String × Protocol)
  io : LengthDelimited
  phase : ListenerPhase
  lastSentNa : Bool

/-- Names that are not valid are left out. -/
def supportedProtocols (protocols : List String) : List (String × Protocol) :=
  protocols.filterMap fun name => (Protocol.tryFromStr name).toOption.map fun p => (name, p)

def listenerSelectProto (protocols : List String) : Listener := ⟨supportedProtocols protocols, .new, .recvHeader, false⟩

namespace Listener

/-- The name under which a protocol is supported. -/
def find (listener : Listener) (p : Protocol) : Option String :=
  listener.protocols.findSome? fun entry => if p = entry.2 then some entry.1 else none

/-- The answer to a message, if it can be answered, and the protocol that is settled with it. -/
def reply (listener : Listener) : Message → Option (Message × Option String)
  | .listProtocols => some (.protocols (listener.protocols.map Prod.snd), none)
  | .protocol p =>
    match listener.find p with
    | some name => some (.protocol p, some name)
    | none => some (.notAvailable, none)
  | _ => none

/-- What an error while reading means: after a rejection the dialer may have settled lazily on what was
rejected, and what it sends is not a message. -/
def readError (listener : Listener) (error : ProtocolError) : NegotiationError :=
  if listener.lastSentNa ∧ (error = .invalidMessage ∨ error = .ioError .unexpectedEof) then .failed
  else .protocolError error

/-- One turn of the loop in `poll`. -/
def turn : Listener × Port → Turn (Listener × Port) (Party Listener × Port)
  | (listener, port) =>
    match listener.phase with
    | .recvHeader =>
      match pollStream listener.io port with
      | (.pending, io, port) => .stop (.selecting { listener with io := io }, port)
      | (.ready none, _, port) => .stop (.failed .failed, port)
      | (.ready (some (.error error)), _, port) => .stop (.protocolError error, port)
      | (.ready (some (.ok message)), io, port) =>
        if message = .header .v1 then .next ({ listener with io := io, phase := .sendHeader }, port)
        else .stop (.protocolError .invalidMessage, port)
    | .sendHeader =>
      match listener.io.pollReady port with
      | (.pending, io, port) => .stop (.selecting { listener with io := io }, port)
      | (.ready (.error error), _, port) => .stop (.ioError error, port)
      | (.ready (.ok ()), io, port) =>
        match startSend io (.header .v1) with
        | .error error => .stop (.protocolError error, port)
        | .ok io => .next ({ listener with io := io, phase := .flush none }, port)
    | .recvMessage =>
      match pollStream listener.io port with
      | (.pending, io, port) => .stop (.selecting { listener with io := io }, port)
      | (.ready none, _, port) => .stop (.failed .failed, port)
      | (.ready (some (.error error)), _, port) => .stop (.failed (listener.readError error), port)
      | (.ready (some (.ok message)), io, port) =>
        match listener.reply message with
        | some (answer, protocol) => .next ({ listener with io := io, phase := .sendMessage answer protocol }, port)
        | none => .stop (.protocolError .invalidMessage, port)
    | .sendMessage message protocol =>
      match listener.io.pollReady port with
      | (.pending, io, port) => .stop (.selecting { listener with io := io }, port)
      | (.ready (.error error), _, port) => .stop (.ioError error, port)
      | (.ready (.ok ()), io, port) =>
        match startSend io message with
        | .error error => .stop (.protocolError error, port)
        | .ok io =>
          .next ({ listener with
            io := io
            phase := .flush protocol
            lastSentNa := message = .notAvailable }, port)
    | .flush protocol =>
      match listener.io.pollFlush port with
      | (.pending, io, port) => .stop (.selecting { listener with io := io }, port)
      | (.ready (.error error), _, port) => .stop (.ioError error, port)
      | (.ready (.ok ()), io, port) =>
        match protocol with
        | some protocol => .stop (.completed io protocol, port)
        | none => .next ({ listener with io := io, phase := .recvMessage }, port)

def poll (listener : Listener) (port : Port) : Party Listener × Port :=
  (loop turn (4 * port.answers.length + 4) (listener, port)).getD (.selecting listener, port)

end Listener

namespace Negotiated

def pollFlush : Negotiated → Port → Poll (Except IoError Unit) × Negotiated × Port
  | .completed, port =>
    let (result, port) := port.pollFlush
    (result, .completed, port)
  | .expecting io header protocol, port =>
    let (result, io, port) := io.pollFlush port
    (result, .expecting io header protocol, port)
  | .invalid, port => (.ready (.error .panicked), .invalid, port)

def pollTurn : Negotiated × Port →
      Turn (Negotiated × Port) (Poll (Except NegotiationError Unit) × Negotiated × Port)
  | (.expecting io header protocol, port) =>
    match pollStream io port with
    | (.pending, io, port) => .stop (.pending, .expecting io header protocol, port)
    | (.ready none, _, port) => .stop (.ready (.error (.protocolError (.ioError .unexpectedEof))), .invalid, port)
    | (.ready (some (.error error)), _, port) => .stop (.ready (.error (.protocolError error)), .invalid, port)
    | (.ready (some (.ok message)), io, port) =>
      match message with
      | .header line =>
        if some line = header then .next (.expecting io none protocol, port)
        else .stop (.ready (.error .failed), .invalid, port)
      | .protocol p =>
        if p.name = protocol.name then
          match io.intoInner with
          | .ok () => .stop (.ready (.ok ()), .completed, port)
          | .error error => .stop (.ready (.error (.protocolError (.ioError error))), .invalid, port)
        else .stop (.ready (.error .failed), .invalid, port)
      | _ => .stop (.ready (.error .failed), .invalid, port)
  | (stream, port) => .stop (.ready (.error (.protocolError (.ioError .panicked))), stream, port)

section

variable (stream : Negotiated) (port : Port)

/-- Reads the outstanding messages, if there are any. -/
def confirm : Poll (Except NegotiationError Unit) × Negotiated × Port :=
  match stream with
  | .completed => (.ready (.ok ()), .completed, port)
  | stream => (loop pollTurn (port.answers.length + 1) (stream, port)).getD (.pending, stream, port)

/-- Flushes, and reads the outstanding messages. These are read also if the remote takes no more bytes. -/
def poll : Poll (Except NegotiationError Unit) × Negotiated × Port :=
  match stream.pollFlush port with
  | (.pending, stream, port) => (.pending, stream, port)
  | (.ready (.ok ()), stream, port) => stream.confirm port
  | (.ready (.error (.writeZero _)), stream, port) => stream.confirm port
  | (.ready (.error error), stream, port) => (.ready (.error (.protocolError (.ioError error))), stream, port)

def readTurn (len : Nat) :
    Negotiated × Port → Turn (Negotiated × Port) (Poll (Except IoError (List UInt8)) × Negotiated × Port)
  | (.completed, port) =>
    let (result, port) := port.pollRead len
    .stop (result, .completed, port)
  | (stream, port) =>
    match stream.poll port with
    | (.pending, stream, port) => .stop (.pending, stream, port)
    | (.ready (.error error), stream, port) => .stop (.ready (.error error.toIoError), stream, port)
    | (.ready (.ok ()), stream, port) => .next (stream, port)

/-- A stream that has been polled to the end is completed, so there are at most two turns. -/
def pollRead (len : Nat) : Poll (Except IoError (List UInt8)) × Negotiated × Port :=
  (loop (readTurn len) 2 (stream, port)).getD (.pending, stream, port)

def pollWrite (bytes : List UInt8) : Poll (Except IoError Nat) × Negotiated × Port :=
  match stream with
  | .completed =>
    let (result, port) := port.pollWrite bytes
    (result, .completed, port)
  | .expecting io header protocol =>
    let (result, io, port) := io.pollWrite port bytes
    (result, .expecting io header protocol, port)
  | .invalid => (.ready (.error .panicked), .invalid, port)

end
end Negotiated

/-- One end with its part of the transport, which holds the bytes `held` back, and its application, which
reads no more after an error. -/
structure End (σ : Type) where
  party : Party σ
  arrived : List UInt8
  held : List UInt8
  toWrite : List UInt8
  received : List UInt8
  readError : Option IoError

inductive Op where
  | poll
  /-- The application writes, reads or flushes. -/
  | write
  | read (len : Nat)
  | flush
  /-- The transport passes bytes on that it holds. -/
  | pass (count : Nat)
  deriving DecidableEq

namespace End

variable {σ : Type}

def start (future : σ) (payload : List UInt8) : End σ :=
  { party := .selecting future, arrived := [], held := [], toWrite := payload, received := [], readError := none }

/-- The stream of a failed negotiation is dropped, and so is one that failed while it was confirmed. -/
def dropped (self : End σ) : Bool :=
  match self.party with
  | .failed _ => true
  | .settled _ .invalid => true
  | _ => false

def port (self : End σ) (remoteDropped : Bool) (answers : List Answer) : Port :=
  ⟨self.arrived, remoteDropped, self.held, [], answers⟩

/-- The end after a call, and the bytes that were passed on during the call. -/
def after (self : End σ) (party : Party σ) (port : Port) : End σ × List UInt8 :=
  ({ self with party := party, arrived := port.incoming, held := port.held }, port.passed)

section

variable (self : End σ) (protocol : String) (stream : Negotiated) (port : Port)

def write : End σ × List UInt8 :=
  if self.toWrite = [] then (self, [])
  else
    match stream.pollWrite port self.toWrite with
    | (.ready (.ok count), stream, port) =>
      { self with toWrite := self.toWrite.drop count }.after (.settled protocol stream) port
    | (_, stream, port) => self.after (.settled protocol stream) port

def receive : Poll (Except IoError (List UInt8)) × Negotiated × Port → End σ × List UInt8
  | (.pending, stream, port) => self.after (.settled protocol stream) port
  | (.ready (.ok bytes), stream, port) =>
    { self with received := self.received ++ bytes }.after (.settled protocol stream) port
  | (.ready (.error error), stream, port) => { self with readError := some error }.after (.settled protocol stream) port

/-- The application reads, unless a read has failed. -/
def read (len : Nat) : End σ × List UInt8 :=
  if self.readError.isSome then (self, []) else self.receive protocol (stream.pollRead port len)

def flush : End σ × List UInt8 := self.after (.settled protocol (stream.pollFlush port).2.1) (stream.pollFlush port).2.2

end

section

variable (pollFuture : σ → Port → Party σ × Port) (self : End σ) (remoteDropped : Bool) (answers : List Answer)
  (op : Op)

/-- One operation, with the transport's answers to the calls that it makes. -/
def act : End σ × List UInt8 :=
  let port := self.port remoteDropped answers
  match op, self.party with
  | .poll, .selecting future => self.after (pollFuture future port).1 (pollFuture future port).2
  | .write, .settled protocol stream => self.write protocol stream port
  | .read len, .settled protocol stream => self.read protocol stream port len
  | .flush, .settled protocol stream => self.flush protocol stream port
  | .pass count, _ => ({ self with held := self.held.drop count }, self.held.take count)
  | _, _ => (self, [])

theorem act_poll {self : End σ} {fut : σ}
    (hp : self.party = .selecting fut) (remoteDropped : Bool) (answers : List Answer) :
    self.act pollFuture remoteDropped answers .poll = self.after (pollFuture fut (self.port remoteDropped answers)).1
        (pollFuture fut (self.port remoteDropped answers)).2 := by
  unfold act
  rw [hp]

theorem act_cases : (self.act pollFuture remoteDropped answers op = (self, [])) ∨
    (∃ fut, op = .poll ∧ self.party = .selecting fut ∧ self.act pollFuture remoteDropped answers op =
      self.after (pollFuture fut (self.port remoteDropped answers)).1
        (pollFuture fut (self.port remoteDropped answers)).2) ∨
    (∃ count, op = .pass count ∧ self.act pollFuture remoteDropped answers op =
      ({ self with held := self.held.drop count }, self.held.take count)) ∨
    ∃ protocol stream, self.party = .settled protocol stream ∧
      (op = .write ∧ self.act pollFuture remoteDropped answers op =
          self.write protocol stream (self.port remoteDropped answers) ∨
        (∃ len, op = .read len ∧ self.act pollFuture remoteDropped answers op =
          self.read protocol stream (self.port remoteDropped answers) len) ∨
        op = .flush ∧ self.act pollFuture remoteDropped answers op =
          self.flush protocol stream (self.port remoteDropped answers)) := by
  obtain ⟨party, _, _, _, _, _⟩ := self
  cases op with
  | poll =>
    cases party with
    | selecting fut => exact .inr (.inl ⟨fut, rfl, rfl, rfl⟩)
    | _ => exact .inl rfl
  | write =>
    cases party with
    | settled protocol stream => exact .inr (.inr (.inr ⟨protocol, stream, rfl, .inl ⟨rfl, rfl⟩⟩))
    | _ => exact .inl rfl
  | read len =>
    cases party with
    | settled protocol stream => exact .inr (.inr (.inr ⟨protocol, stream, rfl, .inr (.inl ⟨len, rfl, rfl⟩)⟩))
    | _ => exact .inl rfl
  | flush =>
    cases party with
    | settled protocol stream => exact .inr (.inr (.inr ⟨protocol, stream, rfl, .inr (.inr ⟨rfl, rfl⟩)⟩))
    | _ => exact .inl rfl
  | pass count => cases party <;> exact .inr (.inr (.inl ⟨count, rfl, rfl⟩))

end

def arrive (self : End σ) (bytes : List UInt8) : End σ := { self with arrived := self.arrived ++ bytes }

end End

inductive Side where
  | dialer | listener
  deriving DecidableEq

structure Action where
  side : Side
  op : Op
  answers : List Answer

structure System where
  dialer : End Dialer
  listener : End Listener

namespace System

def start (version : Version) (dialerProtocols listenerProtocols : List String)
    (dialerPayload listenerPayload : List UInt8) : System :=
  { dialer := .start (dialerSelectProto dialerProtocols version) dialerPayload
    listener := .start (listenerSelectProto listenerProtocols) listenerPayload }

def step (system : System) (action : Action) : System :=
  match action.side with
  | .dialer =>
    let (dialer, passed) := system.dialer.act Dialer.poll system.listener.dropped action.answers action.op
    { dialer := dialer, listener := system.listener.arrive passed }
  | .listener =>
    let (listener, passed) := system.listener.act Listener.poll system.dialer.dropped action.answers action.op
    { dialer := system.dialer.arrive passed, listener := listener }

end System
end RustLibp2p.Multistream
