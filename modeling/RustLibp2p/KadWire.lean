import RustLibp2p.KadStore
import Mathlib.Algebra.Order.Ring.Nat

/-! The wire format of the DHT. Requests and responses are converted to one protobuf message and back.
The byte forms of protobuf messages, peer ids and addresses come from other crates, as does the list of
components an address is made of. Instants are in nanoseconds. -/

namespace RustLibp2p.Kad
open List Option

/-- The generated types of the schema; enumerations travel as integers. -/
structure ProtoRecord where
  key : List UInt8 := []
  value : List UInt8 := []
  timeReceived : String := ""
  publisher : List UInt8 := []
  ttl : Nat := 0

structure ProtoPeer where
  id : List UInt8
  addrs : List (List UInt8)
  connection : Int

structure ProtoMessage where
  type : Int := 0
  clusterLevelRaw : Int := 0
  key : List UInt8 := []
  record : Option ProtoRecord := none
  closerPeers : List ProtoPeer := []
  providerPeers : List ProtoPeer := []

inductive MessageType where
  | putValue
  | getValue
  | addProvider
  | getProviders
  | findNode
  | ping
  deriving DecidableEq

namespace MessageType

def toI32 : MessageType → Int
  | .putValue => 0
  | .getValue => 1
  | .addProvider => 2
  | .getProviders => 3
  | .findNode => 4
  | .ping => 5

def tryFrom : Int → Option MessageType
  | 0 => some .putValue
  | 1 => some .getValue
  | 2 => some .addProvider
  | 3 => some .getProviders
  | 4 => some .findNode
  | 5 => some .ping
  | _ => none

theorem tryFrom_toI32 (type : MessageType) : tryFrom type.toI32 = some type := by cases type <;> rfl

end MessageType

open MessageType

inductive ProtoConnectionType where
  | notConnected
  | connected
  | canConnect
  | cannotConnect
  deriving DecidableEq

namespace ProtoConnectionType

def toI32 : ProtoConnectionType → Int
  | .notConnected => 0
  | .connected => 1
  | .canConnect => 2
  | .cannotConnect => 3

def tryFrom : Int → Option ProtoConnectionType
  | 0 => some .notConnected
  | 1 => some .connected
  | 2 => some .canConnect
  | 3 => some .cannotConnect
  | _ => none

end ProtoConnectionType

/-- What is taken from other crates; an address may have a peer at its end. -/
structure WireCodecs (Peer Addr Bytes : Type) where
  peerToBytes : Peer → List UInt8
  peerFromBytes : List UInt8 → Option Peer
  addrToBytes : Addr → List UInt8
  addrFromBytes : List UInt8 → Option Addr
  lastPeer : Addr → Option Peer
  pushPeer : Addr → Peer → Addr
  encode : ProtoMessage → Bytes
  decode : Bytes → Option ProtoMessage

/-- Every byte form is read back, and that of a peer id is not empty. -/
structure WireCodecs.RoundTrip {Peer Addr Bytes : Type} (codecs : WireCodecs Peer Addr Bytes) : Prop where
  peer : ∀ peer, codecs.peerFromBytes (codecs.peerToBytes peer) = some peer
  peer_nonempty : ∀ peer, codecs.peerToBytes peer ≠ []
  addr : ∀ addr, codecs.addrFromBytes (codecs.addrToBytes addr) = some addr
  message : ∀ message, codecs.decode (codecs.encode message) = some message

inductive ConnectionType where
  | notConnected
  | connected
  | canConnect
  | cannotConnect
  deriving DecidableEq

namespace ConnectionType

def ofProto : ProtoConnectionType → ConnectionType
  | .notConnected => .notConnected
  | .connected => .connected
  | .canConnect => .canConnect
  | .cannotConnect => .cannotConnect

def toProto : ConnectionType → ProtoConnectionType
  | .notConnected => .notConnected
  | .connected => .connected
  | .canConnect => .canConnect
  | .cannotConnect => .cannotConnect

theorem tryFrom_toProto (connection : ConnectionType) :
    (ProtoConnectionType.tryFrom connection.toProto.toI32).map ofProto = some connection := by
  cases connection <;> rfl

end ConnectionType

structure KadPeer (Peer Addr : Type) where
  nodeId : Peer
  multiaddrs : List Addr
  connectionTy : ConnectionType

/-- An error of kind `InvalidData`, by its text. -/
abbrev InvalidData := String

inductive KadRequestMsg (Peer Addr : Type) where
  | ping
  | findNode (key : List UInt8)
  | getProviders (key : RecordKey)
  | addProvider (key : RecordKey) (provider : KadPeer Peer Addr)
  | getValue (key : RecordKey)
  | putValue (record : Record Peer)

inductive KadResponseMsg (Peer Addr : Type) where
  | pong
  | findNode (closerPeers : List (KadPeer Peer Addr))
  | getProviders (closerPeers providerPeers : List (KadPeer Peer Addr))
  | getValue (record : Option (Record Peer)) (closerPeers : List (KadPeer Peer Addr))
  | putValue (key : RecordKey) (value : List UInt8)

def nanosPerSec : Nat := 10 ^ 9

namespace WireCodecs

variable {Peer Addr Bytes : Type} (codecs : WireCodecs Peer Addr Bytes)

def peerToProto (peer : KadPeer Peer Addr) : ProtoPeer where
  id := codecs.peerToBytes peer.nodeId
  addrs := peer.multiaddrs.map codecs.addrToBytes
  connection := peer.connectionTy.toProto.toI32

/-- The remaining time in seconds, of 32 bits; a record that has expired gets one second, because zero means that
it does not expire. -/
def ttlOf (now : Nat) (expires : Option Nat) : Nat :=
  match expires with
  | none => 0
  | some time => if now < time then (time - now) / nanosPerSec % 2 ^ 32 else 1

def recordToProto (now : Nat) (record : Record Peer) : ProtoRecord where
  key := record.key.bytes
  value := record.value
  timeReceived := ""
  publisher := (record.publisher.map codecs.peerToBytes).getD []
  ttl := ttlOf now record.expires

def recordFromProto (now : Nat) (record : ProtoRecord) : Except InvalidData (Record Peer) :=
  let expires := if 0 < record.ttl then some (now + record.ttl * nanosPerSec) else none
  if record.publisher.isEmpty then .ok ⟨⟨record.key⟩, record.value, none, expires⟩
  else
    match codecs.peerFromBytes record.publisher with
    | none => .error "Invalid publisher peer ID."
    | some publisher => .ok ⟨⟨record.key⟩, record.value, some publisher, expires⟩

def reqMsgToProto (now : Nat) : KadRequestMsg Peer Addr → ProtoMessage
  | .ping => { type := ping.toI32 }
  | .findNode key => { type := findNode.toI32, key, clusterLevelRaw := 10 }
  | .getProviders key => { type := getProviders.toI32, key := key.bytes, clusterLevelRaw := 10 }
  | .addProvider key provider =>
    { type := addProvider.toI32, clusterLevelRaw := 10, key := key.bytes,
      providerPeers := [codecs.peerToProto provider] }
  | .getValue key => { type := getValue.toI32, clusterLevelRaw := 10, key := key.bytes }
  | .putValue record =>
    { type := putValue.toI32, key := record.key.bytes,
      record := some (codecs.recordToProto now record) }

def respMsgToProto (now : Nat) : KadResponseMsg Peer Addr → ProtoMessage
  | .pong => { type := ping.toI32 }
  | .findNode closerPeers =>
    { type := findNode.toI32, clusterLevelRaw := 9
      closerPeers := closerPeers.map codecs.peerToProto }
  | .getProviders closerPeers providerPeers =>
    { type := getProviders.toI32, clusterLevelRaw := 9
      closerPeers := closerPeers.map codecs.peerToProto
      providerPeers := providerPeers.map codecs.peerToProto }
  | .getValue record closerPeers =>
    { type := getValue.toI32, clusterLevelRaw := 9
      closerPeers := closerPeers.map codecs.peerToProto
      record := record.map (codecs.recordToProto now) }
  | .putValue key value =>
    { type := putValue.toI32, key := key.bytes
      record := some { key := key.bytes, value } }

section Parsing

variable [DecidableEq Peer]

/-- `Multiaddr::with_p2p`: appends the peer unless it is at the end already; an address that ends in another peer
is returned as it is. -/
def withP2p (addr : Addr) (peer : Peer) : Except Addr Addr :=
  match codecs.lastPeer addr with
  | some last => if last = peer then .ok addr else .error addr
  | none => .ok (codecs.pushPeer addr peer)

/-- An address that cannot be parsed, or belongs to another peer, is skipped. -/
def parseAddr (nodeId : Peer) (addr : List UInt8) : Option Addr :=
  (codecs.addrFromBytes addr).bind fun addr => (codecs.withP2p addr nodeId).toOption

def peerFromProto (peer : ProtoPeer) : Except InvalidData (KadPeer Peer Addr) :=
  match codecs.peerFromBytes peer.id with
  | none => .error "invalid peer id"
  | some nodeId =>
    match ProtoConnectionType.tryFrom peer.connection with
    | none => .error ("unknown connection type: unknown enumeration value " ++ toString peer.connection)
    | some connection => .ok ⟨nodeId, peer.addrs.filterMap (codecs.parseAddr nodeId), .ofProto connection⟩

/-- Peers that are not valid are left out. -/
def peersFromProto (peers : List ProtoPeer) : List (KadPeer Peer Addr) :=
  peers.filterMap fun peer => (codecs.peerFromProto peer).toOption

def protoToReqMsg (now : Nat) (message : ProtoMessage) : Except InvalidData (KadRequestMsg Peer Addr) :=
  match tryFrom message.type with
  | none => .error ("unknown message type: " ++ toString message.type)
  | some .ping => .ok .ping
  | some .putValue => (codecs.recordFromProto now (message.record.getD {})).map .putValue
  | some .getValue => .ok (.getValue ⟨message.key⟩)
  | some .findNode => .ok (.findNode message.key)
  | some .getProviders => .ok (.getProviders ⟨message.key⟩)
  | some .addProvider =>
    match message.providerPeers.findSome? fun peer => (codecs.peerFromProto peer).toOption with
    | some provider => .ok (.addProvider ⟨message.key⟩ provider)
    | none => .error "AddProvider message with no valid peer."

def protoToRespMsg (now : Nat) (message : ProtoMessage) : Except InvalidData (KadResponseMsg Peer Addr) :=
  match tryFrom message.type with
  | none => .error ("unknown message type: " ++ toString message.type)
  | some .ping => .ok .pong
  | some .getValue =>
    match message.record with
    | none => .ok (.getValue none (codecs.peersFromProto message.closerPeers))
    | some record =>
      (codecs.recordFromProto now record).map fun record =>
        .getValue (some record) (codecs.peersFromProto message.closerPeers)
  | some .findNode => .ok (.findNode (codecs.peersFromProto message.closerPeers))
  | some .getProviders =>
    .ok (.getProviders (codecs.peersFromProto message.closerPeers) (codecs.peersFromProto message.providerPeers))
  | some .putValue =>
    match message.record with
    | none => .error "received PutValue message with no record"
    | some record => .ok (.putValue ⟨message.key⟩ record.value)
  | some .addProvider => .error "received an unexpected AddProvider message"

end Parsing

def sendRequest (now : Nat) (request : KadRequestMsg Peer Addr) : Bytes :=
  codecs.encode (codecs.reqMsgToProto now request)

def sendResponse (now : Nat) (response : KadResponseMsg Peer Addr) : Bytes :=
  codecs.encode (codecs.respMsgToProto now response)

def receiveRequest [DecidableEq Peer] (now : Nat) (bytes : Bytes) :
    Option (Except InvalidData (KadRequestMsg Peer Addr)) :=
  (codecs.decode bytes).map (codecs.protoToReqMsg now)

def receiveResponse [DecidableEq Peer] (now : Nat) (bytes : Bytes) :
    Option (Except InvalidData (KadResponseMsg Peer Addr)) :=
  (codecs.decode bytes).map (codecs.protoToRespMsg now)

end WireCodecs

namespace KadRequestMsg

variable {Peer Addr : Type}

def peers : KadRequestMsg Peer Addr → List (KadPeer Peer Addr)
  | .addProvider _ provider => [provider]
  | .ping | .findNode _ | .getProviders _ | .getValue _ | .putValue _ => []

def mapPeers (f : KadPeer Peer Addr → KadPeer Peer Addr) : KadRequestMsg Peer Addr → KadRequestMsg Peer Addr
  | .addProvider key provider => .addProvider key (f provider)
  | request => request

def NoExpiry : KadRequestMsg Peer Addr → Prop
  | .putValue record => record.expires = none
  | .ping | .findNode _ | .getProviders _ | .addProvider _ _ | .getValue _ => True

end KadRequestMsg

namespace KadResponseMsg

variable {Peer Addr : Type}

def peers : KadResponseMsg Peer Addr → List (KadPeer Peer Addr)
  | .findNode closerPeers | .getValue _ closerPeers => closerPeers
  | .getProviders closerPeers providerPeers => closerPeers ++ providerPeers
  | .pong | .putValue _ _ => []

def mapPeers (f : KadPeer Peer Addr → KadPeer Peer Addr) : KadResponseMsg Peer Addr → KadResponseMsg Peer Addr
  | .findNode closerPeers => .findNode (closerPeers.map f)
  | .getProviders closerPeers providerPeers => .getProviders (closerPeers.map f) (providerPeers.map f)
  | .getValue record closerPeers => .getValue record (closerPeers.map f)
  | response => response

def NoExpiry : KadResponseMsg Peer Addr → Prop
  | .getValue record _ => ∀ r, record = some r → r.expires = none
  | .pong | .findNode _ | .getProviders _ _ | .putValue _ _ => True

end KadResponseMsg

namespace WireCodecs

section

variable {Peer Addr Bytes : Type} {codecs : WireCodecs Peer Addr Bytes}

/-- Every address of the peer ends in the peer. -/
def FullyQualified (codecs : WireCodecs Peer Addr Bytes) (peer : KadPeer Peer Addr) : Prop :=
  ∀ addr ∈ peer.multiaddrs, codecs.lastPeer addr = some peer.nodeId

/-- The expiry of a record with this lifetime that is received at `now`. -/
def expiresIn (now ttl : Nat) : Option Nat := if 0 < ttl then some (now + ttl * nanosPerSec) else none

theorem recordFromProto_recordToProto_eq (hc : codecs.RoundTrip) (now now' : Nat) (record : Record Peer) :
    codecs.recordFromProto now' (codecs.recordToProto now record) =
      .ok { record with expires := expiresIn now' (ttlOf now record.expires) } := by
  obtain ⟨_, _, publisher, _⟩ := record
  cases publisher with
  | none => rfl
  | some peer =>
    simp [recordFromProto, recordToProto, hc.peer, hc.peer_nonempty]
    rfl

theorem recordFromProto_recordToProto (hc : codecs.RoundTrip) (now now' : Nat) {record : Record Peer}
    (he : record.expires = none) :
    codecs.recordFromProto now' (codecs.recordToProto now record) = .ok record := by
  obtain ⟨_, _, _, expires⟩ := record
  obtain rfl : expires = none := he
  exact recordFromProto_recordToProto_eq hc now now' _

/-- A record with an expiry arrives with one that gives it no more time than it had left if and only if its time in
whole seconds is not zero, also in 32 bits. -/
theorem record_lifetime_iff (hcodecs : codecs.RoundTrip) (now now' : Nat) (record : Record Peer) :
    (∃ arrived, codecs.recordFromProto now' (codecs.recordToProto now record) = .ok arrived ∧
      ∀ time, record.expires = some time → ∃ time', arrived.expires = some time' ∧ time' - now' ≤ time - now) ↔
    ∀ time, record.expires = some time → (time - now) / nanosPerSec % 2 ^ 32 ≠ 0 := by
  rw [recordFromProto_recordToProto_eq hcodecs]
  simp only [Except.ok.injEq, exists_eq_left']
  refine forall₂_congr fun time he => ?_
  rw [he, ttlOf, expiresIn]
  split_ifs with hl ht ht
  · have hw : (time - now) / nanosPerSec % 2 ^ 32 * nanosPerSec ≤ time - now :=
      (Nat.mul_le_mul_right _ (Nat.mod_le _ _)).trans (Nat.div_mul_le_self _ _)
    refine iff_of_true ⟨_, rfl, ?_⟩ (Nat.ne_of_gt ht)
    rwa [Nat.add_sub_cancel_left]
  · exact iff_of_false nofun fun h => ht (Nat.pos_of_ne_zero h)
  · -- an expired record is given a second
    rw [Nat.sub_eq_zero_of_le (Nat.not_lt.1 hl)]
    refine iff_of_false ?_ (by simp)
    rintro ⟨_, ⟨⟩, hle⟩
    rw [Nat.add_sub_cancel_left] at hle
    exact absurd hle (by decide)
  · exact absurd Nat.one_pos ht

variable [DecidableEq Peer]

/-- What is left of a peer's addresses: those that end in another peer are gone, the others end in this one. -/
def qualify (codecs : WireCodecs Peer Addr Bytes) (peer : KadPeer Peer Addr) : KadPeer Peer Addr :=
  { peer with multiaddrs := peer.multiaddrs.filterMap fun addr => (codecs.withP2p addr peer.nodeId).toOption }

theorem peerFromProto_peerToProto (hc : codecs.RoundTrip) (peer : KadPeer Peer Addr) :
    codecs.peerFromProto (codecs.peerToProto peer) = .ok (codecs.qualify peer) := by
  have ha : (peer.multiaddrs.map codecs.addrToBytes).filterMap (codecs.parseAddr peer.nodeId) =
      peer.multiaddrs.filterMap fun addr => (codecs.withP2p addr peer.nodeId).toOption := by
    rw [filterMap_map]
    apply filterMap_congr
    intro addr _
    rw [Function.comp_apply, parseAddr, hc.addr, bind_some]
  obtain ⟨_, hco, hof⟩ := map_eq_some_iff.1 (ConnectionType.tryFrom_toProto peer.connectionTy)
  simp [peerFromProto, peerToProto, hc.peer, hco, hof, ha, qualify]

theorem peersFromProto_map (hc : codecs.RoundTrip) (peers : List (KadPeer Peer Addr)) :
    codecs.peersFromProto (peers.map codecs.peerToProto) = peers.map codecs.qualify := by
  rw [peersFromProto, filterMap_map, ← filterMap_eq_map]
  apply filterMap_congr
  intro _ _
  rw [Function.comp_apply, peerFromProto_peerToProto hc]
  rfl

theorem qualify_of_fullyQualified {peer : KadPeer Peer Addr} (hp : codecs.FullyQualified peer) :
    codecs.qualify peer = peer := by
  have ha := calc
    (peer.multiaddrs.filterMap fun addr => (codecs.withP2p addr peer.nodeId).toOption)
      = peer.multiaddrs.filterMap some := by
        apply filterMap_congr
        intro addr had
        rw [withP2p, hp addr had]
        simp [Except.toOption]
    _ = peer.multiaddrs := filterMap_some
  rw [qualify, ha]

theorem map_qualify {peers : List (KadPeer Peer Addr)} (hp : ∀ peer ∈ peers, codecs.FullyQualified peer) :
    peers.map codecs.qualify = peers := by
  calc peers.map codecs.qualify = peers.map id := map_congr_left fun peer hpe => qualify_of_fullyQualified (hp peer hpe)
    _ = peers := map_id peers

theorem protoToReqMsg_reqMsgToProto (hc : codecs.RoundTrip) (now now' : Nat) {req : KadRequestMsg Peer Addr}
    (hr : req.NoExpiry) :
    codecs.protoToReqMsg now' (codecs.reqMsgToProto now req) = .ok (req.mapPeers codecs.qualify) := by
  cases req with
  | ping | findNode | getProviders | getValue => rfl
  | addProvider =>
    simp only [protoToReqMsg, reqMsgToProto, tryFrom_toI32, findSome?_cons, peerFromProto_peerToProto hc]
    rfl
  | putValue =>
    simp only [protoToReqMsg, reqMsgToProto, tryFrom_toI32, getD_some, recordFromProto_recordToProto hc now now' hr]
    rfl

theorem protoToRespMsg_respMsgToProto (hc : codecs.RoundTrip) (now now' : Nat)
    {resp : KadResponseMsg Peer Addr} (hr : resp.NoExpiry) :
    codecs.protoToRespMsg now' (codecs.respMsgToProto now resp) = .ok (resp.mapPeers codecs.qualify) := by
  cases resp with
  | pong | putValue => rfl
  | findNode closerPeers | getProviders closerPeers providerPeers =>
    simp only [protoToRespMsg, respMsgToProto, tryFrom_toI32, peersFromProto_map hc]
    rfl
  | getValue record =>
    cases record with
    | none =>
      simp only [protoToRespMsg, respMsgToProto, tryFrom_toI32, peersFromProto_map hc, map_none]
      rfl
    | some record =>
      simp only [protoToRespMsg, respMsgToProto, tryFrom_toI32, peersFromProto_map hc,
        map_some, recordFromProto_recordToProto hc now now' (hr record rfl)]
      rfl

/-- Every request and every response whose peers have fully qualified addresses and whose record does not expire
is received as it was sent. -/
theorem received_as_sent (hcodecs : codecs.RoundTrip) (now now' : Nat) {request : KadRequestMsg Peer Addr}
    (hrequest : request.NoExpiry) (hprovider : ∀ peer ∈ request.peers, codecs.FullyQualified peer)
    {response : KadResponseMsg Peer Addr} (hresponse : response.NoExpiry)
    (hpeers : ∀ peer ∈ response.peers, codecs.FullyQualified peer) :
    codecs.receiveRequest now' (codecs.sendRequest now request) = some (.ok request) ∧
      codecs.receiveResponse now' (codecs.sendResponse now response) = some (.ok response) := by
  have hsaR : request.mapPeers codecs.qualify = request := by
    cases request with
    | addProvider key prov =>
      rw [KadRequestMsg.mapPeers, qualify_of_fullyQualified (hprovider prov mem_cons_self)]
    | _ => rfl
  have hsR : response.mapPeers codecs.qualify = response := by
    cases response with
    | findNode closerPeers | getValue record closerPeers =>
      have hc : closerPeers.map codecs.qualify = closerPeers := map_qualify hpeers
      rw [KadResponseMsg.mapPeers, hc]
    | getProviders =>
      rw [KadResponseMsg.mapPeers, map_qualify fun peer hp => hpeers peer (mem_append_left _ hp),
        map_qualify fun peer hp => hpeers peer (mem_append_right _ hp)]
    | pong | putValue key value => rfl
  constructor
  · rw [receiveRequest, sendRequest, hcodecs.message, map_some,
      protoToReqMsg_reqMsgToProto hcodecs now now' hrequest, hsaR]
  · rw [receiveResponse, sendResponse, hcodecs.message, map_some,
      protoToRespMsg_respMsgToProto hcodecs now now' hresponse, hsR]

end
end WireCodecs

/-- Peers are bytes, an address is known by the peer at its end, and protobuf messages stand for their bytes. -/
def smallWireCodecs : WireCodecs UInt8 (Option UInt8) ProtoMessage where
  peerToBytes peer := [peer]
  peerFromBytes
    | [peer] => some peer
    | _ => none
  addrToBytes
    | none => [0]
    | some peer => [1, peer]
  addrFromBytes
    | [0] => some none
    | [1, peer] => some (some peer)
    | _ => none
  lastPeer := id
  pushPeer _ peer := some peer
  encode := id
  decode := some

theorem smallWireCodecs_roundTrip : smallWireCodecs.RoundTrip where
  peer _ := rfl
  peer_nonempty _ := nofun
  addr addr := by cases addr <;> rfl
  message _ := rfl

def smallKadPeer : KadPeer UInt8 (Option UInt8) := ⟨3, [some 3], .canConnect⟩

theorem WireCodecs.received_as_sent_small :
    smallWireCodecs.receiveRequest 9 (smallWireCodecs.sendRequest 5 (.addProvider ⟨[7]⟩ smallKadPeer)) =
      some (.ok (.addProvider ⟨[7]⟩ smallKadPeer)) ∧
    smallWireCodecs.receiveResponse 9
      (smallWireCodecs.sendResponse 5 (.getValue (some ⟨⟨[7]⟩, [1], some 4, none⟩) [smallKadPeer])) =
      some (.ok (.getValue (some ⟨⟨[7]⟩, [1], some 4, none⟩) [smallKadPeer])) := by
  have hp : smallWireCodecs.FullyQualified smallKadPeer := by
    intro _ ha
    rw [mem_singleton.1 ha]
    rfl
  apply received_as_sent smallWireCodecs_roundTrip 5 9
  · trivial
  · intro peer hmem
    rwa [mem_singleton.1 hmem]
  · rintro _ ⟨⟩
    rfl
  · intro peer hmem
    rwa [mem_singleton.1 hmem]

theorem WireCodecs.record_lifetime_second :
    ∃ arrived, smallWireCodecs.recordFromProto 7 (smallWireCodecs.recordToProto 0 ⟨⟨[]⟩, [], none, some nanosPerSec⟩) =
      .ok arrived ∧ ∀ time, some nanosPerSec = some time →
        ∃ time', arrived.expires = some time' ∧ time' - 7 ≤ time - 0 :=
  (record_lifetime_iff smallWireCodecs_roundTrip 0 7 ⟨⟨[]⟩, [], none, some nanosPerSec⟩).2 (by
    rintro _ ⟨⟩
    decide)

/-- Less than a second is left, or `2 ^ 32` seconds: the record arrives without an expiry. One that has expired gets a
second. -/
theorem WireCodecs.record_lifetime_lost :
    smallWireCodecs.recordFromProto 7 (smallWireCodecs.recordToProto 0 ⟨⟨[]⟩, [], none, some 1⟩) =
      .ok ⟨⟨[]⟩, [], none, none⟩ ∧
    smallWireCodecs.recordFromProto 7 (smallWireCodecs.recordToProto 0 ⟨⟨[]⟩, [], none, some (2 ^ 32 * nanosPerSec)⟩) =
      .ok ⟨⟨[]⟩, [], none, none⟩ ∧
    smallWireCodecs.recordFromProto 7 (smallWireCodecs.recordToProto 3 ⟨⟨[]⟩, [], none, some 3⟩) =
      .ok ⟨⟨[]⟩, [], none, some (7 + nanosPerSec)⟩ :=
  ⟨rfl, rfl, rfl⟩

end RustLibp2p.Kad
