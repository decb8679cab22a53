import RustLibp2p.Protobuf

/-! The protobuf messages of gossipsub: a remote procedure call carries subscriptions, published messages and
control messages. What is written is read back. -/

namespace RustLibp2p.Gossipsub.Proto
open Protobuf

variable [Prost]

structure SubOpts where
  subscribe : Option Bool := none
  topicId : Option String := none
  requestsPartial : Option Bool := none
  supportsPartial : Option Bool := none

/-- The field `from` of the source is `sender`. -/
structure Message where
  sender : Option (List UInt8) := none
  data : Option (List UInt8) := none
  seqno : Option (List UInt8) := none
  topic : String := ""
  signature : Option (List UInt8) := none
  key : Option (List UInt8) := none

structure ControlIHave where
  topicId : Option String := none
  messageIds : List (List UInt8) := []

structure ControlIWant where
  messageIds : List (List UInt8) := []

structure ControlGraft where
  topicId : Option String := none

structure PeerInfo where
  peerId : Option (List UInt8) := none
  signedPeerRecord : Option (List UInt8) := none

structure ControlPrune where
  topicId : Option String := none
  peers : List PeerInfo := []
  backoff : Option UInt64 := none

structure ControlIDontWant where
  messageIds : List (List UInt8) := []

structure ControlExtensions where
  partialMessages : Option Bool := none

structure ControlMessage where
  ihave : List ControlIHave := []
  iwant : List ControlIWant := []
  graft : List ControlGraft := []
  prune : List ControlPrune := []
  idontwant : List ControlIDontWant := []
  extensions : Option ControlExtensions := none

structure PartialMessagesExtension where
  topicId : Option (List UInt8) := none
  groupId : Option (List UInt8) := none
  partialMessage : Option (List UInt8) := none
  partsMetadata : Option (List UInt8) := none

structure Rpc where
  subscriptions : List SubOpts := []
  publish : List Message := []
  control : Option ControlMessage := none
  partialExtension : Option PartialMessagesExtension := none

def SubOpts.encode (sub : SubOpts) : List UInt8 :=
  encodeOptional (encodeBool 1) sub.subscribe ++ (encodeOptional (encodeString 2) sub.topicId ++
    (encodeOptional (encodeBool 3) sub.requestsPartial ++ encodeOptional (encodeBool 4) sub.supportsPartial))

/-- The topic is a required field, so an empty one is written too. -/
def Message.encode (message : Message) : List UInt8 :=
  encodeOptional (encodeBytes 1) message.sender ++ (encodeOptional (encodeBytes 2) message.data ++
    (encodeOptional (encodeBytes 3) message.seqno ++ (encodeString 4 message.topic ++
      (encodeOptional (encodeBytes 5) message.signature ++ encodeOptional (encodeBytes 6) message.key))))

def ControlIHave.encode (ihave : ControlIHave) : List UInt8 :=
  encodeOptional (encodeString 1) ihave.topicId ++ ihave.messageIds.flatMap (encodeBytes 2)

def ControlIWant.encode (iwant : ControlIWant) : List UInt8 := iwant.messageIds.flatMap (encodeBytes 1)

def ControlGraft.encode (graft : ControlGraft) : List UInt8 := encodeOptional (encodeString 1) graft.topicId

def PeerInfo.encode (info : PeerInfo) : List UInt8 :=
  encodeOptional (encodeBytes 1) info.peerId ++ encodeOptional (encodeBytes 2) info.signedPeerRecord

def ControlPrune.encode (prune : ControlPrune) : List UInt8 :=
  encodeOptional (encodeString 1) prune.topicId ++
    (prune.peers.flatMap (fun info => encodeBytes 2 info.encode) ++ encodeOptional (encodeUint64 3) prune.backoff)

def ControlIDontWant.encode (idontwant : ControlIDontWant) : List UInt8 := idontwant.messageIds.flatMap (encodeBytes 1)

def ControlExtensions.encode (extensions : ControlExtensions) : List UInt8 :=
  encodeOptional (encodeBool 10) extensions.partialMessages

def ControlMessage.encode (control : ControlMessage) : List UInt8 :=
  control.ihave.flatMap (fun item => encodeBytes 1 item.encode) ++
    (control.iwant.flatMap (fun item => encodeBytes 2 item.encode) ++
      (control.graft.flatMap (fun item => encodeBytes 3 item.encode) ++
        (control.prune.flatMap (fun item => encodeBytes 4 item.encode) ++
          (control.idontwant.flatMap (fun item => encodeBytes 5 item.encode) ++
            encodeOptional (fun item => encodeBytes 6 item.encode) control.extensions))))

def PartialMessagesExtension.encode (extension : PartialMessagesExtension) : List UInt8 :=
  encodeOptional (encodeBytes 1) extension.topicId ++ (encodeOptional (encodeBytes 2) extension.groupId ++
    (encodeOptional (encodeBytes 3) extension.partialMessage ++ encodeOptional (encodeBytes 4) extension.partsMetadata))

def Rpc.encode (rpc : Rpc) : List UInt8 :=
  rpc.subscriptions.flatMap (fun item => encodeBytes 1 item.encode) ++
    (rpc.publish.flatMap (fun item => encodeBytes 2 item.encode) ++
      (encodeOptional (fun item => encodeBytes 3 item.encode) rpc.control ++
        encodeOptional (fun item => encodeBytes 10 item.encode) rpc.partialExtension))

/-! ### Reading. A record within a record is read one level deeper. -/

section

variable (depth : Nat)

def SubOpts.mergeField (sub : SubOpts) (tag : Nat) (wireType : WireType) : Reader SubOpts :=
  match tag with
  | 1 => (fun value => { sub with subscribe := some value }) <$> readBool wireType
  | 2 => (fun value => { sub with topicId := some value }) <$> readString wireType
  | 3 => (fun value => { sub with requestsPartial := some value }) <$> readBool wireType
  | 4 => (fun value => { sub with supportsPartial := some value }) <$> readBool wireType
  | _ => (fun _ => sub) <$> skipField depth wireType tag

def Message.mergeField (message : Message) (tag : Nat) (wireType : WireType) : Reader Message :=
  match tag with
  | 1 => (fun value => { message with sender := some value }) <$> readBytes wireType
  | 2 => (fun value => { message with data := some value }) <$> readBytes wireType
  | 3 => (fun value => { message with seqno := some value }) <$> readBytes wireType
  | 4 => (fun value => { message with topic := value }) <$> readString wireType
  | 5 => (fun value => { message with signature := some value }) <$> readBytes wireType
  | 6 => (fun value => { message with key := some value }) <$> readBytes wireType
  | _ => (fun _ => message) <$> skipField depth wireType tag

def ControlIHave.mergeField (ihave : ControlIHave) (tag : Nat) (wireType : WireType) : Reader ControlIHave :=
  match tag with
  | 1 => (fun value => { ihave with topicId := some value }) <$> readString wireType
  | 2 => (fun value => { ihave with messageIds := ihave.messageIds ++ [value] }) <$> readBytes wireType
  | _ => (fun _ => ihave) <$> skipField depth wireType tag

def ControlIWant.mergeField (iwant : ControlIWant) (tag : Nat) (wireType : WireType) : Reader ControlIWant :=
  match tag with
  | 1 => (fun value => { iwant with messageIds := iwant.messageIds ++ [value] }) <$> readBytes wireType
  | _ => (fun _ => iwant) <$> skipField depth wireType tag

def ControlGraft.mergeField (graft : ControlGraft) (tag : Nat) (wireType : WireType) : Reader ControlGraft :=
  match tag with
  | 1 => (fun value => { graft with topicId := some value }) <$> readString wireType
  | _ => (fun _ => graft) <$> skipField depth wireType tag

def PeerInfo.mergeField (info : PeerInfo) (tag : Nat) (wireType : WireType) : Reader PeerInfo :=
  match tag with
  | 1 => (fun value => { info with peerId := some value }) <$> readBytes wireType
  | 2 => (fun value => { info with signedPeerRecord := some value }) <$> readBytes wireType
  | _ => (fun _ => info) <$> skipField depth wireType tag

def ControlPrune.mergeField (depth : Nat) (prune : ControlPrune) (tag : Nat) (wireType : WireType) :
    Reader ControlPrune :=
  match tag with
  | 1 => (fun value => { prune with topicId := some value }) <$> readString wireType
  | 2 =>
    (fun item => { prune with peers := prune.peers ++ [item] }) <$>
      readMessage (PeerInfo.mergeField (depth - 1)) depth {} wireType
  | 3 => (fun value => { prune with backoff := some value }) <$> readUint64 wireType
  | _ => (fun _ => prune) <$> skipField depth wireType tag

def ControlIDontWant.mergeField (idontwant : ControlIDontWant) (tag : Nat) (wireType : WireType) :
    Reader ControlIDontWant :=
  match tag with
  | 1 => (fun value => { idontwant with messageIds := idontwant.messageIds ++ [value] }) <$> readBytes wireType
  | _ => (fun _ => idontwant) <$> skipField depth wireType tag

def ControlExtensions.mergeField (extensions : ControlExtensions) (tag : Nat) (wireType : WireType) :
    Reader ControlExtensions :=
  match tag with
  | 10 => (fun value => { extensions with partialMessages := some value }) <$> readBool wireType
  | _ => (fun _ => extensions) <$> skipField depth wireType tag

def ControlMessage.mergeField (depth : Nat) (control : ControlMessage) (tag : Nat) (wireType : WireType) :
    Reader ControlMessage :=
  match tag with
  | 1 =>
    (fun item => { control with ihave := control.ihave ++ [item] }) <$>
      readMessage (ControlIHave.mergeField (depth - 1)) depth {} wireType
  | 2 =>
    (fun item => { control with iwant := control.iwant ++ [item] }) <$>
      readMessage (ControlIWant.mergeField (depth - 1)) depth {} wireType
  | 3 =>
    (fun item => { control with graft := control.graft ++ [item] }) <$>
      readMessage (ControlGraft.mergeField (depth - 1)) depth {} wireType
  | 4 =>
    (fun item => { control with prune := control.prune ++ [item] }) <$>
      readMessage (ControlPrune.mergeField (depth - 1)) depth {} wireType
  | 5 =>
    (fun item => { control with idontwant := control.idontwant ++ [item] }) <$>
      readMessage (ControlIDontWant.mergeField (depth - 1)) depth {} wireType
  | 6 =>
    (fun item => { control with extensions := some item }) <$>
      readMessage (ControlExtensions.mergeField (depth - 1)) depth (control.extensions.getD {}) wireType
  | _ => (fun _ => control) <$> skipField depth wireType tag

def PartialMessagesExtension.mergeField (extension : PartialMessagesExtension) (tag : Nat)
    (wireType : WireType) : Reader PartialMessagesExtension :=
  match tag with
  | 1 => (fun value => { extension with topicId := some value }) <$> readBytes wireType
  | 2 => (fun value => { extension with groupId := some value }) <$> readBytes wireType
  | 3 => (fun value => { extension with partialMessage := some value }) <$> readBytes wireType
  | 4 => (fun value => { extension with partsMetadata := some value }) <$> readBytes wireType
  | _ => (fun _ => extension) <$> skipField depth wireType tag

end

def Rpc.mergeField (depth : Nat) (rpc : Rpc) (tag : Nat) (wireType : WireType) : Reader Rpc :=
  match tag with
  | 1 =>
    (fun item => { rpc with subscriptions := rpc.subscriptions ++ [item] }) <$>
      readMessage (SubOpts.mergeField (depth - 1)) depth {} wireType
  | 2 =>
    (fun item => { rpc with publish := rpc.publish ++ [item] }) <$>
      readMessage (Message.mergeField (depth - 1)) depth {} wireType
  | 3 =>
    (fun item => { rpc with control := some item }) <$>
      readMessage (ControlMessage.mergeField (depth - 1)) depth (rpc.control.getD {}) wireType
  | 10 =>
    (fun item => { rpc with partialExtension := some item }) <$>
      readMessage (PartialMessagesExtension.mergeField (depth - 1)) depth (rpc.partialExtension.getD {}) wireType
  | _ => (fun _ => rpc) <$> skipField depth wireType tag

def recursionLimit : Nat := 100

def Message.decode (bytes : List UInt8) : Except DecodeError Message :=
  Protobuf.decode (Message.mergeField recursionLimit) {} bytes

def Rpc.decode (bytes : List UInt8) : Except DecodeError Rpc := Protobuf.decode (Rpc.mergeField recursionLimit) {} bytes

/-! ### Reading what was written. The proofs go field by field: behind each one the record holds the fields so
far. -/

theorem SubOpts.merges (sub : SubOpts) (depth : Nat) (hf : Fits sub.encode) :
    Merges (SubOpts.mergeField depth) {} sub.encode sub := by
  obtain ⟨subscribe, topicId, requestsPartial, _⟩ := sub
  have htoI := hf.right
  have hp := htoI.right
  refine .trans (.optional .bool (by decide) (fun v => mk v none none none) rfl hf.left) ?_
  refine .trans (.optional .string (by decide) (fun v => mk subscribe v none none) rfl htoI.left) ?_
  refine .trans (.optional .bool (by decide) (fun v => mk subscribe topicId v none) rfl hp.left) ?_
  exact .optional .bool (by decide) (mk subscribe topicId requestsPartial) rfl hp.right

theorem Message.merges (message : Message) (depth : Nat) (hf : Fits message.encode) :
    Merges (Message.mergeField depth) {} message.encode message := by
  obtain ⟨sender, data, seqno, topic, sig, _⟩ := message
  have hd := hf.right
  have hs := hd.right
  have ht := hs.right
  have hl := ht.right
  refine .trans (.optional .bytes (by decide) (fun v => mk v none none "" none none) rfl hf.left) ?_
  refine .trans (.optional .bytes (by decide) (fun v => mk sender v none "" none none) rfl hd.left) ?_
  refine .trans (.optional .bytes (by decide) (fun v => mk sender data v "" none none) rfl hs.left) ?_
  refine .trans (.value .string (by decide) (fun v => mk sender data seqno v none none) rfl ht.left) ?_
  refine .trans (.optional .bytes (by decide) (fun v => mk sender data seqno topic v none) rfl hl.left) ?_
  exact .optional .bytes (by decide) (mk sender data seqno topic sig) rfl hl.right

theorem ControlIHave.merges (ihave : ControlIHave) (depth : Nat) (hf : Fits ihave.encode) :
    Merges (ControlIHave.mergeField depth) {} ihave.encode ihave := by
  obtain ⟨topicId, _⟩ := ihave
  refine .trans (.optional .string (by decide) (fun v => mk v []) rfl hf.left) ?_
  exact .repeated .bytes (by decide) (mk topicId) (fun _ => rfl) hf.right

theorem ControlIWant.merges (iwant : ControlIWant) (depth : Nat) (hf : Fits iwant.encode) :
    Merges (ControlIWant.mergeField depth) {} iwant.encode iwant := by
  obtain ⟨_⟩ := iwant
  exact .repeated .bytes (by decide) mk (fun _ => rfl) hf

theorem ControlGraft.merges (graft : ControlGraft) (depth : Nat) (hf : Fits graft.encode) :
    Merges (ControlGraft.mergeField depth) {} graft.encode graft := by
  obtain ⟨_⟩ := graft
  exact .optional .string (by decide) mk rfl hf

theorem PeerInfo.merges (info : PeerInfo) (depth : Nat) (hf : Fits info.encode) :
    Merges (PeerInfo.mergeField depth) {} info.encode info := by
  obtain ⟨peerId, _⟩ := info
  refine .trans (.optional .bytes (by decide) (fun v => mk v none) rfl hf.left) ?_
  exact .optional .bytes (by decide) (mk peerId) rfl hf.right

theorem ControlPrune.merges (prune : ControlPrune) (depth : Nat) (hf : Fits prune.encode) :
    Merges (ControlPrune.mergeField (depth + 1)) {} prune.encode prune := by
  obtain ⟨topicId, peers, _⟩ := prune
  refine .trans (.optional .string (by decide) (fun v => mk v [] none) rfl hf.left) ?_
  refine .trans (.repeated (.message fun item => item.merges depth) (by decide)
    (fun items => mk topicId items none) (fun _ => rfl) hf.right.left) ?_
  exact .optional .uint64 (by decide) (mk topicId peers) rfl hf.right.right

theorem ControlIDontWant.merges (idontwant : ControlIDontWant) (depth : Nat) (hf : Fits idontwant.encode) :
    Merges (ControlIDontWant.mergeField depth) {} idontwant.encode idontwant := by
  obtain ⟨_⟩ := idontwant
  exact .repeated .bytes (by decide) mk (fun _ => rfl) hf

theorem ControlExtensions.merges (extensions : ControlExtensions) (depth : Nat) (hf : Fits extensions.encode) :
    Merges (ControlExtensions.mergeField depth) {} extensions.encode extensions := by
  obtain ⟨_⟩ := extensions
  exact .optional .bool (by decide) mk rfl hf

theorem ControlMessage.merges (control : ControlMessage) (depth : Nat) (hf : Fits control.encode) :
    Merges (ControlMessage.mergeField (depth + 2)) {} control.encode control := by
  obtain ⟨ihave, iwant, graft, prune, idontwant, _⟩ := control
  have hi := hf.right
  have hg := hi.right
  have hp := hg.right
  have hid := hp.right
  refine .trans (.repeated (.message fun item => item.merges (depth + 1)) (by decide)
    (fun items => mk items [] [] [] [] none) (fun _ => rfl) hf.left) ?_
  refine .trans (.repeated (.message fun item => item.merges (depth + 1)) (by decide)
    (fun items => mk ihave items [] [] [] none) (fun _ => rfl) hi.left) ?_
  refine .trans (.repeated (.message fun item => item.merges (depth + 1)) (by decide)
    (fun items => mk ihave iwant items [] [] none) (fun _ => rfl) hg.left) ?_
  refine .trans (.repeated (.message fun item => item.merges depth) (by decide)
    (fun items => mk ihave iwant graft items [] none) (fun _ => rfl) hp.left) ?_
  refine .trans (.repeated (.message fun item => item.merges (depth + 1)) (by decide)
    (fun items => mk ihave iwant graft prune items none) (fun _ => rfl) hid.left) ?_
  exact .optional (.message fun item => item.merges (depth + 1)) (by decide)
    (mk ihave iwant graft prune idontwant) rfl hid.right

theorem PartialMessagesExtension.merges (extension : PartialMessagesExtension) (depth : Nat)
    (hf : Fits extension.encode) :
    Merges (PartialMessagesExtension.mergeField depth) {} extension.encode extension := by
  obtain ⟨topicId, groupId, partialMessage, _⟩ := extension
  have hgrI := hf.right
  have hpaM := hgrI.right
  refine .trans (.optional .bytes (by decide) (fun v => mk v none none none) rfl hf.left) ?_
  refine .trans (.optional .bytes (by decide) (fun v => mk topicId v none none) rfl hgrI.left) ?_
  refine .trans (.optional .bytes (by decide) (fun v => mk topicId groupId v none) rfl hpaM.left) ?_
  exact .optional .bytes (by decide) (mk topicId groupId partialMessage) rfl hpaM.right

theorem Rpc.merges (rpc : Rpc) (depth : Nat) (hf : Fits rpc.encode) :
    Merges (Rpc.mergeField (depth + 3)) {} rpc.encode rpc := by
  obtain ⟨subs, publish, control, _⟩ := rpc
  have hp := hf.right
  have hc := hp.right
  refine .trans (.repeated (.message fun item => item.merges (depth + 2)) (by decide)
    (fun items => mk items [] none none) (fun _ => rfl) hf.left) ?_
  refine .trans (.repeated (.message fun item => item.merges (depth + 2)) (by decide)
    (fun items => mk subs items none none) (fun _ => rfl) hp.left) ?_
  refine .trans (.optional (.message fun item => item.merges depth) (by decide)
    (fun v => mk subs publish v none) rfl hc.left) ?_
  exact .optional (.message fun item => item.merges (depth + 2)) (by decide) (mk subs publish control) rfl hc.right

theorem Message.decode_encode (message : Message) (hf : Fits message.encode) :
    Message.decode message.encode = .ok message :=
  (message.merges recursionLimit hf).decode

theorem Rpc.decode_encode (rpc : Rpc) (hf : Fits rpc.encode) : Rpc.decode rpc.encode = .ok rpc :=
  (rpc.merges 97 hf).decode

theorem Message.encode_injective {msg other : Message} (hm : Fits msg.encode)
    (heq : msg.encode = other.encode) : msg = other := by
  have hd := msg.decode_encode hm
  rw [heq, other.decode_encode (heq ▸ hm)] at hd
  exact (Except.ok.inj hd).symm

end RustLibp2p.Gossipsub.Proto
