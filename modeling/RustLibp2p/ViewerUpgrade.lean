import RustLibp2p.Transition
import RustLibp2p.ViewerLoop

/-! The automatic switch to the main stream. The viewer decides by one cell, the connection type noted
last, whether the video runs over a relay circuit. -/

namespace RustLibp2p.Camera.ViewerLoop
open Transition List

variable {Peer : Type}

variable {connection : Connection Peer} {addr : Multiaddr}

namespace Viewer

def notedType (viewer : Viewer Peer) (addr : Multiaddr) : ConnectionType :=
  if addr.isCircuit then .relayCircuit
  else if addr.isQuic then if addr.isLan then .lanDirect else .quicDirect
  else viewer.streamResolver.connectionType

theorem notedType_isDirect (viewer : Viewer Peer) (hc : addr.isCircuit = false)
    (hq : addr.isQuic) : (viewer.notedType addr).isDirect := by
  unfold notedType
  rw [hc, hq]
  cases addr.isLan <;> rfl

theorem noteConnectionType_eq (viewer : Viewer Peer) (connection : Nat) (addr : Multiaddr) :
    ∃ quality relay, viewer.noteConnectionType connection addr =
        { viewer.updateConnectionType (viewer.notedType addr) with
          connectionQuality := quality, relayConnectionId := relay } ∧
      quality.activeConnections = viewer.connectionQuality.activeConnections := by
  unfold noteConnectionType notedType
  split
  · exact ⟨_, _, rfl, rfl⟩
  split
  · split
    all_goals exact ⟨_, _, rfl, rfl⟩
  · exact ⟨_, _, rfl, rfl⟩

variable [DecidableEq Peer]

section

variable (viewer : Viewer Peer) (cam : Peer)

theorem reopenAudio_eq (choice : Option Nat) :
    ∃ audio, (viewer.reopenAudio cam choice).2 = { viewer with audio } ∧
      ∀ ev, .report ev ∉ (viewer.reopenAudio cam choice).1 := by
  unfold reopenAudio
  split
  · exact ⟨_, rfl, nofun⟩
  · exact ⟨_, rfl, fun ev he => nomatch mem_singleton.1 he⟩

theorem upgradeStream_eq (opens : Opens) :
    ∃ relay audio control events, (viewer.upgradeStream cam opens).2 = { viewer with
          video := ((viewer.openStream cam opens.video).map fun id => (.videoMain, id)).or viewer.video
          events
          relayConnectionId := relay
          audio
          control } ∧
      (∀ reason, .disconnected reason ∈ events → .disconnected reason ∈ viewer.events) ∧
      .openStream cam .videoMain ∈ (viewer.upgradeStream cam opens).1 ∧
      ∀ ev, .report ev ∉ (viewer.upgradeStream cam opens).1 := by
  unfold upgradeStream
  cases viewer.openStream cam opens.video with
  | none =>
    refine ⟨_, _, _, viewer.events, rfl, fun _ hr => hr, mem_cons_self, ?_⟩
    exact fun ev he => nomatch mem_singleton.1 he
  | some id =>
    dsimp only
    obtain ⟨audio, ha, hre⟩ := reopenAudio_eq { viewer with
      video := some (.videoMain, id)
      events := viewer.events ++ [.directUpgraded (viewer.connectionQuality.connectionType == .lanDirect)]
      relayConnectionId := none } cam opens.audio
    rw [ha]
    refine ⟨_, _, _, _, rfl, ?_, ?_, ?_⟩
    · intro _ hr
      rcases mem_append.1 hr with hr | hr
      · exact hr
      · cases mem_singleton.1 hr
    · simp
    intro ev he
    simp only [reopenControl, mem_append, mem_cons, mem_map, reduceCtorEq,
      and_false, exists_false, false_or, or_false, not_mem_nil] at he
    exact hre ev he

/-- The viewer asks for a switch when the cell goes from relayed to direct at a connection to the camera. -/
def Upgrades (peer : Peer) (addr : Multiaddr) : Prop :=
  viewer.deviceCam = some peer ∧ viewer.streamResolver.streamType = .auto ∧
    viewer.streamResolver.connectionType = .relayCircuit ∧ (viewer.notedType addr).isDirect = true

theorem onEstablished_eq (peer : Peer) (connection : Nat) (addr : Multiaddr) (opens : Opens) :
    ∃ quality relay video audio control events, (viewer.onEstablished peer connection addr opens).2 =
        { viewer.updateConnectionType (viewer.notedType addr) with
          connectionQuality := quality
          relayConnectionId := relay
          video
          audio
          control
          events } ∧
      quality.activeConnections = viewer.connectionQuality.activeConnections + 1 ∧
      (∀ reason, .disconnected reason ∈ events → .disconnected reason ∈ viewer.events) ∧
      (∀ ev, .report ev ∉ (viewer.onEstablished peer connection addr opens).1) ∧
      (viewer.Upgrades peer addr → .openStream peer .videoMain ∈ (viewer.onEstablished peer connection addr opens).1 ∧
        video = ((viewer.openStream peer opens.video).map fun id => (.videoMain, id)).or viewer.video) ∧
      (¬ viewer.Upgrades peer addr → video = viewer.video) := by
  obtain ⟨quality, relay, hnot, ha⟩ := viewer.countConnection.noteConnectionType_eq connection addr
  generalize hv : viewer.countConnection.noteConnectionType connection addr = noted at hnot
  have hc : (noted.deviceCam = some peer ∧ noted.streamResolver.shouldUpgradeStream
      viewer.streamResolver.connectionType) ↔ viewer.Upgrades peer addr := by
    rw [hnot]
    simp only [updateConnectionType, countConnection, StreamTypeResolver.shouldUpgradeStream,
      ConnectionType.isRelay, Upgrades, Bool.and_eq_true, beq_iff_eq, and_assoc]
    rfl
  unfold onEstablished
  rw [hv]
  by_cases hu : viewer.Upgrades peer addr
  · rw [if_pos (hc.2 hu)]
    obtain ⟨relay', audio, control, events, hn, he, ho, hr⟩ := noted.upgradeStream_eq peer opens
    rw [hn]
    subst hnot
    exact ⟨quality, relay', _, audio, control, events, rfl, ha, he, hr, fun _ => ⟨ho, rfl⟩, absurd hu⟩
  · rw [if_neg (fun h => hu (hc.1 h))]
    subst hnot
    exact ⟨quality, relay, viewer.video, viewer.audio, viewer.control, viewer.events, rfl, ha,
      fun _ hre => hre, fun ev => not_mem_nil, fun h => absurd h hu, fun _ => rfl⟩

theorem startStreams_eq (opens : Opens) :
    ∃ phase connected video audio control, (viewer.startStreams cam opens).2 = { viewer with
          phase
          connected
          video
          audio
          control } ∧
      .report .disconnected ∉ (viewer.startStreams cam opens).1 ∧
      (viewer.connected → connected) ∧
      ((phase = .ended ∧ video = viewer.video) ∨
        ∃ prot id, viewer.openStream cam opens.video = some id ∧ video = some (prot, id)) := by
  unfold startStreams
  cases viewer.openStream cam opens.video with
  | none =>
    refine ⟨_, _, _, _, _, rfl, ?_, fun h => h, .inl ⟨rfl, rfl⟩⟩
    simp
  | some id =>
    dsimp only
    obtain ⟨audio, ha, hr⟩ := reopenAudio_eq { viewer with
      video := some (viewer.streamResolver.resolve, id) } cam opens.audio
    rw [ha]
    refine ⟨_, _, _, _, _, rfl, ?_, fun _ => rfl, .inr ⟨_, id, rfl, rfl⟩⟩
    simp only [reopenControl, mem_append, mem_cons, Output.report.injEq, reduceCtorEq, false_or, or_false, not_mem_nil]
    exact hr .disconnected

end

variable {viewer : Viewer Peer} {peer : Peer}

theorem exists_connection_of_openStream {choice : Option Nat} {id : Nat}
    (ho : viewer.openStream peer choice = some id) :
    choice = some id ∧ ∃ connection ∈ viewer.connections, connection.id = id ∧ connection.peer = peer := by
  obtain ⟨rfl, ha⟩ := Option.filter_eq_some_iff.1 ho
  refine ⟨rfl, ?_⟩
  simpa only [any_eq_true, Bool.and_eq_true, beq_iff_eq] using ha

theorem openStream_eq_some (hmem : connection ∈ viewer.connections) (hp : connection.peer = peer) :
    viewer.openStream peer (some connection.id) = some connection.id := by
  refine Option.filter_eq_some_iff.2 ⟨rfl, ?_⟩
  simp only [any_eq_true, Bool.and_eq_true, beq_iff_eq]
  exact ⟨connection, hmem, rfl, hp⟩

end Viewer

/-! ### The video over a relay circuit -/

/-- The video task reads from a stream over a relay circuit. -/
def Viewer.VideoOverCircuit (viewer : Viewer Peer) : Prop :=
  ∃ connection ∈ viewer.connections, connection.addr.isCircuit = true ∧
    ∃ protocol, viewer.video = some (protocol, connection.id)

/-- The stream is opened on a connection of this peer that is not a circuit. -/
def OpensDirect (connections : List (Connection Peer)) (peer : Peer) (choice : Option Nat) : Prop :=
  ∃ connection ∈ connections, connection.peer = peer ∧ connection.addr.isCircuit = false ∧ choice = some connection.id

/-- In the running session, other peers' connections are not over QUIC (unless they are circuits), the
camera's direct connections are, and a main stream that is asked for is opened on a direct connection. While
connecting, the video is not opened over a circuit when the camera's first connection was direct. -/
def Input.Noted [DecidableEq Peer] (viewer : Viewer Peer) : Input Peer → Prop
  | .connectionEstablished peer addr opens =>
    let connections := viewer.connections ++ [⟨viewer.nextConnection, peer, addr⟩]
    match viewer.phase with
    | .running =>
      if viewer.deviceCam = some peer then
        addr.isCircuit = false → addr.isQuic = true ∧
          (viewer.streamResolver.connectionType = .relayCircuit → OpensDirect connections peer opens.video)
      else addr.isCircuit = true ∨ addr.isQuic = false
    | .classifying => addr.isCircuit = false → viewer.deviceCam = some peer → OpensDirect connections peer opens.video
    | _ => True
  | _ => True

/-- Connections have ids of their own, and if the stream is chosen automatically the cell says that a video
over a circuit is relayed. -/
structure Tracked (viewer : Viewer Peer) : Prop where
  ids_lt : ∀ connection ∈ viewer.connections, connection.id < viewer.nextConnection
  ids_inj : ∀ connection ∈ viewer.connections, ∀ other ∈ viewer.connections,
    connection.id = other.id → connection = other
  video_lt : ∀ protocol id, viewer.video = some (protocol, id) → id < viewer.nextConnection
  relayed : viewer.phase = .running → viewer.streamResolver.streamType = .auto → viewer.VideoOverCircuit →
    viewer.streamResolver.connectionType = .relayCircuit

section

variable {viewer next : Viewer Peer} (htracked : Tracked viewer) (hcoe : next.connections = viewer.connections)
include htracked hcoe

theorem Tracked.video (hn : next.nextConnection = viewer.nextConnection)
    (hv : next.video = viewer.video ∨ ∃ prot, ∃ connection ∈ viewer.connections,
      next.video = some (prot, connection.id))
    (hr : next.phase = .running → next.streamResolver.streamType = .auto → next.VideoOverCircuit →
      next.streamResolver.connectionType = .relayCircuit) : Tracked next := by
  refine ⟨?_, ?_, ?_, hr⟩
  · rw [hcoe, hn]
    exact htracked.ids_lt
  · rw [hcoe]
    exact htracked.ids_inj
  intro prot id heq
  rw [hn]
  rcases hv with hs | ⟨_, connection, hmem, ho⟩
  · exact htracked.video_lt prot id (hs ▸ heq)
  · rw [ho] at heq
    cases heq
    exact htracked.ids_lt connection hmem

theorem Tracked.not_videoOverCircuit
    (hmem : connection ∈ viewer.connections) (hd : connection.addr.isCircuit = false) {prot : StreamProtocol}
    (hv : next.video = some (prot, connection.id)) : ¬ next.VideoOverCircuit := by
  rintro ⟨other, ho, hc, _, hv'⟩
  rw [hcoe] at ho
  rw [hv] at hv'
  have heq := htracked.ids_inj connection hmem other ho (Prod.mk.inj (Option.some.inj hv')).2
  rw [← heq, hd] at hc
  cases hc

end

variable {viewer : Viewer Peer}

theorem tracked_of_empty (hcoe : viewer.connections = [])
    (hv : viewer.video = none) (hp : viewer.phase ≠ .running) : Tracked viewer := by
  constructor
  · rw [hcoe]
    exact nofun
  · rw [hcoe]
    exact nofun
  · rw [hv]
    exact nofun
  · exact fun hrun => absurd hrun hp

variable {inputs : List (Input Peer)} {inp : Input Peer} {opens : Opens}

namespace Viewer

theorem tracked_withConnection (htracked : Tracked viewer) (peer : Peer)
    (addr : Multiaddr) : Tracked (viewer.withConnection peer addr) := by
  have hmem : ∀ connection ∈ (viewer.withConnection peer addr).connections,
      connection ∈ viewer.connections ∨ connection = ⟨viewer.nextConnection, peer, addr⟩ := by
    intro connection hc
    rcases mem_append.1 hc with ho | hn
    · exact .inl ho
    · exact .inr (mem_singleton.1 hn)
  constructor
  · intro connection hc
    show connection.id < viewer.nextConnection + 1
    rcases hmem connection hc with ho | rfl
    · have hlt := htracked.ids_lt connection ho
      omega
    · exact Nat.lt_succ_self _
  · intro connection hc other hot heq
    rcases hmem connection hc with ho | rfl
    · have hlt := htracked.ids_lt connection ho
      rcases hmem other hot with hot | rfl
      · exact htracked.ids_inj connection ho other hot heq
      · exact absurd (heq ▸ hlt) (Nat.lt_irrefl _)
    · rcases hmem other hot with hot | rfl
      · have hlt := htracked.ids_lt other hot
        exact absurd (heq ▸ hlt) (Nat.lt_irrefl _)
      · rfl
  · intro prot id hv
    exact Nat.lt_succ_of_lt (htracked.video_lt prot id hv)
  rintro hrun ha ⟨connection, hc, hci, prot, hv⟩
  -- The video's connection is an older one.
  rcases hmem connection hc with ho | rfl
  · exact htracked.relayed hrun ha ⟨connection, ho, hci, prot, hv⟩
  · exact absurd (htracked.video_lt prot _ hv) (Nat.lt_irrefl _)

variable [DecidableEq Peer]

section

variable (htracked : Tracked viewer) {peer : Peer} {connection : Nat} {addr : Multiaddr} {opens : Opens}
include htracked

theorem tracked_onEstablished (hrun : viewer.phase = .running) (hnot : if viewer.deviceCam = some peer then
        addr.isCircuit = false → addr.isQuic ∧
          (viewer.streamResolver.connectionType = .relayCircuit → OpensDirect viewer.connections peer opens.video)
      else addr.isCircuit ∨ addr.isQuic = false) :
    Tracked (viewer.onEstablished peer connection addr opens).2 := by
  obtain ⟨_, _, video, _, _, _, hn, -, -, -, hu, hk⟩ :=
    viewer.onEstablished_eq peer connection addr opens
  rw [hn]
  refine htracked.video rfl rfl ?_ ?_
  · show video = viewer.video ∨ _
    by_cases hup : viewer.Upgrades peer addr
    · rw [(hu hup).2]
      cases ho : viewer.openStream peer opens.video with
      | none => exact .inl rfl
      | some =>
        obtain ⟨-, found, hmem, rfl, -⟩ := exists_connection_of_openStream ho
        exact .inr ⟨_, found, hmem, rfl⟩
    · exact .inl (hk hup)
  · intro _ ha hc
    cases had : addr.isCircuit with
    | true =>
      unfold notedType
      rw [had]
      rfl
    | false =>
      by_cases hca : viewer.deviceCam = some peer
      · rw [if_pos hca] at hnot
        obtain ⟨hq, hop⟩ := hnot had
        by_cases hup : viewer.Upgrades peer addr
        · obtain ⟨found, hmem, hp, hd, hch⟩ := hop hup.2.2.1
          have hv := (hu hup).2
          rw [hch, openStream_eq_some hmem hp] at hv
          exact absurd hc (htracked.not_videoOverCircuit rfl hmem hd hv)
        · -- The video was over a circuit before, so that the cell said so and a switch was due.
          rw [hk hup] at hc
          exact absurd ⟨hca, ha, htracked.relayed hrun ha hc, viewer.notedType_isDirect had hq⟩ hup
      · rw [if_neg hca, had] at hnot
        have hq := hnot.resolve_left Bool.false_ne_true
        have hs : ¬ viewer.Upgrades peer addr := fun hup => hca hup.1
        rw [hk hs] at hc
        have hr := htracked.relayed hrun ha hc
        unfold notedType
        rw [had, hq]
        exact hr

theorem tracked_startStreams (hnot : addr.isCircuit = false → OpensDirect viewer.connections peer opens.video) :
    Tracked ((viewer.noteClassified connection addr).startStreams peer opens).2 := by
  obtain ⟨phase, _, video, _, _, hn, -, -, hv⟩ :=
    (viewer.noteClassified connection addr).startStreams_eq peer opens
  rw [hn]
  refine htracked.video rfl rfl ?_ ?_
  · rcases hv with ⟨-, hs⟩ | ⟨prot, id, ho, hv⟩
    · exact .inl hs
    · obtain ⟨-, found, hmem, rfl, -⟩ := exists_connection_of_openStream ho
      exact .inr ⟨prot, found, hmem, hv⟩
  · intro hrun _ hc
    show classify addr = .relayCircuit
    cases ha : addr.isCircuit with
    | true =>
      unfold classify
      rw [ha]
      rfl
    | false =>
      obtain ⟨found, hmem, _, hd, hch⟩ := hnot ha
      rcases hv with ⟨he, -⟩ | ⟨prot, id, ho, hv⟩
      · rw [show phase = .running from hrun] at he
        cases he
      obtain ⟨hid, -⟩ := exists_connection_of_openStream ho
      rw [hch] at hid
      cases hid
      exact absurd hc (htracked.not_videoOverCircuit rfl hmem hd hv)

end

variable [ToString Peer]

theorem closed_eq (viewer : Viewer Peer) (id : Nat) : ∃ connections quality connected events, viewer.closed id =
        { viewer with
          connections
          connectionQuality := quality
          connected
          events } ∧
      ∀ connection ∈ connections, connection ∈ viewer.connections := by
  unfold closed
  split
  · exact ⟨_, _, _, _, rfl, fun connection hc => hc⟩
  rename_i found _
  dsimp only
  split
  · unfold onClosed
    split
    all_goals exact ⟨_, _, _, _, rfl, fun connection => mem_of_mem_erase⟩
  · exact ⟨_, _, _, _, rfl, fun connection => mem_of_mem_erase⟩

theorem tracked_closed (htracked : Tracked viewer) (id : Nat) : Tracked (viewer.closed id) := by
  obtain ⟨_, _, _, _, hn, hsub⟩ := viewer.closed_eq id
  rw [hn]
  constructor
  · exact fun connection hmem => htracked.ids_lt connection (hsub connection hmem)
  · exact fun connection hmem other ho =>
      htracked.ids_inj connection (hsub connection hmem) other (hsub other ho)
  · exact htracked.video_lt
  · rintro hrun ha ⟨connection, hmem, hc, hv⟩
    exact htracked.relayed hrun ha ⟨connection, hsub connection hmem, hc, hv⟩

theorem tracked_step (htracked : Tracked viewer)
    (hnot : inp.Noted viewer) : Tracked (viewer.step inp).2 := by
  cases inp with
  | connect streamType | resolved deviceCam | connectFailed =>
    simp only [step]
    split
    · exact ⟨htracked.ids_lt, htracked.ids_inj, htracked.video_lt, by rintro ⟨⟩⟩
    · exact htracked
  | connectionEstablished peer addr opens =>
    have hc := tracked_withConnection htracked peer addr
    have hs : (viewer.withConnection peer addr).phase = viewer.phase := rfl
    simp only [step, established, hs]
    simp only [Input.Noted] at hnot
    cases hp : viewer.phase with
    | running =>
      rw [hp] at hnot
      exact tracked_onEstablished hc hp hnot
    | classifying =>
      rw [hp] at hnot
      dsimp only
      split
      · rename_i hca
        exact tracked_startStreams hc fun ha => hnot ha hca
      · exact hc
    | idle | dialling | ended => exact hc
  | connectionClosed id => exact tracked_closed htracked id
  | dcutr res =>
    simp only [step]
    split
    · cases res with
      | ok _ | error _ => exact { htracked with }
    · exact htracked
  | pollEvent =>
    simp only [step]
    split
    · split
      · exact htracked
      rename_i ev events _
      cases ev with
      | disconnected => exact tracked_of_empty rfl rfl (by rintro ⟨⟩)
      | directUpgraded => exact { htracked with }
    · exact htracked

/-- Let the condition hold at every event of a session. Then the viewer attempts the switch to the main
stream at every direct connection to the camera that comes up while the video, of an automatically chosen
stream, runs over a relay circuit. -/
theorem run_upgrade_attempted (noAudio : Bool) {inputs : List (Input Peer)} {cam : Peer} {addr : Multiaddr}
    {opens : Opens} (hnoted : AlongTotal step (fun viewer input => input.Noted viewer) (new noAudio)
      (inputs ++ [.connectionEstablished cam addr opens]))
    (hrunning : (runTotal step (new noAudio) inputs).2.phase = .running)
    (hauto : (runTotal step (new noAudio) inputs).2.streamResolver.streamType = .auto)
    (hcam : (runTotal step (new noAudio) inputs).2.deviceCam = some cam)
    (hvideo : (runTotal step (new noAudio) inputs).2.VideoOverCircuit) (hdirect : addr.isCircuit = false) :
    .openStream cam .videoMain ∈
      ((runTotal step (new noAudio) inputs).2.step (.connectionEstablished cam addr opens)).1 := by
  have hi : Tracked (new noAudio : Viewer Peer) := tracked_of_empty rfl rfl nofun
  have htracked := runTotal_along
    (fun _ viewer input (htracked : Tracked viewer) hnoted => tracked_step htracked hnoted) inputs []
    hi (alongTotal_append_left hnoted)
  have hl := alongTotal_last hnoted
  generalize (runTotal step (new noAudio) inputs).2 = viewer at *
  simp only [Input.Noted, hrunning, hcam, if_true] at hl
  have hu : (viewer.withConnection cam addr).Upgrades cam addr :=
    ⟨hcam, hauto, htracked.relayed hrunning hauto hvideo,
      (viewer.withConnection cam addr).notedType_isDirect hdirect (hl hdirect).1⟩
  obtain ⟨_, _, _, _, _, _, -, -, -, -, ho, -⟩ :=
    (viewer.withConnection cam addr).onEstablished_eq cam viewer.nextConnection addr opens
  simp only [step, established]
  rw [show (viewer.withConnection cam addr).phase = .running from hrunning]
  exact (ho hu).1

/-- A camera reached over a circuit, then directly over QUIC. -/
theorem run_upgrade_attempted_holePunched :
    .openStream 1 .videoMain ∈ ((runTotal step (new true : Viewer Nat) [.connect .auto, .resolved 1,
        .connectionEstablished 1 [.p2pCircuit] ⟨some 0, none, none⟩]).2.step
      (.connectionEstablished 1 [.ip4 8 8 8 8, .quicV1] ⟨some 1, none, some 1⟩)).1 := by
  refine run_upgrade_attempted true ?_ rfl rfl rfl ⟨_, mem_cons_self, rfl, _, rfl⟩ rfl
  refine ⟨trivial, ⟨trivial, ⟨?_, ⟨?_, trivial⟩⟩⟩⟩
  · intro hc
    cases hc
  · intro _
    exact ⟨rfl, fun _ => ⟨_, mem_append_right _ mem_cons_self, rfl, rfl, rfl⟩⟩

/-- While the camera's video runs over a circuit, a connection to another peer over QUIC comes up; at the
direct connection to the camera that follows the viewer does nothing. It does nothing either when that
connection is over TCP. -/
theorem upgrade_missed : (∃ viewer : Viewer Nat, viewer = (runTotal step (new true) [.connect .auto, .resolved 1,
        .connectionEstablished 1 [.p2pCircuit] ⟨some 0, none, none⟩,
        .connectionEstablished 2 [.ip4 9 9 9 9, .quicV1] ⟨none, none, none⟩]).2 ∧
      viewer.phase = .running ∧ viewer.streamResolver.streamType = .auto ∧ viewer.deviceCam = some 1 ∧
      viewer.VideoOverCircuit ∧
      (viewer.step (.connectionEstablished 1 [.ip4 8 8 8 8, .quicV1] ⟨some 2, none, some 2⟩)).1 = []) ∧
    ∃ viewer : Viewer Nat, viewer = (runTotal step (new true) [.connect .auto, .resolved 1,
        .connectionEstablished 1 [.p2pCircuit] ⟨some 0, none, none⟩]).2 ∧
      viewer.phase = .running ∧ viewer.streamResolver.streamType = .auto ∧ viewer.deviceCam = some 1 ∧
      viewer.VideoOverCircuit ∧
      (viewer.step (.connectionEstablished 1 [.ip4 8 8 8 8, .other "tcp"] ⟨some 1, none, some 1⟩)).1 = [] := by
  refine ⟨⟨_, rfl, rfl, rfl, rfl, ?_, rfl⟩, _, rfl, rfl, rfl, rfl, ?_, rfl⟩
  all_goals exact ⟨_, mem_cons_self, rfl, _, rfl⟩

end Viewer

/-! What the viewer says about its connections. It takes this from the closing peer's own count, and
connections that come up while connecting are not counted. -/

def Viewer.NoCamera (viewer : Viewer Peer) : Prop :=
  ∀ connection ∈ viewer.connections, viewer.deviceCam ≠ some connection.peer

/-- What a step reports is true: the bridge tells the app that the camera is disconnected only if it was so,
and the player queues such an event or clears its flag only if it is so. -/
structure Truthful (viewer : Viewer Peer) (outputs : List (Output Peer)) (next : Viewer Peer) : Prop where
  told : .report .disconnected ∈ outputs → viewer.NoCamera
  queued : ∀ reason, .disconnected reason ∈ next.events → next.NoCamera
  flag : viewer.connected = true → next.connected = false → next.NoCamera

def MediaPlayerEvent.isDisconnected : MediaPlayerEvent → Bool
  | .disconnected _ => true
  | .directUpgraded _ => false

/-- A disconnect waits to be told. -/
def Viewer.waits (viewer : Viewer Peer) : Bool := viewer.events.any MediaPlayerEvent.isDisconnected

section

variable [DecidableEq Peer] (viewer : Viewer Peer)

/-- No connection comes up or goes while a disconnect waits to be told; and the last connection of a peer other
than the camera goes, in the running session, only while the camera is not connected. -/
def Input.orderly : Input Peer → Bool
  | .connectionEstablished _ _ _ => !viewer.waits
  | .connectionClosed id =>
    match viewer.connections.find? fun connection => connection.id == id with
    | none => true
    | some connection =>
      !viewer.waits && (viewer.phase ≠ .running || viewer.deviceCam = some connection.peer ||
        ((viewer.connections.erase connection).any fun other => other.peer == connection.peer) ||
        viewer.connections.all fun other => viewer.deviceCam ≠ some other.peer)
  | _ => true

/-- How many connections the statistic misses after an event, if it missed `missed` before: one more for each that
comes up while connecting, and those of the other peers when one goes in the running session. -/
def Input.missed (missed : Nat) : Input Peer → Nat
  | .connectionEstablished _ _ _ => if viewer.phase = .running then missed else missed + 1
  | .connectionClosed id =>
    match viewer.connections.find? fun connection => connection.id == id with
    | none => missed
    | some connection =>
      if viewer.phase = .running then viewer.connections.countP fun other => other.peer != connection.peer
      else missed - 1
  | .pollEvent =>
    if viewer.phase = .running ∧ viewer.events.head?.any MediaPlayerEvent.isDisconnected then 0 else missed
  | _ => missed

/-- How many connections the statistic misses after a run. -/
def missed [ToString Peer] (viewer : Viewer Peer) (missedBefore : Nat) : List (Input Peer) → Nat
  | [] => missedBefore
  | input :: inputs => missed (viewer.step input).2 (input.missed viewer missedBefore) inputs

end

/-- The statistic misses so many connections. It is zero while connecting and while the one disconnect there may be
waits to be told, which it does with the camera away and in the running session only. -/
structure Accounted (viewer : Viewer Peer) (missed : Nat) : Prop where
  connecting : viewer.phase ≠ .running → viewer.connectionQuality.activeConnections = 0 ∧ viewer.waits = false
  waiting : viewer.waits → viewer.connectionQuality.activeConnections = 0 ∧ viewer.NoCamera
  once : viewer.events.countP MediaPlayerEvent.isDisconnected ≤ 1
  counted : viewer.connectionQuality.activeConnections + missed = viewer.connections.length

namespace Viewer

variable {count : Nat}

theorem waits_of_mem {reason : String} (hq : .disconnected reason ∈ viewer.events) : viewer.waits :=
  any_eq_true.2 ⟨_, hq, rfl⟩

theorem countP_of_not_waits (hw : viewer.waits = false) :
    viewer.events.countP MediaPlayerEvent.isDisconnected = 0 :=
  countP_eq_zero.2 fun event he hd => absurd (any_eq_true.2 ⟨event, he, hd⟩) (Bool.eq_false_iff.1 hw)

theorem truthful_of_accounted {next : Viewer Peer} {outs : List (Output Peer)}
    (ha : Accounted next count) (ho : .report .disconnected ∉ outs)
    (hf : viewer.connected → next.connected) : Truthful viewer outs next := by
  refine ⟨fun ht => absurd ht ho, fun reason hq => (ha.waiting (waits_of_mem hq)).2, ?_⟩
  intro hc hcl
  rw [hf hc] at hcl
  cases hcl

theorem accounted_of_not_waits {next : Viewer Peer} {missed : Nat} (hw : next.waits = false)
    (hp : next.phase ≠ .running → next.connectionQuality.activeConnections = 0)
    (hc : next.connectionQuality.activeConnections + missed = next.connections.length) : Accounted next missed where
  connecting hne := ⟨hp hne, hw⟩
  waiting ht := absurd ht (Bool.eq_false_iff.1 hw)
  once := (countP_of_not_waits hw).symm ▸ Nat.zero_le 1
  counted := hc

/-- A step that only changes what the account does not look at. -/
theorem accounted_kept {next : Viewer Peer} {outs : List (Output Peer)} (ha : Accounted viewer count)
    (ho : .report .disconnected ∉ outs)
    (he : next.events.countP MediaPlayerEvent.isDisconnected = viewer.events.countP MediaPlayerEvent.isDisconnected)
    (hco : next.connections = viewer.connections)
    (hac : next.connectionQuality.activeConnections = viewer.connectionQuality.activeConnections)
    (hf : next.connected = viewer.connected) (hd : viewer.waits → next.deviceCam = viewer.deviceCam)
    (hp : next.phase ≠ .running → viewer.phase ≠ .running) : Accounted next count ∧ Truthful viewer outs next := by
  obtain ⟨hcon, hwai, honc, hcou⟩ := ha
  have hw : next.waits = viewer.waits := by
    rw [Bool.eq_iff_iff, waits, waits, any_eq_true, any_eq_true, ← countP_pos_iff, ← countP_pos_iff, he]
  have hk : Accounted next count := by
    refine ⟨?_, ?_, he ▸ honc, by rw [hac, hco, hcou]⟩
    · rw [hac, hw]
      exact fun hne => hcon (hp hne)
    · rw [hac, hw, NoCamera, hco]
      intro ht
      rw [hd ht]
      exact hwai ht
  exact ⟨hk, truthful_of_accounted hk ho hf.trans⟩

theorem accounted_idle (ha : Accounted viewer count) : Accounted viewer count ∧ Truthful viewer [] viewer :=
  ⟨ha, truthful_of_accounted ha not_mem_nil id⟩

theorem accounted_connecting {next : Viewer Peer} {outs : List (Output Peer)} (ha : Accounted viewer count)
    (hne : viewer.phase ≠ .running) (he : next.events = viewer.events)
    (hq : next.connectionQuality = viewer.connectionQuality)
    (hco : next.connections.length = viewer.connections.length + 1) (ho : .report .disconnected ∉ outs)
    (hf : viewer.connected → next.connected) : Accounted next (count + 1) ∧ Truthful viewer outs next := by
  obtain ⟨hz, hw⟩ := ha.connecting hne
  have hk : Accounted next (count + 1) := by
    refine accounted_of_not_waits ?_ (fun _ => hq ▸ hz) ?_
    · rwa [waits, he]
    · rw [hq, hco, ← ha.counted, Nat.add_assoc]
  exact ⟨hk, truthful_of_accounted hk ho hf⟩

variable [DecidableEq Peer]

theorem accounted_established (ha : Accounted viewer count) {peer : Peer} (hw : viewer.waits = false) :
    Accounted (viewer.established peer addr opens).2 (if viewer.phase = .running then count else count + 1) ∧
      Truthful viewer (viewer.established peer addr opens).1 (viewer.established peer addr opens).2 := by
  have hlen : (viewer.withConnection peer addr).connections.length = viewer.connections.length + 1 := by
    simp [withConnection]
  unfold established
  dsimp only
  rw [show (viewer.withConnection peer addr).phase = viewer.phase from rfl]
  cases hp : viewer.phase with
  | idle | dialling | ended =>
    exact accounted_connecting ha (by rw [hp]; nofun) rfl rfl hlen not_mem_nil id
  | classifying =>
    have hne : viewer.phase ≠ .running := by
      rw [hp]
      nofun
    dsimp only
    split
    · obtain ⟨_, _, _, _, _, hn, hr, hc, -⟩ :=
        ((viewer.withConnection peer addr).noteClassified viewer.nextConnection addr).startStreams_eq peer opens
      rw [hn]
      exact accounted_connecting ha hne rfl rfl hlen hr hc
    · exact accounted_connecting ha hne rfl rfl hlen not_mem_nil id
  | running =>
    obtain ⟨quality, _, _, _, _, events, hn, hac, he, hr, -, -⟩ :=
      (viewer.withConnection peer addr).onEstablished_eq peer viewer.nextConnection addr opens
    rw [if_pos rfl]
    dsimp only
    have hk : Accounted ((viewer.withConnection peer addr).onEstablished peer viewer.nextConnection addr opens).2
        count := by
      rw [hn]
      refine accounted_of_not_waits (Bool.eq_false_iff.2 fun ht => ?_) (fun hne => absurd hp hne) ?_
      · obtain ⟨event, hev, hd⟩ := any_eq_true.1 ht
        cases event with
        | disconnected reason =>
          have hq : .disconnected reason ∈ viewer.events := he reason hev
          rw [waits_of_mem hq] at hw
          cases hw
        | directUpgraded => cases hd
      · calc quality.activeConnections + count = viewer.connectionQuality.activeConnections + 1 + count := by
              rw [hac]
              rfl
          _ = viewer.connections.length + 1 := by
              rw [← ha.counted]
              omega
          _ = _ := hlen.symm
    refine ⟨hk, truthful_of_accounted hk (hr .disconnected) ?_⟩
    rw [hn]
    exact id

section

variable {conn : Connection Peer}

theorem countP_erase_add (hmem : conn ∈ viewer.connections) :
    (viewer.connections.erase conn).countP (fun other => other.peer == conn.peer) +
      viewer.connections.countP (fun other => other.peer != conn.peer) = (viewer.connections.erase conn).length := by
  have herase : (viewer.connections.erase conn).countP (fun other => other.peer != conn.peer) =
      viewer.connections.countP fun other => other.peer != conn.peer := by
    rw [(perm_cons_erase hmem).countP_eq, countP_cons_of_neg (by simp)]
  rw [← herase, length_eq_countP_add_countP fun other => other.peer == conn.peer]
  simp only [bne, Bool.not_eq_true, Bool.decide_eq_false]

/-- The last connection of a peer goes: the camera's, or one while the camera is not connected. -/
theorem ne_camera_of_last
    (hl : (viewer.deviceCam = some conn.peer ∨
        ((viewer.connections.erase conn).any fun other => other.peer == conn.peer)) ∨
      viewer.connections.all fun other => viewer.deviceCam ≠ some other.peer)
    (hz : (viewer.connections.erase conn).countP (fun other => other.peer == conn.peer) = 0) :
    ∀ other ∈ viewer.connections.erase conn, viewer.deviceCam ≠ some other.peer := by
  intro other hot
  have hne := countP_eq_zero.1 hz other hot
  rcases hl with (hcam | hany) | hall
  · rw [hcam]
    rintro heq
    exact hne (beq_iff_eq.2 (Option.some.inj heq).symm)
  · obtain ⟨same, hs, hp⟩ := any_eq_true.1 hany
    exact absurd hp (countP_eq_zero.1 hz same hs)
  · exact of_decide_eq_true (all_eq_true.1 hall other (mem_of_mem_erase hot))

end

variable [ToString Peer]

theorem accounted_closed (ha : Accounted viewer count) {id : Nat}
    (ho : (Input.connectionClosed id).orderly viewer) :
    Accounted (viewer.closed id) ((Input.connectionClosed id).missed viewer count) ∧
      Truthful viewer [] (viewer.closed id) := by
  rw [closed, Input.missed]
  rw [Input.orderly] at ho
  cases hf : viewer.connections.find? fun conn => conn.id == id with
  | none => exact accounted_idle ha
  | some conn =>
    have hmem := mem_of_find?_eq_some hf
    rw [hf] at ho
    simp only [Bool.and_eq_true, Bool.not_eq_true', Bool.or_eq_true, decide_eq_true_eq] at ho
    obtain ⟨hw, hl⟩ := ho
    dsimp only
    by_cases hrun : viewer.phase = .running
    · rw [if_pos hrun, if_pos hrun]
      have hsum := countP_erase_add hmem
      unfold onClosed
      dsimp only
      by_cases hz : (viewer.connections.erase conn).countP (fun other => other.peer == conn.peer) = 0
      · rw [if_pos hz]
        have hno := ne_camera_of_last (hl.imp_left (Or.imp_left fun h => h.resolve_left (absurd hrun))) hz
        refine ⟨⟨fun hne => absurd hrun hne, fun _ => ⟨hz, hno⟩, ?_, hsum⟩, nofun, fun _ _ => hno, fun _ _ => hno⟩
        rw [countP_append, countP_of_not_waits hw, Nat.zero_add]
        exact countP_le_length
      · rw [if_neg hz]
        have hk : Accounted { viewer with
            connections := viewer.connections.erase conn
            connectionQuality := { viewer.connectionQuality with activeConnections := _ } } _ :=
          accounted_of_not_waits hw (fun hne => absurd hrun hne) hsum
        exact ⟨hk, truthful_of_accounted hk not_mem_nil fun h => h⟩
    · rw [if_neg hrun, if_neg hrun]
      obtain ⟨hz, -⟩ := ha.connecting hrun
      have hk : Accounted { viewer with connections := viewer.connections.erase conn } (count - 1) := by
        refine accounted_of_not_waits hw (fun _ => hz) ?_
        have hc := ha.counted
        rw [hz] at hc
        show viewer.connectionQuality.activeConnections + (count - 1) = (viewer.connections.erase conn).length
        rw [hz, length_erase_of_mem hmem, ← hc]
        omega
      exact ⟨hk, truthful_of_accounted hk not_mem_nil fun h => h⟩

theorem accounted_step (ha : Accounted viewer count) (hc : inp.orderly viewer) :
    Accounted (viewer.step inp).2 (inp.missed viewer count) ∧
      Truthful viewer (viewer.step inp).1 (viewer.step inp).2 := by
  cases inp with
  | connect streamType =>
    simp only [step]
    split
    · next hp =>
      exact accounted_kept ha (by simp) rfl rfl rfl rfl (fun _ => rfl) fun _ hrun => nomatch hp.symm.trans hrun
    · exact accounted_idle ha
  | connectFailed =>
    simp only [step]
    split
    · next hp =>
      refine accounted_kept ha (by simp) rfl rfl rfl rfl (fun _ => rfl) fun _ hrun => ?_
      rw [hrun] at hp
      rcases hp with hp | hp <;> cases hp
    · exact accounted_idle ha
  | resolved deviceCam =>
    simp only [step]
    split
    · next hp =>
      have hne : viewer.phase ≠ .running := fun hrun => nomatch hp.symm.trans hrun
      refine accounted_kept ha (by simp) rfl rfl rfl rfl (fun ht => ?_) fun _ => hne
      rw [(ha.connecting hne).2] at ht
      cases ht
    · exact accounted_idle ha
  | connectionEstablished => exact accounted_established ha (by simpa [Input.orderly] using hc)
  | connectionClosed => exact accounted_closed ha hc
  | dcutr res =>
    simp only [step]
    split
    · cases res with
      | ok _ | error _ => exact accounted_kept ha (by simp) rfl rfl rfl rfl (fun _ => rfl) id
    · exact accounted_idle ha
  | pollEvent =>
    rw [Input.missed, step]
    by_cases hrun : viewer.phase = .running
    · rw [if_pos hrun]
      cases he : viewer.events with
      | nil =>
        simp only [head?_nil, Option.any_none, Bool.false_eq_true, and_false, if_false]
        exact accounted_idle ha
      | cons event events =>
        have honc := ha.once
        rw [he] at honc
        cases event with
        | disconnected reason =>
          obtain ⟨hz, hno⟩ := ha.waiting (waits_of_mem (he ▸ mem_cons_self))
          have hw : ∀ event ∈ events, ¬ event.isDisconnected := by
            rw [countP_cons_of_pos rfl] at honc
            exact countP_eq_zero.1 (by omega)
          have hwaits : events.any MediaPlayerEvent.isDisconnected = false := by simpa using hw
          rw [if_pos ⟨hrun, rfl⟩]
          refine ⟨accounted_of_not_waits hwaits (fun _ => hz) hz, fun _ => hno, ?_, ?_⟩
          all_goals exact fun _ _ => nofun
        | directUpgraded viaLan =>
          rw [if_neg fun h => nomatch h.2]
          refine accounted_kept ha (by simp [onEvent]) ?_ rfl rfl rfl (fun _ => rfl) id
          rw [he]
          rfl
    · rw [if_neg hrun, if_neg fun h => hrun h.1]
      exact accounted_idle ha

theorem accounted_run {inputs : List (Input Peer)} (ha : Accounted viewer count)
    (ho : AlongTotal step (fun viewer input => input.orderly viewer) viewer inputs) :
    Accounted (runTotal step viewer inputs).2 (missed viewer count inputs) := by
  induction inputs generalizing viewer count with
  | nil => exact ha
  | cons input inputs ih => exact ih (accounted_step ha ho.1).1 ho.2

/-- Let no connection come up or go while a disconnect waits to be told, and let the last connection of a peer other
than the camera go, in the running session, only while the camera is not connected. Then every step of a session is
truthful, and the statistic counts the connections if and only if it has missed none. -/
theorem run_truthful (noAudio : Bool) {inputs : List (Input Peer)} {input : Input Peer}
    (horderly : AlongTotal step (fun viewer input => input.orderly viewer) (new noAudio) (inputs ++ [input])) :
    Truthful (runTotal step (new noAudio) inputs).2 ((runTotal step (new noAudio) inputs).2.step input).1
      ((runTotal step (new noAudio) inputs).2.step input).2 ∧
    ((runTotal step (new noAudio) inputs).2.connectionQuality.activeConnections =
      (runTotal step (new noAudio) inputs).2.connections.length ↔ missed (new noAudio) 0 inputs = 0) := by
  have hn : Accounted (new noAudio : Viewer Peer) 0 := accounted_of_not_waits rfl (fun _ => rfl) rfl
  have hk := accounted_run hn (alongTotal_append_left horderly)
  refine ⟨(accounted_step hk (alongTotal_last horderly)).2, ?_⟩
  rw [← hk.counted]
  omega

/-- The camera is reached over a circuit and then directly, the circuit is closed, and so is the direct connection. -/
theorem run_truthful_session : ∃ inputs : List (Input Nat), inputs.length = 6 ∧
    (runTotal step (new true) inputs).2.events = [.disconnected "DeviceCam connection closed"] ∧
    (Truthful (runTotal step (new true) inputs).2 ((runTotal step (new true) inputs).2.step .pollEvent).1
      ((runTotal step (new true) inputs).2.step .pollEvent).2 ∧
    ((runTotal step (new true) inputs).2.connectionQuality.activeConnections =
      (runTotal step (new true) inputs).2.connections.length ↔ missed (new true) 0 inputs = 0)) ∧
    missed (new true) 0 inputs = 0 :=
  ⟨[.connect .auto, .resolved 1, .connectionEstablished 1 [.p2pCircuit] ⟨some 0, none, none⟩,
    .connectionEstablished 1 [.quicV1] ⟨none, none, none⟩, .connectionClosed 0, .connectionClosed 1],
    rfl, rfl, run_truthful true (by decide), rfl⟩

/-- A session with the camera is up when a connection to another peer comes up and goes: the viewer clears
its flag and counts no connection, and the bridge tells the app that it is disconnected. -/
theorem disconnect_misreported : ∃ viewer : Viewer Nat, viewer = (runTotal step (new true) [.connect .auto, .resolved 1,
      .connectionEstablished 1 [.quicV1] ⟨some 0, none, none⟩,
      .connectionEstablished 2 [.quicV1] ⟨none, none, none⟩, .connectionClosed 1]).2 ∧
    viewer.deviceCam = some 1 ∧ viewer.connections = [⟨0, 1, [.quicV1]⟩] ∧ ¬ viewer.NoCamera ∧
    viewer.connected = false ∧ viewer.connectionQuality.activeConnections = 0 ∧
    .report .disconnected ∈ (viewer.step .pollEvent).1 := by
  refine ⟨_, rfl, rfl, rfl, fun hn => ?_, rfl, rfl, mem_cons_self⟩
  exact hn _ mem_cons_self rfl

end Viewer
end RustLibp2p.Camera.ViewerLoop
