import Mathlib.Data.List.Induction
import Mathlib.Data.List.Nodup

/-! Diagnosis of the NAT in front of the viewer and of the camera, from the external addresses the relay
has observed. The two copies of the module do it in the same way. -/

namespace RustLibp2p.Camera.NetDiag
open List

/-- A component of an address; all but UDP ports are known by name only. -/
inductive Protocol where
  | udp (port : UInt16)
  | other (name : String)

abbrev Multiaddr := List Protocol

structure Ipv4Addr where
  a : UInt8
  b : UInt8
  c : UInt8
  d : UInt8
  deriving DecidableEq

namespace Ipv4Addr

section

variable (ip : Ipv4Addr)

def isPrivate : Bool := ip.a == 10 || (ip.a == 172 && 16 ≤ ip.b && ip.b ≤ 31) || (ip.a == 192 && ip.b == 168)

def isLoopback : Bool := ip.a == 127

def isUnspecified : Bool := ip == ⟨0, 0, 0, 0⟩

def isLinkLocal : Bool := ip.a == 169 && ip.b == 254

def isMulticast : Bool := 224 ≤ ip.a && ip.a ≤ 239

/-- 100.64.0.0/10, carrier-grade NAT. -/
def isShared : Bool := ip.a == 100 && 64 ≤ ip.b && ip.b ≤ 127

end
end Ipv4Addr

def isPublicIp (ip : Ipv4Addr) : Bool :=
  !(ip.isPrivate || ip.isLoopback || ip.isLinkLocal || ip.isShared
    || (ip.a == 192 && ip.b == 0 && ip.c == 0)
    || (ip.a == 192 && ip.b == 0 && ip.c == 2)
    || (ip.a == 198 && ip.b == 51 && ip.c == 100)
    || (ip.a == 203 && ip.b == 0 && ip.c == 113)
    || ip.isMulticast || 240 ≤ ip.a)

/-- The networks of phones that share their connection, and addresses that are neither private nor public. -/
def is4gNetwork (ip : Ipv4Addr) : Bool :=
  (ip.a == 192 && ip.b == 168 && ip.c == 174)
    || (ip.a == 192 && ip.b == 168 && ip.c == 133)
    || (ip.a == 192 && ip.b == 168 && ip.c == 43)
    || ip.isShared
    || (!ip.isPrivate && !ip.isLoopback && !ip.isUnspecified && !isPublicIp ip)

inductive NatType where
  | fullCone
  | restrictedCone
  | portRestrictedCone
  | symmetric
  | unknown
  deriving DecidableEq

structure NatDiagnosis where
  natType : NatType
  observedAddresses : List Multiaddr
  localPort : UInt16
  evidence : String
  dcutrFeasible : Bool
  is4g : Bool
  dcutrSuggestion : String

def generateSuggestion : NatType → Bool → String
  | .symmetric, true =>
    "4G/CGNAT with Symmetric NAT: DCUtR hole-punching will not succeed. " ++
    "Placing device-cam on broadband (Cone NAT) network increases DCUtR success rate. " ++
    "Relay circuit will be used as fallback."
  | .symmetric, false =>
    "Symmetric NAT: DCUtR hole-punching will not succeed, relay circuit is the only option. " ++
    "Consider: 1) Configure port forwarding on router, 2) Use --udp-port to fix local port"
  | .fullCone, true | .restrictedCone, true | .portRestrictedCone, true =>
    "4G/CGNAT detected: DCUtR may succeed if remote peer is on broadband (Cone NAT). " ++
    "Placing device-cam on broadband network increases DCUtR success rate."
  | .fullCone, false | .restrictedCone, false | .portRestrictedCone, false =>
    "Cone NAT: DCUtR hole-punching should succeed. " ++
    "If it fails, check firewall settings or port forwarding configuration."
  | .unknown, true =>
    "4G/CGNAT detected with unknown NAT type: DCUtR will be attempted but success rate is uncertain. " ++
    "Placing device-cam on broadband network increases DCUtR success rate."
  | .unknown, false => "NAT type unknown: DCUtR will be attempted, success depends on NAT compatibility of both peers."

def extractUdpPort : Multiaddr → Option UInt16
  | [] => none
  | .udp port :: _ => some port
  | .other _ :: rest => extractUdpPort rest

structure NatDiagnostic where
  observedHistory : List Multiaddr
  localQuicPort : UInt16
  localIps : List Ipv4Addr
  force4g : Bool

namespace NatDiagnostic

def new (localQuicPort : UInt16) (localIps : List Ipv4Addr) : NatDiagnostic := ⟨[], localQuicPort, localIps, false⟩

section

variable (diag : NatDiagnostic)

def setForce4g (force : Bool) : NatDiagnostic := { diag with force4g := force }

/-- The observed port is the local one or one that was observed before. -/
def currentPortMatches (addr : Multiaddr) : Bool :=
  (extractUdpPort addr).any fun port =>
    port == diag.localQuicPort || diag.observedHistory.any fun old => extractUdpPort old == some port

/-- Any other port starts the history anew, since the relay may have been connected to again from another port. -/
def recordObserved (addr : Multiaddr) : NatDiagnostic :=
  let history := if !diag.currentPortMatches addr && !diag.observedHistory.isEmpty then [] else diag.observedHistory
  { diag with observedHistory := history ++ [addr] }

def is4g : Bool := diag.force4g || diag.localIps.any is4gNetwork

/-- The diagnosis of a type, with the fields that are the same in all of them. -/
def report (natType : NatType) (evidence : String) (dcutrFeasible : Bool) : NatDiagnosis where
  natType := natType
  observedAddresses := diag.observedHistory
  localPort := diag.localQuicPort
  evidence := evidence
  dcutrFeasible := dcutrFeasible
  is4g := diag.is4g
  dcutrSuggestion := generateSuggestion natType diag.is4g

/-- The part of `diagnose` for a single UDP port. -/
def diagnoseOne (port : UInt16) : NatDiagnosis :=
  if port = diag.localQuicPort ∧ diag.localQuicPort ≠ 0 then
    if diag.is4g then
      diag.report .unknown ("Observed port " ++ toString port ++ " matches local port " ++
        toString diag.localQuicPort ++ ", but 4G/CGNAT detected - cannot confirm Full Cone NAT from single " ++
        "observation (CGNAT may assign different ports to different destinations)") false
    else
      diag.report .fullCone ("Observed port " ++ toString port ++ " matches local port " ++
        toString diag.localQuicPort ++ " - no NAT or 1:1 NAT") true
  else
    diag.report .unknown ("Only 1 observation with port " ++ toString port ++
      " - need more data to determine NAT type") true

/-- The part of `diagnose` for several UDP ports. -/
def diagnoseMany (first : UInt16) (ports : List UInt16) : NatDiagnosis :=
  if ports.all (· == first) then
    if diag.is4g then
      diag.report .unknown ("Observed port " ++ toString first ++ " consistent across " ++ toString ports.length ++
        " observations, but 4G/CGNAT detected - cannot confirm Cone NAT (CGNAT may assign different ports to " ++
        "different destinations)") false
    else
      diag.report .portRestrictedCone ("Observed port " ++ toString first ++ " consistent across " ++
        toString ports.length ++ " observations - Cone NAT") true
  else
    diag.report .symmetric ("Observed ports vary: " ++ ", ".intercalate (ports.map toString) ++ " - Symmetric NAT")
      false

def diagnose : NatDiagnosis :=
  if diag.observedHistory.isEmpty then diag.report .unknown "No Identify observations received yet" false
  else
    match diag.observedHistory.filterMap extractUdpPort with
    | [] => diag.report .unknown "No UDP ports found in observed addresses (TCP-only observations)" false
    | [port] => diag.diagnoseOne port
    | first :: ports => diag.diagnoseMany first (first :: ports)

def recordAll (addrs : List Multiaddr) : NatDiagnostic := addrs.foldl recordObserved diag

end

variable {diag : NatDiagnostic} {addr : Multiaddr}

theorem currentPortMatches_iff : diag.currentPortMatches addr ↔ ∃ port, extractUdpPort addr = some port ∧
      (port = diag.localQuicPort ∨ ∃ old ∈ diag.observedHistory, extractUdpPort old = some port) := by
  simp [currentPortMatches, Option.any_eq_true]

theorem observedHistory_recordObserved (diag : NatDiagnostic) (addr : Multiaddr) :
    (diag.recordObserved addr).observedHistory =
      if diag.currentPortMatches addr then diag.observedHistory ++ [addr] else [addr] := by
  rw [recordObserved]
  cases hm : diag.currentPortMatches addr with
  | true => simp
  | false =>
    cases hh : diag.observedHistory with
    | nil | cons => simp

theorem localQuicPort_recordAll (diag : NatDiagnostic) (addrs : List Multiaddr) :
    (diag.recordAll addrs).localQuicPort = diag.localQuicPort := by
  induction addrs generalizing diag with
  | nil => rfl
  | cons addr addrs ih => exact ih (diag.recordObserved addr)

theorem recordAll_append (diag : NatDiagnostic) (addrs : List Multiaddr) (addr : Multiaddr) :
    diag.recordAll (addrs ++ [addr]) = (diag.recordAll addrs).recordObserved addr := by
  rw [recordAll, foldl_append, foldl_cons, foldl_nil, recordAll]

/-- In a history everything after the first observation has the local port or the port of the first one. -/
structure Anchored (localPort : UInt16) (history : List Multiaddr) : Prop where
  after : ∀ first rest, history = first :: rest → ∀ addr ∈ rest, ∃ port, extractUdpPort addr = some port ∧
    (port = localPort ∨ extractUdpPort first = some port)

theorem anchored_recordObserved (hd : Anchored diag.localQuicPort diag.observedHistory) (addr : Multiaddr) :
    Anchored diag.localQuicPort (diag.recordObserved addr).observedHistory := by
  rw [observedHistory_recordObserved]
  split_ifs with hm
  · obtain ⟨port, hp, hk⟩ := currentPortMatches_iff.1 hm
    refine ⟨fun first rest hh other ho => ?_⟩
    cases hol : diag.observedHistory with
    | nil =>
      rw [hol] at hh
      cases hh
      cases ho
    | cons first' rest' =>
      rw [hol] at hh
      cases hh
      rcases mem_append.1 ho with ho | ho
      · exact hd.after first rest' hol other ho
      rw [mem_singleton.1 ho]
      refine ⟨port, hp, ?_⟩
      rcases hk with hl | ⟨old, hmem, holP⟩
      · exact .inl hl
      rw [hol] at hmem
      rcases mem_cons.1 hmem with rfl | hmem
      · exact .inr holP
      · obtain ⟨_, hp', hc⟩ := hd.after first rest' hol old hmem
        cases holP.symm.trans hp'
        exact hc
  · refine ⟨fun first rest hh other ho => ?_⟩
    cases hh
    cases ho

section

variable (localPort : UInt16) (localIps : List Ipv4Addr) (force : Bool) (addrs : List Multiaddr)

theorem anchored_recordAll :
    Anchored localPort (((new localPort localIps).setForce4g force).recordAll addrs).observedHistory := by
  have hp := localQuicPort_recordAll ((new localPort localIps).setForce4g force)
  induction addrs using List.reverseRecOn with
  | nil => exact ⟨nofun⟩
  | append_singleton addrs addr ih =>
    rw [recordAll_append]
    have hd : Anchored (((new localPort localIps).setForce4g force).recordAll addrs).localQuicPort
        (((new localPort localIps).setForce4g force).recordAll addrs).observedHistory := by
      rw [hp]
      exact ih
    have hn := anchored_recordObserved hd addr
    rwa [hp] at hn

theorem observedHistory_of_new {port : UInt16} (hp : extractUdpPort addr = some port)
    (hl : port ≠ diag.localQuicPort) (hn : ∀ old ∈ diag.observedHistory, extractUdpPort old ≠ some port) :
    (diag.recordObserved addr).observedHistory = [addr] := by
  rw [observedHistory_recordObserved, if_neg]
  intro hm
  obtain ⟨_, hp', hk⟩ := currentPortMatches_iff.1 hm
  cases hp.symm.trans hp'
  rcases hk with heq | ⟨old, hmem, ho⟩
  · exact hl heq
  · exact hn old hmem ho

/-- Of observations with ever new ports only the last one is kept. -/
theorem observedHistory_recordAll {addrs : List Multiaddr} {ports : List UInt16}
    (hp : addrs.map extractUdpPort = ports.map some) (hn : ports.Nodup) (hl : diag.localQuicPort ∉ ports)
    (hne : ∀ old ∈ diag.observedHistory, ∀ port ∈ ports, extractUdpPort old ≠ some port) {last : Multiaddr}
    (hla : addrs.getLast? = some last) : (diag.recordAll addrs).observedHistory = [last] := by
  induction addrs generalizing diag ports with
  | nil => cases hla
  | cons addr addrs ih =>
    cases ports with
    | nil => cases hp
    | cons port =>
      obtain ⟨hpo, hp⟩ := List.cons.inj hp
      obtain ⟨hf, hn⟩ := nodup_cons.1 hn
      have hh : (diag.recordObserved addr).observedHistory = [addr] :=
        observedHistory_of_new hpo (fun heq => hl (heq ▸ mem_cons_self)) fun old ho => hne old ho port mem_cons_self
      cases addrs with
      | nil =>
        cases hla
        exact hh
      | cons =>
        refine ih hp hn (fun hmem => hl (mem_cons_of_mem _ hmem)) ?_ hla
        intro old ho _ hpo' heq
        rw [hh, mem_singleton] at ho
        rw [ho, hpo, Option.some_inj] at heq
        exact hf (heq ▸ hpo')

/-- The type is symmetric if and only if two of the observed ports differ. -/
theorem natType_diagnose_eq_symmetric_iff (diag : NatDiagnostic) : diag.diagnose.natType = .symmetric ↔
      ∃ port ∈ diag.observedHistory.filterMap extractUdpPort, ∃ port' ∈ diag.observedHistory.filterMap extractUdpPort,
        port ≠ port' := by
  unfold diagnose
  split_ifs with he
  · simp [report, isEmpty_iff.1 he]
  generalize diag.observedHistory.filterMap extractUdpPort = ports
  rcases ports with _ | ⟨port, _ | ⟨second, rest⟩⟩
  · simp [report]
  · have ho : (diag.diagnoseOne port).natType ≠ .symmetric := by
      unfold diagnoseOne
      split_ifs <;> simp [report]
    simp [ho]
  · have hs : (∀ p ∈ port :: second :: rest, p = port) →
        ¬∃ p ∈ port :: second :: rest, ∃ p' ∈ port :: second :: rest, p ≠ p' := by
      rintro hall ⟨p, hp, p', hp', hne⟩
      exact hne ((hall p hp).trans (hall p' hp').symm)
    simp only [diagnoseMany, all_eq_true, beq_iff_eq]
    split_ifs with hall
    · exact iff_of_false (by simp [report]) (hs hall)
    · exact iff_of_false (by simp [report]) (hs hall)
    · simp only [not_forall] at hall
      obtain ⟨p, hp, hne⟩ := hall
      exact iff_of_true rfl ⟨p, hp, port, mem_cons_self, hne⟩

/-- After any observations the type is symmetric if and only if an address with another port was followed by one
with the local port. -/
theorem symmetric_iff_local_after_other {diag : NatDiagnostic}
    (hd : ((new localPort localIps).setForce4g force).recordAll addrs = diag) :
    diag.diagnose.natType = .symmetric ↔ ∃ first rest port, diag.observedHistory = first :: rest ∧
      extractUdpPort first = some port ∧ port ≠ localPort ∧ ∃ addr ∈ rest, extractUdpPort addr = some localPort := by
  have ha := anchored_recordAll localPort localIps force addrs
  rw [hd] at ha
  rw [natType_diagnose_eq_symmetric_iff]
  constructor
  · rintro ⟨port, hpo, port', hpo', hne⟩
    cases hh : diag.observedHistory with
    | nil =>
      rw [hh] at hpo
      cases hpo
    | cons first rest =>
      -- Each of the two ports is that of the first address or the local one of a later address.
      have hf : ∀ p ∈ diag.observedHistory.filterMap extractUdpPort, extractUdpPort first = some p ∨
          p = localPort ∧ ∃ addr ∈ rest, extractUdpPort addr = some p := by
        intro p hp
        obtain ⟨addr, had, he⟩ := mem_filterMap.1 hp
        rw [hh] at had
        rcases mem_cons.1 had with rfl | had
        · exact .inl he
        obtain ⟨_, hp', hc⟩ := ha.after first rest hh addr had
        cases he.symm.trans hp'
        rcases hc with hl | hfi
        · exact .inr ⟨hl, addr, had, he⟩
        · exact .inl hfi
      rcases hf port hpo with hfi | ⟨rfl, hl⟩
      · rcases hf port' hpo' with hfi' | ⟨rfl, hl⟩
        · exact absurd (Option.some_inj.1 (hfi.symm.trans hfi')) hne
        · exact ⟨first, rest, port, rfl, hfi, hne, hl⟩
      · rcases hf port' hpo' with hfi | ⟨heq, -⟩
        · exact ⟨first, rest, port', rfl, hfi, hne.symm, hl⟩
        · exact absurd heq.symm hne
  · rintro ⟨first, rest, port, hh, hfi, hne, addr, had, hl⟩
    rw [hh]
    refine ⟨port, ?_, localPort, ?_, hne⟩
    · exact mem_filterMap.2 ⟨first, mem_cons_self, hfi⟩
    · exact mem_filterMap.2 ⟨addr, mem_cons_of_mem _ had, hl⟩

/-- Observations whose ports are all different and different from the local port: each one starts the history anew,
so that the last one is the only one left and the type is unknown. -/
theorem diagnose_of_changing_ports
    {addrs : List Multiaddr} {ports : List UInt16} (hports : addrs.map extractUdpPort = ports.map some)
    (htwo : 2 ≤ ports.length) (hnodup : ports.Nodup) (hlocal : localPort ∉ ports) {diag : NatDiagnostic}
    (hdiag : ((new localPort localIps).setForce4g force).recordAll addrs = diag) :
    ∃ last port, addrs.getLast? = some last ∧ extractUdpPort last = some port ∧ diag.observedHistory = [last] ∧
      diag.diagnose.natType = .unknown ∧ diag.diagnose.evidence =
        "Only 1 observation with port " ++ toString port ++ " - need more data to determine NAT type" := by
  have hp : diag.localQuicPort = localPort := by rw [← hdiag, localQuicPort_recordAll]; rfl
  obtain ⟨last, hl⟩ : ∃ last, addrs.getLast? = some last := by
    have hlen := congrArg List.length hports
    rw [length_map, length_map] at hlen
    have hne : addrs ≠ [] := ne_nil_of_length_pos (by omega)
    exact ⟨addrs.getLast hne, getLast?_eq_some_getLast hne⟩
  obtain ⟨port, hmem, he⟩ : ∃ port ∈ ports, some port = extractUdpPort last := by
    have hlaP : extractUdpPort last ∈ addrs.map extractUdpPort := mem_map_of_mem (mem_of_getLast? hl)
    rw [hports] at hlaP
    exact mem_map.1 hlaP
  have hh : diag.observedHistory = [last] := by
    rw [← hdiag]
    refine observedHistory_recordAll hports hnodup hlocal ?_ hl
    intro _ ho
    cases ho
  have hot : ¬(port = diag.localQuicPort ∧ diag.localQuicPort ≠ 0) := by
    rintro ⟨heq, -⟩
    exact hlocal (hp ▸ heq ▸ hmem)
  have hd : diag.diagnose = diag.report .unknown ("Only 1 observation with port " ++ toString port ++
      " - need more data to determine NAT type") true := by
    simp [diagnose, hh, ← he, diagnoseOne, if_neg hot]
  refine ⟨last, port, hl, he.symm, hh, ?_, ?_⟩
  all_goals
    rw [hd]
    rfl

end

def twoPorts : List Multiaddr := [[.other "ip4/198.51.100.7", .udp 5000], [.other "ip4/198.51.100.7", .udp 6000]]

theorem diagnose_of_changing_ports_two : ∃ last port, twoPorts.getLast? = some last ∧ extractUdpPort last = some port ∧
      ((new 4000 []).setForce4g false |>.recordAll twoPorts).observedHistory = [last] ∧
      ((new 4000 []).setForce4g false |>.recordAll twoPorts).diagnose.natType = .unknown ∧
      ((new 4000 []).setForce4g false |>.recordAll twoPorts).diagnose.evidence =
        "Only 1 observation with port " ++ toString port ++ " - need more data to determine NAT type" :=
  diagnose_of_changing_ports 4000 [] false (show twoPorts.map extractUdpPort = [5000, 6000].map some from rfl)
    (by decide) (by decide) (by decide) rfl

/-- The second observation has the local port. -/
theorem symmetric_iff_local_after_other_two : ((new 6000 []).setForce4g false |>.recordAll twoPorts).diagnose.natType =
    .symmetric :=
  (symmetric_iff_local_after_other 6000 [] false twoPorts rfl).2
    ⟨_, _, 5000, rfl, rfl, by decide, _, mem_cons_self, rfl⟩

/-- Two different ports, neither of them the local one, are not diagnosed as symmetric. -/
theorem not_symmetric_two : ((new 4000 []).recordAll twoPorts).diagnose.natType ≠ .symmetric := by decide +kernel

end NatDiagnostic
end RustLibp2p.Camera.NetDiag
