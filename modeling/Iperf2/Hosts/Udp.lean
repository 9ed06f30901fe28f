import Iperf2.Hosts.Table
import Iperf2.Lib.Transition

/-!
# UDP flows and the table

`Listener::udp_accept` tells a new UDP flow from a datagram of a flow it has started by the conditional push. The
state is the table and the flows it let in; a flow is removed by the settings of its server thread, in which
`getsockname` has rewritten the local address since the push.

The table has one entry for a host, with the port of the flow that made it, and the key may be the local address.
`OneFlowPerHost` is the guard under which this does no harm: a datagram comes with a key and a peer of live flows,
or with neither the host of the key nor the peer of one, and in that case with a key whose host `getsockname` keeps.

* `JudgedRight` : a conditional push returns a negative value exactly when a flow of the peer is live;
* `udp_flow_unique` : in the runs that meet the guard it is what a flow needs to be judged right at its first
  datagram, while it is live and after its removal.
-/

namespace Iperf2.Hosts
open Transition

/-! ## The flows of a listener -/

def invalidSocket : Int := -1

/-- `Listener::udp_accept` after its `recvfrom`: the table, the server settings and their `mSumReport`. -/
def udpAccept (table : IperfTable) (server : Agent) (listenSocket : Int) (sockname : SockAddr) (report : Nat) :
    IperfTable × Agent × Option Nat :=
  let server := { server with mSock := invalidSocket }
  let pushed := iperfPushHostPortConditional table server report
  if pushed.2.2 > 0 then
    (pushed.1, { server with
      mSock := listenSocket
      localAddr := sockname }, pushed.2.1)
  else (pushed.1, server, pushed.2.1)

/-- A flow: the key it was pushed with, the settings of its server thread, and whether it is not removed yet. -/
structure UdpFlow where
  key : SockAddr
  server : Agent
  live : Bool

structure UdpHistory where
  table : IperfTable
  flows : List UdpFlow

def UdpHistory.init : UdpHistory := ⟨iperfInitializeActiveTable, []⟩

/-- The first datagram of a flow, or a later one that still reaches the listener's socket. -/
def UdpHistory.datagram (s : UdpHistory) (server : Agent) (listenSocket : Int) (sockname : SockAddr)
    (report : Nat) : UdpHistory :=
  let accepted := udpAccept s.table server listenSocket sockname report
  match accepted.2.2 with
  | none => ⟨accepted.1, s.flows⟩
  | some _ => ⟨accepted.1, s.flows ++ [⟨activeTableGetHostKey server, accepted.2.1, true⟩]⟩

/-- The server thread of flow `i` ends. -/
def UdpHistory.remove (s : UdpHistory) (i : Nat) : UdpHistory :=
  match s.flows[i]? with
  | none => s
  | some f => ⟨iperfRemoveHost s.table f.server, s.flows.set i { f with live := false }⟩

inductive UdpLabel
  | datagram (server : Agent) (listenSocket : Int) (sockname : SockAddr) (report : Nat)
  | remove (i : Nat)

def UdpHistory.step (s : UdpHistory) : UdpLabel → Option UdpHistory
  | .datagram server listenSocket sockname report => some (s.datagram server listenSocket sockname report)
  | .remove i => if s.flows[i]?.any (·.live) then some (s.remove i) else none

/-- A flow with this peer host and port was pushed and is not removed. -/
def UdpHistory.Live (s : UdpHistory) (peer : SockAddr) : Prop :=
  ∃ f ∈ s.flows, f.live ∧ f.server.peer = peer

/-- A flow with this key was pushed and is not removed. -/
def UdpHistory.LiveKey (s : UdpHistory) (key : SockAddr) : Prop := ∃ f ∈ s.flows, f.live ∧ f.key = key

/-- A flow with a key of this host was pushed and is not removed. -/
def UdpHistory.LiveHost (s : UdpHistory) (host : Host) : Prop := ∃ f ∈ s.flows, f.live ∧ f.key.host = host

instance (s : UdpHistory) (peer : SockAddr) : Decidable (s.Live peer) := by
  unfold UdpHistory.Live
  infer_instance

instance (s : UdpHistory) (key : SockAddr) : Decidable (s.LiveKey key) := by
  unfold UdpHistory.LiveKey
  infer_instance

instance (s : UdpHistory) (host : Host) : Decidable (s.LiveHost host) := by
  unfold UdpHistory.LiveHost
  infer_instance

/-- The conditional push for this agent returns a negative value exactly when a flow of its peer is live. -/
def UdpHistory.JudgedRight (s : UdpHistory) (agent : Agent) : Prop :=
  ∀ report, (iperfPushHostPortConditional s.table agent report).2.2 < 0 ↔ s.Live agent.peer

/-- The datagram belongs to a live flow by its key and by its peer, or to none by the host of its key and by its
peer, and then `getsockname` keeps the host of the key. -/
def OneFlowPerHost (s : UdpHistory) : UdpLabel → Prop
  | .datagram server _ sockname _ =>
    let key := activeTableGetHostKey server
    s.LiveKey key ∧ s.Live server.peer ∨
      ¬ s.LiveHost key.host ∧ ¬ s.Live server.peer ∧
        (activeTableGetHostKey { server with localAddr := sockname }).host = key.host
  | .remove _ => True

instance (s : UdpHistory) (a : UdpLabel) : Decidable (OneFlowPerHost s a) := by
  unfold OneFlowPerHost
  split <;> infer_instance

/-! ## The conditional push -/

theorem activeTableGetHostKey_mSock (agent : Agent) (sock : Int) :
    activeTableGetHostKey { agent with mSock := sock } = activeTableGetHostKey agent := rfl

/-- A conditional push that does not find the host and port. -/
theorem iperfPushHostPortConditional_absent {table : IperfTable} {agent : Agent}
    (h : ¬ iperfHostPortPresent table.root (activeTableGetHostKey agent)) (report : Nat) :
    iperfPushHostPortConditional table agent report =
      let updated := activeTableUpdate table (activeTableGetHostKey agent) agent report
      (updated.1, some updated.2, updated.1.groupid) := by
  unfold iperfPushHostPortConditional
  exact if_neg h

theorem iperfPushHostPortConditional_present {table : IperfTable} {agent : Agent}
    (h : iperfHostPortPresent table.root (activeTableGetHostKey agent)) (report : Nat) :
    iperfPushHostPortConditional table agent report = (table, none, -1) := by
  unfold iperfPushHostPortConditional
  exact if_pos h

theorem iperfPushHostPortConditional_neg {table : IperfTable} (hw : WellFormed table) (agent : Agent)
    (report : Nat) : (iperfPushHostPortConditional table agent report).2.2 < 0 ↔
      iperfHostPortPresent table.root (activeTableGetHostKey agent) := by
  by_cases h : iperfHostPortPresent table.root (activeTableGetHostKey agent)
  · simp [iperfPushHostPortConditional_present h, h]
  · have hpos := hw.groupid_pos (activeTableGetHostKey agent) agent report
    simp only [iperfPushHostPortConditional_absent h, h]
    simp only [Bool.false_eq_true, iff_false]
    omega

theorem udpAccept_present {table : IperfTable} {server : Agent}
    (h : iperfHostPortPresent table.root (activeTableGetHostKey server)) (listenSocket : Int)
    (sockname : SockAddr) (report : Nat) :
    udpAccept table server listenSocket sockname report =
      (table, { server with mSock := invalidSocket }, none) := by
  have hkey : iperfHostPortPresent table.root
      (activeTableGetHostKey { server with mSock := invalidSocket }) := h
  simp only [udpAccept, iperfPushHostPortConditional_present hkey]
  rfl

theorem udpAccept_absent {table : IperfTable} (hw : WellFormed table) {server : Agent}
    (h : ¬ iperfHostPortPresent table.root (activeTableGetHostKey server)) (listenSocket : Int)
    (sockname : SockAddr) (report : Nat) :
    udpAccept table server listenSocket sockname report =
      let updated :=
        activeTableUpdate table (activeTableGetHostKey server) { server with mSock := invalidSocket } report
      (updated.1, { server with
        mSock := listenSocket
        localAddr := sockname }, some updated.2) := by
  have hkey : ¬ iperfHostPortPresent table.root
      (activeTableGetHostKey { server with mSock := invalidSocket }) := h
  have hpos := hw.groupid_pos (activeTableGetHostKey server) { server with mSock := invalidSocket } report
  simp only [udpAccept, iperfPushHostPortConditional_absent hkey, activeTableGetHostKey_mSock, gt_iff_lt,
    if_pos hpos]

/-- A datagram that is dropped changes nothing. -/
theorem UdpHistory.datagram_present {s : UdpHistory} {server : Agent}
    (h : iperfHostPortPresent s.table.root (activeTableGetHostKey server)) (listenSocket : Int)
    (sockname : SockAddr) (report : Nat) : s.datagram server listenSocket sockname report = s := by
  simp only [UdpHistory.datagram, udpAccept_present h]

/-- A datagram that starts a flow. -/
theorem UdpHistory.datagram_absent {s : UdpHistory} (hw : WellFormed s.table) {server : Agent}
    (h : ¬ iperfHostPortPresent s.table.root (activeTableGetHostKey server)) (listenSocket : Int)
    (sockname : SockAddr) (report : Nat) :
    s.datagram server listenSocket sockname report =
      ⟨(activeTableUpdate s.table (activeTableGetHostKey server) { server with mSock := invalidSocket } report).1,
        s.flows ++ [⟨activeTableGetHostKey server,
          { server with
            mSock := listenSocket
            localAddr := sockname }, true⟩]⟩ := by
  simp only [UdpHistory.datagram, udpAccept_absent hw h]

/-! ## The invariant -/

/-- The host that a flow holds while it is not removed. -/
def UdpFlow.holds (f : UdpFlow) : Option Host := if f.live then some f.key.host else none

/-- The table has the hosts of the live flows, each with the address and port of every live flow of the host. -/
structure Names (s : UdpHistory) : Prop where
  wellFormed : WellFormed s.table
  held : Registry.Held UdpFlow.holds UdpFlow.key (registry addresses s.table.root) s.flows
  kept : ∀ f ∈ s.flows, f.live → (activeTableGetHostKey f.server).host = f.key.host

theorem Names.init : Names .init where
  wellFormed := .init
  held := .nil
  kept := fun _ h => nomatch h

section
variable {s : UdpHistory}

theorem UdpFlow.holds_iff (f : UdpFlow) (host : Host) :
    f.holds = some host ↔ f.live ∧ f.key.host = host := by
  unfold UdpFlow.holds
  cases f.live <;> simp

theorem Names.registry_none (h : Names s) {host : Host} (hnone : ¬ s.LiveHost host) :
    registry addresses s.table.root host = none := by
  refine h.held.eq_none ?_
  simp only [UdpFlow.holds_iff]
  exact hnone

theorem Names.registry_live (h : Names s) {f : UdpFlow} (hf : f ∈ s.flows) (hlive : f.live) :
    ∃ n, registry addresses s.table.root f.key.host = some (f.key, n) :=
  h.held.value f hf _ ((f.holds_iff _).mpr ⟨hlive, rfl⟩)

/-- A host and port are found exactly when they are the key of a live flow. -/
theorem Names.present_iff (h : Names s) (key : SockAddr) :
    iperfHostPortPresent s.table.root key ↔ s.LiveKey key := by
  rw [iperfHostPortPresent_iff h.wellFormed]
  constructor
  · rintro ⟨n, hn⟩
    obtain ⟨f, hf, hholds, hkey⟩ := h.held.exists_holder hn
    exact ⟨f, hf, ((f.holds_iff _).mp hholds).1, hkey⟩
  · rintro ⟨f, hf, hlive, rfl⟩
    exact h.registry_live hf hlive

theorem judgedRight_iff (hw : WellFormed s.table) (agent : Agent) :
    s.JudgedRight agent ↔
      (iperfHostPortPresent s.table.root (activeTableGetHostKey agent) ↔ s.Live agent.peer) := by
  unfold UdpHistory.JudgedRight
  simp only [iperfPushHostPortConditional_neg hw, forall_const]

theorem not_liveKey_of_host {key : SockAddr} (hhost : ¬ s.LiveHost key.host) : ¬ s.LiveKey key := by
  rintro ⟨f, hf, hlive, hkey⟩
  exact hhost ⟨f, hf, hlive, congrArg SockAddr.host hkey⟩

theorem Names.absent_of_host (h : Names s) {key : SockAddr} (hhost : ¬ s.LiveHost key.host) :
    ¬ iperfHostPortPresent s.table.root key := by
  rw [h.present_iff]
  exact not_liveKey_of_host hhost

/-- A flow of a host without live flows starts. -/
theorem Names.start (h : Names s) {server : Agent} {sockname : SockAddr} (listenSocket : Int) (report : Nat)
    (hhost : ¬ s.LiveHost (activeTableGetHostKey server).host)
    (hkept : (activeTableGetHostKey { server with localAddr := sockname }).host =
      (activeTableGetHostKey server).host) :
    Names (s.datagram server listenSocket sockname report) := by
  rw [UdpHistory.datagram_absent h.wellFormed (h.absent_of_host hhost)]
  have hreg := registry_activeTableUpdate addresses s.table (activeTableGetHostKey server)
    { server with mSock := invalidSocket } report
  refine ⟨h.wellFormed.activeTableUpdate _ _ _, ?_, ?_⟩
  · rw [hreg]
    refine h.held.acquire rfl ?_
    rw [Registry.shared, h.registry_none hhost]
    rfl
  · intro f hf hlive
    rcases List.mem_append.mp hf with hf | hf
    · exact h.kept f hf hlive
    · cases List.mem_singleton.mp hf
      exact hkept

theorem Names.remove (h : Names s) {i : Nat} {f : UdpFlow} (hf : s.flows[i]? = some f) (hlive : f.live) :
    Names (s.remove i) := by
  have hreg := registry_iperfRemoveHost addresses h.wellFormed f.server
  rw [h.kept f (List.mem_of_getElem? hf) hlive] at hreg
  unfold UdpHistory.remove
  simp only [hf]
  refine ⟨h.wellFormed.iperfRemoveHost _, ?_, fun g hg hglive => ?_⟩
  · rw [hreg]
    exact h.held.release hf ((f.holds_iff _).mpr ⟨hlive, rfl⟩) rfl
  · rcases List.mem_or_eq_of_mem_set hg with hg | rfl
    · exact h.kept g hg hglive
    · cases hglive

theorem Names.step {s' : UdpHistory} (h : Names s) (a : UdpLabel) (guard : OneFlowPerHost s a)
    (hs : s.step a = some s') : Names s' := by
  cases a with
  | datagram server listenSocket sockname report =>
    cases hs
    rcases guard with ⟨hkey, -⟩ | ⟨hhost, -, hkept⟩
    · rw [UdpHistory.datagram_present ((h.present_iff _).mpr hkey)]
      exact h
    · exact h.start listenSocket report hhost hkept
  | remove i =>
    cases hf : s.flows[i]? with
    | none => simp [UdpHistory.step, hf] at hs
    | some f =>
      simp only [UdpHistory.step, hf, Option.any_some] at hs
      split at hs
      · rename_i hlive
        cases hs
        exact h.remove hf hlive
      · cases hs

theorem Names.of_reachable (h : Reachable UdpHistory.step OneFlowPerHost .init s) : Names s :=
  h.invariant .init fun _ a _ hI guard hs => hI.step a guard hs

/-! ## Which flows are judged right -/

/-- The flow that starts with this datagram is judged right at the datagram, and, if it does start, while it is
live and right after its removal. -/
def UdpHistory.FlowJudgedRight (s : UdpHistory) (server : Agent) (listenSocket : Int) (sockname : SockAddr)
    (report : Nat) : Prop :=
  s.JudgedRight server ∧ (¬ s.Live server.peer →
    (s.datagram server listenSocket sockname report).JudgedRight server ∧
      ((s.datagram server listenSocket sockname report).remove s.flows.length).JudgedRight server)

variable {server : Agent} (listenSocket : Int) (sockname : SockAddr) (report : Nat)

/-- A flow is live once it started. -/
theorem live_datagram (hw : WellFormed s.table)
    (habsent : ¬ iperfHostPortPresent s.table.root (activeTableGetHostKey server)) :
    (s.datagram server listenSocket sockname report).Live server.peer := by
  rw [UdpHistory.datagram_absent hw habsent]
  exact ⟨_, List.mem_append_right _ (List.mem_singleton_self _), rfl, rfl⟩

/-- Once the flow that started last is removed, its peer is as live as before. -/
theorem live_remove_datagram (hw : WellFormed s.table)
    (habsent : ¬ iperfHostPortPresent s.table.root (activeTableGetHostKey server)) (peer : SockAddr) :
    ((s.datagram server listenSocket sockname report).remove s.flows.length).Live peer ↔ s.Live peer := by
  rw [UdpHistory.datagram_absent hw habsent]
  unfold UdpHistory.remove UdpHistory.Live
  simp

theorem registry_datagram (hw : WellFormed s.table)
    (habsent : ¬ iperfHostPortPresent s.table.root (activeTableGetHostKey server)) :
    registry addresses (s.datagram server listenSocket sockname report).table.root =
      Registry.acquire (registry addresses s.table.root) (activeTableGetHostKey server).host
        (activeTableGetHostKey server) := by
  rw [UdpHistory.datagram_absent hw habsent]
  exact registry_activeTableUpdate addresses _ _ _ _

theorem wellFormed_datagram (hw : WellFormed s.table)
    (habsent : ¬ iperfHostPortPresent s.table.root (activeTableGetHostKey server)) :
    WellFormed (s.datagram server listenSocket sockname report).table := by
  rw [UdpHistory.datagram_absent hw habsent]
  exact hw.activeTableUpdate _ _ _

/-- Removing the flow that started last releases the host of the key it has now. -/
theorem remove_datagram_table (hw : WellFormed s.table)
    (habsent : ¬ iperfHostPortPresent s.table.root (activeTableGetHostKey server)) :
    ((s.datagram server listenSocket sockname report).remove s.flows.length).table =
      iperfRemoveHost (s.datagram server listenSocket sockname report).table
        { server with
          mSock := listenSocket
          localAddr := sockname } := by
  rw [UdpHistory.datagram_absent hw habsent]
  unfold UdpHistory.remove
  simp

/-- A flow of a host without live flows, whose key keeps its host, is judged right all along. -/
theorem Names.flow_right (h : Names s) (hhost : ¬ s.LiveHost (activeTableGetHostKey server).host)
    (hkept : (activeTableGetHostKey { server with localAddr := sockname }).host =
      (activeTableGetHostKey server).host) :
    (s.datagram server listenSocket sockname report).JudgedRight server ∧
      (¬ s.Live server.peer →
        ((s.datagram server listenSocket sockname report).remove s.flows.length).JudgedRight server) := by
  have habsent := h.absent_of_host hhost
  have hw := wellFormed_datagram listenSocket sockname report h.wellFormed habsent
  have hthere : registry addresses (s.datagram server listenSocket sockname report).table.root
      (activeTableGetHostKey server).host = some (activeTableGetHostKey server, 1) := by
    rw [registry_datagram listenSocket sockname report h.wellFormed habsent,
      Registry.acquire_of_none (h.registry_none hhost), Function.update_self]
  constructor
  · rw [judgedRight_iff hw, iperfHostPortPresent_iff hw]
    exact ⟨fun _ => live_datagram listenSocket sockname report h.wellFormed habsent, fun _ => ⟨1, hthere⟩⟩
  · intro hdead
    have htable := remove_datagram_table listenSocket sockname report h.wellFormed habsent
    have hw' := hw.iperfRemoveHost { server with
      mSock := listenSocket
      localAddr := sockname }
    rw [← htable] at hw'
    have hgone : registry addresses
        ((s.datagram server listenSocket sockname report).remove s.flows.length).table.root
        (activeTableGetHostKey server).host = none := by
      rw [htable, registry_iperfRemoveHost addresses hw]
      have hkey : (activeTableGetHostKey { server with
          mSock := listenSocket
          localAddr := sockname }).host = (activeTableGetHostKey server).host := hkept
      rw [hkey, Registry.release_of_one hthere, Function.update_self]
    rw [judgedRight_iff hw', iperfHostPortPresent_iff hw', hgone,
      live_remove_datagram listenSocket sockname report h.wellFormed habsent]
    exact ⟨fun ⟨_, hn⟩ => (nomatch hn), fun hlive => absurd hlive hdead⟩

/-- A flow from another port of a live host is not found while it is live. -/
theorem Names.misjudged_live (h : Names s) (hhost : s.LiveHost (activeTableGetHostKey server).host)
    (hkey : ¬ s.LiveKey (activeTableGetHostKey server)) :
    ¬ (s.datagram server listenSocket sockname report).JudgedRight server := by
  have habsent : ¬ iperfHostPortPresent s.table.root (activeTableGetHostKey server) := by rwa [h.present_iff]
  have hw := wellFormed_datagram listenSocket sockname report h.wellFormed habsent
  obtain ⟨f, hf, hlive, hfhost⟩ := hhost
  obtain ⟨n, hn⟩ := h.registry_live hf hlive
  rw [judgedRight_iff hw, iperfHostPortPresent_iff hw,
    registry_datagram listenSocket sockname report h.wellFormed habsent, ← hfhost, Registry.acquire_of_some hn,
    Function.update_self]
  intro hright
  obtain ⟨m, hm⟩ := hright.mpr (live_datagram listenSocket sockname report h.wellFormed habsent)
  rw [Option.some.injEq, Prod.mk.injEq] at hm
  exact hkey ⟨f, hf, hlive, hm.1⟩

/-- A flow whose key changes its host is still found after its removal. -/
theorem Names.misjudged_removed (h : Names s) (hhost : ¬ s.LiveHost (activeTableGetHostKey server).host)
    (hdead : ¬ s.Live server.peer)
    (hmoved : (activeTableGetHostKey { server with localAddr := sockname }).host ≠
      (activeTableGetHostKey server).host) :
    ¬ ((s.datagram server listenSocket sockname report).remove s.flows.length).JudgedRight server := by
  have habsent := h.absent_of_host hhost
  have hw := wellFormed_datagram listenSocket sockname report h.wellFormed habsent
  have htable := remove_datagram_table listenSocket sockname report h.wellFormed habsent
  have hw' := hw.iperfRemoveHost { server with
    mSock := listenSocket
    localAddr := sockname }
  rw [← htable] at hw'
  have hkey : (activeTableGetHostKey server).host ≠ (activeTableGetHostKey { server with
      mSock := listenSocket
      localAddr := sockname }).host := fun heq => hmoved heq.symm
  have hthere : registry addresses
      ((s.datagram server listenSocket sockname report).remove s.flows.length).table.root
      (activeTableGetHostKey server).host = some (activeTableGetHostKey server, 1) := by
    rw [htable, registry_iperfRemoveHost addresses hw, Registry.release_ne hkey,
      registry_datagram listenSocket sockname report h.wellFormed habsent,
      Registry.acquire_of_none (h.registry_none hhost), Function.update_self]
  rw [judgedRight_iff hw', iperfHostPortPresent_iff hw',
    live_remove_datagram listenSocket sockname report h.wellFormed habsent]
  intro hright
  exact hdead (hright.mp ⟨1, hthere⟩)

/-- **UDP flow uniqueness, while a host has one flow.** In every run whose datagrams meet `OneFlowPerHost`, the
flow of a datagram is judged right, as new, as live and as removed, exactly when the datagram meets it too. -/
theorem udp_flow_unique (h : Reachable UdpHistory.step OneFlowPerHost .init s) (server : Agent)
    (listenSocket : Int) (sockname : SockAddr) (report : Nat) :
    OneFlowPerHost s (.datagram server listenSocket sockname report) ↔
      s.FlowJudgedRight server listenSocket sockname report := by
  have hI := Names.of_reachable h
  unfold UdpHistory.FlowJudgedRight
  rw [judgedRight_iff hI.wellFormed, hI.present_iff]
  constructor
  · rintro (⟨hkey, hlive⟩ | ⟨hhost, hdead, hkept⟩)
    · exact ⟨⟨fun _ => hlive, fun _ => hkey⟩, fun hdead => absurd hlive hdead⟩
    · obtain ⟨hlive, hremoved⟩ := hI.flow_right listenSocket sockname report hhost hkept
      have hnokey := not_liveKey_of_host hhost
      refine ⟨⟨fun hkey => absurd hkey hnokey, fun hl => absurd hl hdead⟩,
        fun _ => ⟨hlive, hremoved hdead⟩⟩
  · rintro ⟨hnow, hlater⟩
    by_cases hlive : s.Live server.peer
    · exact Or.inl ⟨hnow.mpr hlive, hlive⟩
    · have hnokey : ¬ s.LiveKey (activeTableGetHostKey server) := fun hkey => hlive (hnow.mp hkey)
      obtain ⟨hwhile, hafter⟩ := hlater hlive
      have hhost : ¬ s.LiveHost (activeTableGetHostKey server).host := fun hhost =>
        hI.misjudged_live listenSocket sockname report hhost hnokey hwhile
      refine Or.inr ⟨hhost, hlive, ?_⟩
      by_contra hmoved
      exact hI.misjudged_removed listenSocket sockname report hhost hlive hmoved hafter

end

/-! Flows of one listener: host 7 with ports 1000 and 1001, and host 8. -/

/-- The settings of a server for a datagram from this peer, the listener bound to any address at port 5001. -/
def serverOf (sumServerDstIP : Bool) (peer : SockAddr) : Agent := ⟨peer, .inet 0 5001, sumServerDstIP, -1⟩

/-- A datagram from this peer, received at address 9. -/
def datagramOf (sumServerDstIP : Bool) (peer : SockAddr) : UdpLabel :=
  .datagram (serverOf sumServerDstIP peer) 4 (.inet 9 5001) 0

theorem udp_flow_unique_run :
    ∃ s, run UdpHistory.step OneFlowPerHost .init
        [datagramOf false (.inet 7 1000), datagramOf false (.inet 8 1000), datagramOf false (.inet 7 1000),
          .remove 0] = some s ∧
      s.FlowJudgedRight (serverOf false (.inet 7 1001)) 4 (.inet 9 5001) 0 := by
  refine ⟨_, rfl, (udp_flow_unique (.of_run _ _ .start (rfl : run UdpHistory.step OneFlowPerHost .init
    [datagramOf false (.inet 7 1000), datagramOf false (.inet 8 1000), datagramOf false (.inet 7 1000),
      .remove 0] = some _)) _ _ _ _).mp ?_⟩
  decide

/-- The second flow of a host is not found while it is live, the first one is found after its removal, and with
the local address as the key the first flow of another host is found. -/
theorem udp_flow_not_unique :
    (∃ s, run UdpHistory.step Any .init
        [datagramOf false (.inet 7 1000), datagramOf false (.inet 7 1001)] = some s ∧
      s.Live (.inet 7 1001) ∧
        ¬ (iperfPushHostPortConditional s.table (serverOf false (.inet 7 1001)) 1).2.2 < 0) ∧
    (∃ s, run UdpHistory.step Any .init
        [datagramOf false (.inet 7 1000), datagramOf false (.inet 7 1001), .remove 0] = some s ∧
      ¬ s.Live (.inet 7 1000) ∧
        (iperfPushHostPortConditional s.table (serverOf false (.inet 7 1000)) 1).2.2 < 0) ∧
    ∃ s, run UdpHistory.step Any .init [datagramOf true (.inet 7 1000)] = some s ∧
      ¬ s.Live (.inet 8 1000) ∧
        (iperfPushHostPortConditional s.table (serverOf true (.inet 8 1000)) 1).2.2 < 0 := by
  refine ⟨⟨_, rfl, ?_, ?_⟩, ⟨_, rfl, ?_, ?_⟩, ⟨_, rfl, ?_, ?_⟩⟩ <;> decide

end Iperf2.Hosts
