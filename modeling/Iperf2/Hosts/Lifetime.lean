import Iperf2.Hosts.Table
import Iperf2.Lib.Transition

/-!
# The life of group sum reports

A sum report is made by the first push of a host and shared by the later ones. A flow is pushed (listener or client
thread), counted by `InitIndividualReport` (its traffic thread), delivers its final packet (the reporter, which
decrements the count and frees the report at zero) and removes its host from the table (its traffic thread).

`Alive` says that nothing the table or an unfinished flow points to was freed. The count has only the running flows,
while the table keeps its entry until the last removal, which comes after the final packet: the report is freed
exactly when the last counted flow is final, and its entry is still there.

* `Groups` : the invariant of every run; the table shares one sum report among the flows of a host until they are
  removed, and a reference count is the number of running flows of the report;
* `sumReport_alive` : a run keeps the reports alive as long as no final packet is the last one of its group, and no
  longer.
-/

namespace Iperf2.Hosts
open Transition

/-! ## Reference counts -/

/-- The `reference` of a `SumReport`, and whether the report was freed. -/
structure Reference where
  count : Int
  maxcount : Int
  freed : Bool
  deriving DecidableEq

/-- The sum reports allocated so far, at the addresses below `next`. -/
structure Heap where
  sumReport : Nat → Reference
  next : Nat

def Heap.empty : Heap := ⟨fun _ => ⟨0, 0, false⟩, 0⟩

/-- `InitSumReport`, which returns the address `next`. -/
def initSumReport (heap : Heap) : Heap :=
  ⟨Function.update heap.sumReport heap.next ⟨0, 0, false⟩, heap.next + 1⟩

/-- `IncrSumReportRefCounter` -/
def incrSumReportRefCounter (heap : Heap) (r : Nat) : Heap :=
  let reference := heap.sumReport r
  let count := reference.count + 1
  { heap with sumReport := Function.update heap.sumReport r { reference with
      count := count
      maxcount := if count > reference.maxcount then count else reference.maxcount } }

/-- `DecrSumReportRefCounter`, with the count returned. -/
def decrSumReportRefCounter (heap : Heap) (r : Nat) : Heap × Int :=
  let reference := heap.sumReport r
  let refcnt := reference.count - 1
  ({ heap with sumReport := Function.update heap.sumReport r { reference with count := refcnt } }, refcnt)

/-- `FreeSumReport` -/
def freeSumReport (heap : Heap) (r : Nat) : Heap :=
  { heap with sumReport := Function.update heap.sumReport r { heap.sumReport r with freed := true } }

/-! ## Flows -/

inductive Phase
  | pushed
  | running
  | final
  | ended
  deriving DecidableEq

/-- A flow: its settings, the `mSumReport` it got, and how far it is. -/
structure Flow where
  agent : Agent
  sumReport : Nat
  phase : Phase
  deriving DecidableEq

structure Flows where
  table : IperfTable
  heap : Heap
  flows : List Flow

def Flows.init : Flows := ⟨iperfInitializeActiveTable, .empty, []⟩

inductive FlowLabel
  | push (agent : Agent)
  | initIndividualReport (i : Nat)
  | final (i : Nat)
  | removeHost (i : Nat)

/-- The heap after `active_table_update`: an entry that is made gets a new sum report. -/
def heapUpdate (table : IperfTable) (heap : Heap) (host : SockAddr) : Heap :=
  if (iperfHostPresent table.root host).isSome then heap else initSumReport heap

/-- `Iperf_push_host` by a thread with these settings. -/
def Flows.push (s : Flows) (agent : Agent) : Flows :=
  let pushed := iperfPushHost s.table agent s.heap.next
  { table := pushed.1
    heap := heapUpdate s.table s.heap (activeTableGetHostKey agent)
    flows := s.flows ++ [⟨agent, pushed.2.1, .pushed⟩] }

/-- `InitIndividualReport` by the traffic thread. -/
def Flows.initIndividualReport (s : Flows) (i : Nat) (f : Flow) : Flows :=
  { s with
    heap := incrSumReportRefCounter s.heap f.sumReport
    flows := s.flows.set i { f with phase := .running } }

/-- The reporter's processing of the final packet. -/
def Flows.final (s : Flows) (i : Nat) (f : Flow) : Flows :=
  let decr := decrSumReportRefCounter s.heap f.sumReport
  { s with
    heap := if decr.2 = 0 then freeSumReport decr.1 f.sumReport else decr.1
    flows := s.flows.set i { f with phase := .final } }

/-- `Iperf_remove_host` by the traffic thread. -/
def Flows.removeHost (s : Flows) (i : Nat) (f : Flow) : Flows :=
  { s with
    table := iperfRemoveHost s.table f.agent
    flows := s.flows.set i { f with phase := .ended } }

/-- The flow `i`, if it is in the phase. -/
def Flows.inPhase (s : Flows) (i : Nat) (phase : Phase) : Option Flow := s.flows[i]?.filter (·.phase = phase)

def Flows.step (s : Flows) : FlowLabel → Option Flows
  | .push agent => some (s.push agent)
  | .initIndividualReport i => (s.inPhase i .pushed).map (s.initIndividualReport i)
  | .final i => (s.inPhase i .running).map (s.final i)
  | .removeHost i => (s.inPhase i .final).map (s.removeHost i)

theorem Flows.inPhase_iff {s : Flows} {i : Nat} {phase : Phase} {f : Flow} :
    s.inPhase i phase = some f ↔ s.flows[i]? = some f ∧ f.phase = phase := by
  simp [Flows.inPhase, Option.filter_eq_some_iff]

/-- No sum report that a table entry or an unfinished flow points to was freed. -/
def Flows.Alive (s : Flows) : Prop :=
  (∀ itr ∈ s.table.root, (s.heap.sumReport itr.sumReport).freed = false) ∧
    ∀ f ∈ s.flows, f.phase = .pushed ∨ f.phase = .running → (s.heap.sumReport f.sumReport).freed = false

instance (s : Flows) : Decidable s.Alive := by
  unfold Flows.Alive
  infer_instance

/-- The final packet of flow `i` leaves another flow of its group running. -/
def NotLast (s : Flows) : FlowLabel → Prop
  | .final i => ∀ f ∈ s.inPhase i .running,
      ∃ g ∈ s.flows.set i { f with phase := .final }, g.phase = .running ∧ g.sumReport = f.sumReport
  | _ => True

instance (s : Flows) (a : FlowLabel) : Decidable (NotLast s a) := by
  unfold NotLast
  split <;> infer_instance

/-! ## The invariant of every run -/

/-- The host that a flow holds until it is removed. -/
def Flow.holds (f : Flow) : Option Host :=
  if f.phase = .ended then none else some (activeTableGetHostKey f.agent).host

/-- The sum report that a running flow is counted by. -/
def Flow.refers (f : Flow) : Option Nat := if f.phase = .running then some f.sumReport else none

theorem Flow.refers_iff (f : Flow) (r : Nat) :
    f.refers = some r ↔ f.phase = .running ∧ f.sumReport = r := by
  unfold Flow.refers
  split <;> simp_all

/-- The table has one sum report for the flows of a host that are not removed. -/
structure Shares (table : IperfTable) (flows : List Flow) : Prop where
  wellFormed : WellFormed table
  held : Registry.Held Flow.holds Flow.sumReport (registry sumReports table.root) flows

theorem Shares.init : Shares iperfInitializeActiveTable [] := ⟨.init, .nil⟩

/-- A push, with any settings that keep the host of the key. -/
theorem Shares.push {table : IperfTable} {flows : List Flow} (h : Shares table flows) (agent agent' : Agent)
    (report : Nat) (host : SockAddr) (hkey : (activeTableGetHostKey agent').host = host.host) :
    let updated := activeTableUpdate table host agent report
    Shares updated.1 (flows ++ [⟨agent', updated.2, .pushed⟩]) := by
  refine ⟨h.wellFormed.activeTableUpdate _ _ _, ?_⟩
  rw [registry_activeTableUpdate]
  refine h.held.acquire ?_ (activeTableUpdate_sumReport table host agent report)
  exact congrArg some hkey

/-- A flow goes on, without being removed. -/
theorem Shares.phase {table : IperfTable} {flows : List Flow} (h : Shares table flows) {i : Nat} {f : Flow}
    (hf : flows[i]? = some f) (hphase : f.phase ≠ .ended) {phase : Phase} (hphase' : phase ≠ .ended) :
    Shares table (flows.set i { f with phase }) := by
  refine ⟨h.wellFormed, h.held.set_same hf ?_ rfl⟩
  simp [Flow.holds, hphase, hphase']

/-- A flow is removed. -/
theorem Shares.remove {table : IperfTable} {flows : List Flow} (h : Shares table flows) {i : Nat} {f : Flow}
    (hf : flows[i]? = some f) (hphase : f.phase ≠ .ended) :
    Shares (iperfRemoveHost table f.agent) (flows.set i { f with phase := .ended }) := by
  refine ⟨h.wellFormed.iperfRemoveHost _, ?_⟩
  rw [registry_iperfRemoveHost sumReports h.wellFormed]
  exact h.held.release hf (if_neg hphase) rfl

/-- One sum report for the flows of a host, counted by the running ones. -/
structure Groups (s : Flows) : Prop extends Shares s.table s.flows where
  allocated : ∀ f ∈ s.flows, f.sumReport < s.heap.next
  refs : ∀ r, (s.heap.sumReport r).count = Registry.holders Flow.refers s.flows r

theorem Groups.init : Groups .init where
  toShares := .init
  allocated := fun _ h => nomatch h
  refs := fun _ => rfl

section
variable {s : Flows}

/-- The table points to reports of flows. -/
theorem Groups.entry (h : Groups s) {itr : IperfListEntry} (hitr : itr ∈ s.table.root) :
    ∃ f ∈ s.flows, f.phase ≠ .ended ∧ f.sumReport = itr.sumReport := by
  obtain ⟨f, hf, hholds, hval⟩ := h.held.exists_holder (registry_of_mem sumReports h.wellFormed.distinct hitr)
  refine ⟨f, hf, fun hended => ?_, hval⟩
  rw [Flow.holds, if_pos hended] at hholds
  cases hholds

/-- A flow that is not removed has its entry, with its report. -/
theorem Groups.has_entry (h : Groups s) {f : Flow} (hf : f ∈ s.flows) (hphase : f.phase ≠ .ended) :
    ∃ itr ∈ s.table.root, itr.sumReport = f.sumReport := by
  obtain ⟨n, hn⟩ := h.held.value f hf _ (if_neg hphase)
  obtain ⟨itr, hitr, -, hread, -⟩ := registry_mem sumReports hn
  exact ⟨itr, hitr, hread⟩

/-- A flow that goes on keeps its report. -/
theorem Groups.allocated_phase (h : Groups s) {i : Nat} {f : Flow} (hf : s.flows[i]? = some f) (phase : Phase) :
    ∀ g ∈ s.flows.set i { f with phase }, g.sumReport < s.heap.next := by
  intro g hg
  rcases List.mem_or_eq_of_mem_set hg with hg | rfl
  · exact h.allocated g hg
  · exact h.allocated f (List.mem_of_getElem? hf)

/-- A report at a new address is counted by no flow. -/
theorem Groups.count_next (h : Groups s) : (s.heap.sumReport s.heap.next).count = 0 := by
  have hnone : Registry.holders Flow.refers s.flows s.heap.next = 0 := by
    by_contra hne
    obtain ⟨f, hf, hrefers⟩ := (Registry.holders_pos _).mp (Nat.pos_of_ne_zero hne)
    have := h.allocated f hf
    rw [((f.refers_iff _).mp hrefers).2] at this
    exact Nat.lt_irrefl _ this
  rw [h.refs, hnone]
  rfl

/-- A push changes no count. -/
theorem Groups.count_heapUpdate (h : Groups s) (host : SockAddr) (r : Nat) :
    ((heapUpdate s.table s.heap host).sumReport r).count = (s.heap.sumReport r).count := by
  unfold heapUpdate
  split
  · rfl
  · by_cases hr : r = s.heap.next
    · subst hr
      simp [initSumReport, h.count_next]
    · simp [initSumReport, Function.update_of_ne hr]

/-- What a pushed flow gets is allocated afterwards. -/
theorem Groups.shared_lt (h : Groups s) (host : SockAddr) :
    s.heap.next ≤ (heapUpdate s.table s.heap host).next ∧
      Registry.shared (registry sumReports s.table.root) host.host s.heap.next <
        (heapUpdate s.table s.heap host).next := by
  unfold heapUpdate Registry.shared
  rw [registry_host]
  cases hp : iperfHostPresent s.table.root host with
  | none => simp [initSumReport]
  | some itr =>
    obtain ⟨f, hf, -, hval⟩ := h.entry (List.mem_of_find?_eq_some hp)
    have := h.allocated f hf
    rw [hval] at this
    exact ⟨Nat.le_refl _, this⟩

theorem Groups.push (h : Groups s) (agent : Agent) : Groups (s.push agent) := by
  have hshared := activeTableUpdate_sumReport s.table (activeTableGetHostKey agent) agent s.heap.next
  obtain ⟨hnext, hlt⟩ := h.shared_lt (activeTableGetHostKey agent)
  refine ⟨h.toShares.push agent agent s.heap.next _ rfl, ?_, ?_⟩
  · intro f hf
    rcases List.mem_append.mp hf with hf | hf
    · exact Nat.lt_of_lt_of_le (h.allocated f hf) hnext
    · cases List.mem_singleton.mp hf
      simp only [Flows.push, iperfPushHost, hshared]
      exact hlt
  · intro r
    simp only [Flows.push]
    rw [Registry.holders_append_none rfl, h.count_heapUpdate, h.refs]

theorem Groups.initIndividualReport (h : Groups s) {i : Nat} {f : Flow} (hf : s.flows[i]? = some f)
    (hphase : f.phase = .pushed) : Groups (s.initIndividualReport i f) := by
  refine ⟨h.toShares.phase hf (by simp [hphase]) (by decide), h.allocated_phase hf .running, fun r => ?_⟩
  have hnone : f.refers = none := by rw [Flow.refers, hphase]; rfl
  simp only [Flows.initIndividualReport, incrSumReportRefCounter]
  rw [Registry.holders_set_gain hf hnone (show Flow.refers _ = some f.sumReport from rfl)]
  by_cases hr : r = f.sumReport
  · subst hr
    simp [h.refs]
  · rw [Function.update_of_ne hr, Function.update_of_ne hr, h.refs]

/-- A final packet touches one report: it is counted once less, and freed at zero. -/
theorem final_heap (i : Nat) (f : Flow) :
    (s.final i f).heap =
      let reference := s.heap.sumReport f.sumReport
      { s.heap with sumReport := Function.update s.heap.sumReport f.sumReport { reference with
          count := reference.count - 1
          freed := reference.freed || (reference.count - 1 = 0) } } := by
  unfold Flows.final decrSumReportRefCounter freeSumReport
  by_cases hzero : (s.heap.sumReport f.sumReport).count - 1 = 0
  · simp [hzero]
  · simp [hzero]

theorem Groups.final (h : Groups s) {i : Nat} {f : Flow} (hf : s.flows[i]? = some f)
    (hphase : f.phase = .running) : Groups (s.final i f) := by
  refine ⟨h.toShares.phase hf (by simp [hphase]) (by decide), ?_, ?_⟩
  · rw [final_heap]
    exact h.allocated_phase hf .final
  · intro r
    have hrefers : f.refers = some f.sumReport := (f.refers_iff _).mpr ⟨hphase, rfl⟩
    have hpos := Registry.holders_pos_of_get hf hrefers
    rw [final_heap]
    simp only [Flows.final]
    rw [Registry.holders_set_drop hf hrefers rfl]
    by_cases hr : r = f.sumReport
    · subst hr
      rw [Function.update_self, Function.update_self, h.refs]
      simp only
      omega
    · rw [Function.update_of_ne hr, Function.update_of_ne hr, h.refs]

theorem Groups.removeHost (h : Groups s) {i : Nat} {f : Flow} (hf : s.flows[i]? = some f)
    (hphase : f.phase = .final) : Groups (s.removeHost i f) := by
  refine ⟨h.toShares.remove hf (by simp [hphase]), h.allocated_phase hf .ended, fun r => ?_⟩
  simp only [Flows.removeHost]
  rw [Registry.holders_set_same hf (by simp [Flow.refers, hphase])]
  exact h.refs r

theorem Groups.step {s' : Flows} (h : Groups s) (a : FlowLabel) (hs : s.step a = some s') : Groups s' := by
  cases a with
  | push agent =>
    cases hs
    exact h.push agent
  | initIndividualReport i =>
    obtain ⟨f, hf, rfl⟩ := Option.map_eq_some_iff.mp hs
    obtain ⟨hf, hphase⟩ := Flows.inPhase_iff.mp hf
    exact h.initIndividualReport hf hphase
  | final i =>
    obtain ⟨f, hf, rfl⟩ := Option.map_eq_some_iff.mp hs
    obtain ⟨hf, hphase⟩ := Flows.inPhase_iff.mp hf
    exact h.final hf hphase
  | removeHost i =>
    obtain ⟨f, hf, rfl⟩ := Option.map_eq_some_iff.mp hs
    obtain ⟨hf, hphase⟩ := Flows.inPhase_iff.mp hf
    exact h.removeHost hf hphase

/-! ## Frees -/

/-- The final packet of a flow frees its report exactly when no flow of the group is left running. -/
theorem Groups.freed_final (h : Groups s) {i : Nat} {f : Flow} (hf : s.inPhase i .running = some f)
    (hkept : ∀ r, (s.heap.sumReport r).freed = false) (r : Nat) :
    ((s.final i f).heap.sumReport r).freed = true ↔ r = f.sumReport ∧ ¬ NotLast s (.final i) := by
  obtain ⟨hget, hphase⟩ := Flows.inPhase_iff.mp hf
  have hcount := (h.final hget hphase).refs f.sumReport
  rw [final_heap] at hcount
  simp only [Function.update_self] at hcount
  have hpos : NotLast s (.final i) ↔ 0 < Registry.holders Flow.refers (s.final i f).flows f.sumReport := by
    rw [Registry.holders_pos]
    simp only [NotLast, hf, Option.mem_def, Option.some.injEq, forall_eq', Flow.refers_iff, Flows.final]
  have hlast : (s.heap.sumReport f.sumReport).count - 1 = 0 ↔ ¬ NotLast s (.final i) := by
    rw [hcount, hpos]
    omega
  rw [← hlast, final_heap]
  by_cases hr : r = f.sumReport
  · simp [hr, hkept]
  · simp [hr, hkept]

/-- A run whose final packets all leave another flow of the group running frees nothing. -/
theorem freed_of_reachable (h : Reachable Flows.step NotLast .init s) :
    Groups s ∧ ∀ r, (s.heap.sumReport r).freed = false := by
  refine Reachable.invariant (I := fun t => Groups t ∧ ∀ r, (t.heap.sumReport r).freed = false)
    ⟨.init, fun _ => rfl⟩ (fun t a t' ⟨hI, hkept⟩ guard hs => ⟨hI.step a hs, fun r => ?_⟩) h
  cases a with
  | push agent =>
    cases hs
    simp only [Flows.push, heapUpdate]
    split
    · exact hkept r
    · by_cases hr : r = t.heap.next
      · simp [initSumReport, hr]
      · simp [initSumReport, Function.update_of_ne hr, hkept]
  | initIndividualReport i =>
    obtain ⟨f, hf, rfl⟩ := Option.map_eq_some_iff.mp hs
    by_cases hr : r = f.sumReport
    · simp [Flows.initIndividualReport, incrSumReportRefCounter, hr, hkept]
    · simp [Flows.initIndividualReport, incrSumReportRefCounter, Function.update_of_ne hr, hkept]
  | final i =>
    obtain ⟨f, hf, rfl⟩ := Option.map_eq_some_iff.mp hs
    rw [← Bool.not_eq_true, hI.freed_final hf hkept]
    exact fun hfreed => hfreed.2 guard
  | removeHost i =>
    obtain ⟨f, hf, rfl⟩ := Option.map_eq_some_iff.mp hs
    exact hkept r

/-- **The lifetime of group sum reports, up to the last final packet of a group.** In every run whose final packets
all leave another flow of the group running, no report that the table or an unfinished flow points to was freed;
and the next step keeps this exactly when it meets the condition too. -/
theorem sumReport_alive (h : Reachable Flows.step NotLast .init s) :
    s.Alive ∧ ∀ a s', s.step a = some s' → (s'.Alive ↔ NotLast s a) := by
  obtain ⟨hI, hkept⟩ := freed_of_reachable h
  refine ⟨⟨fun _ _ => hkept _, fun _ _ _ => hkept _⟩, fun a s' hs => ⟨fun halive => ?_, fun guard => ?_⟩⟩
  · cases a with
    | final i =>
      obtain ⟨f, hf, rfl⟩ := Option.map_eq_some_iff.mp hs
      obtain ⟨hget, hphase⟩ := Flows.inPhase_iff.mp hf
      -- the entry of a flow that is not removed points to the report
      obtain ⟨itr, hitr, hreport⟩ := hI.has_entry (List.mem_of_getElem? hget) (by rw [hphase]; decide)
      by_contra hlast
      have hfreed := (hI.freed_final hf hkept itr.sumReport).mpr ⟨hreport, hlast⟩
      rw [halive.1 itr hitr] at hfreed
      cases hfreed
    | push agent => trivial
    | initIndividualReport i => trivial
    | removeHost i => trivial
  · have hkept' := (freed_of_reachable (.next a h guard hs)).2
    exact ⟨fun _ _ => hkept' _, fun _ _ _ => hkept' _⟩

end

/-! Two flows of one host. -/

def hostAgent (port : BitVec 16) : Agent := ⟨.inet 7 port, .inet 9 5001, false, 4⟩

theorem sumReport_alive_run :
    ∃ s, run Flows.step NotLast .init
        [.push (hostAgent 1000), .initIndividualReport 0, .push (hostAgent 1001), .initIndividualReport 1,
          .final 0, .removeHost 0] = some s ∧
      s.Alive ∧ ∃ s', s.step (.final 1) = some s' ∧ ¬ s'.Alive := by
  have hrun : run Flows.step NotLast .init
      [.push (hostAgent 1000), .initIndividualReport 0, .push (hostAgent 1001), .initIndividualReport 1,
        .final 0, .removeHost 0] = some _ := rfl
  obtain ⟨halive, hstep⟩ := sumReport_alive (.of_run _ _ .start hrun)
  refine ⟨_, hrun, halive, _, rfl, ?_⟩
  rw [hstep (.final 1) _ rfl]
  decide

/-- A flow ends and another one of its host is pushed before the first is removed: the new flow has a report that
was freed, and so has the table. -/
theorem sumReport_freed :
    ∃ s, run Flows.step Any .init
        [.push (hostAgent 1000), .initIndividualReport 0, .final 0, .push (hostAgent 1001)] = some s ∧
      ¬ s.Alive ∧ (∃ itr ∈ s.table.root, (s.heap.sumReport itr.sumReport).freed = true) ∧
        ∃ f ∈ s.flows, f.phase = .pushed ∧ (s.heap.sumReport f.sumReport).freed = true := by
  refine ⟨_, rfl, ?_, ?_, ?_⟩ <;> decide

end Iperf2.Hosts
