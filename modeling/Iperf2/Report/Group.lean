import Iperf2.Report.Counts
import Iperf2.Lib.Pool

/-!
# The sums of a group report

The flows of one peer share a group report. At an interval report and at its final report a flow adds to it what it
accounted since its last one, and the group report prints intervals and totals of its own. With the flows as members
and the group report as pool this is a `Pool`: for every interleaving of the flows' packets and reports and of the
group's reports, the totals of the group are what its flows had accounted at their last reports.

The counts of reads and of writes lie on the same words, and the group report starts a new interval with the handler
of its own mode. `Agrees` says when that handler does not touch the words that the flows count in.

* `group_sum_conserved` : the sums are right in every run just if the handlers agree.
-/

namespace Iperf2.Report
open Transition

/-! ## The group as a pool -/

/-- What happens to a flow between its reports. -/
def FlowItem : Type := { e : FlowEvent // e ≠ .interval }

/-- What happens to a group report apart from the reports of its flows: its own reports, and the times and the filter
that the reporter sets. -/
inductive GroupEvent
  | report (final : Bool)
  | set (ts : ReportTimeStamps) (filterThisSampleOutput : Bool)

section
variable {ι : Type*} (grp : Settings) (flows : ι → Settings)

/-- Flows made with the settings `flows` and a group report made with `grp`. -/
def groupSystem : Pool.System ι TransferInfo FlowItem TransferInfo GroupEvent where
  item i info e := flowStep (initTransferProtocolHandler (flows i)) info e.1
  report i final info sum :=
    let group := { initSumReport grp false with info := sum }
    let data := { initIndividualReport (flows i) (some group) none with info }
    let reported := (data.transferProtocolHandler.parts.handle data final).1
    (reported.info, (reported.groupSumReport.map (·.info)).getD sum)
  adjust sum
    | .report final => ((initSumHandler grp false).handle sum final).1
    | .set ts filterThisSampleOutput =>
      { sum with
        ts
        filterThisSampleOutput }

/-- The reports before any packet. -/
def groupStart : Pool.State ι TransferInfo TransferInfo :=
  .start (fun i => (initIndividualReport (flows i) none none).info) (initSumReport grp false).info

/-- A report of a flow starts its next interval, and adds the interval to the group. -/
theorem groupSystem_report (i : ι) (final : Bool) (info sum : TransferInfo) :
    (groupSystem grp flows).report i final info sum =
      let p := (initTransferProtocolHandler (flows i)).parts
      (p.reset (p.report (p.interval info) final).1 final, p.sum (p.interval info) sum) := rfl

end

/-! ## Runs -/

section
variable {ι : Type*} (grp : Settings) (flows : ι → Settings)

/-- What the operations of a group do to a count of all its flows. -/
theorem group_conserves {c : Count} (hcounts : ∀ i, (initTransferProtocolHandler (flows i)).Counts c)
    (hagree : c.member = none ∨ (initSumHandler grp false).member = none ∨
      (initSumHandler grp false).member = c.member) :
    Pool.Conserves (groupSystem grp flows) (fun i => Flags (initTransferProtocolHandler (flows i)))
      (fun i => c.total (initTransferProtocolHandler (flows i)))
      (fun i => c.since (initTransferProtocolHandler (flows i))) c.sumTotal where
  inv_item i stats e h := h.step e.1
  inv_report i final stats sum h := by
    rw [groupSystem_report]
    cases final with
    | false => exact h.step .interval
    | true => exact h.of_common (Count.final (hcounts i) stats).1
  item i stats e h := by
    obtain ⟨value, hmeter⟩ := Count.meter (hcounts i)
    refine hmeter.item stats e.1 h ?_
    obtain ⟨e, he⟩ := e
    cases e with
    | interval => exact absurd rfl he
    | packet packet => rfl
    | tcpistats packet => rfl
    | clock ts => rfl
  report i final stats sum h := by
    rw [groupSystem_report]
    refine ⟨?_, Count.sum (hcounts i) stats sum⟩
    cases final with
    | false =>
      obtain ⟨value, hmeter⟩ := Count.meter (hcounts i)
      exact (hmeter.report stats .interval _ h rfl).2.1
    | true => exact (Count.final (hcounts i) stats).2
  restart i stats sum h := by
    rw [groupSystem_report]
    obtain ⟨value, hmeter⟩ := Count.meter (hcounts i)
    exact (hmeter.report stats .interval _ h rfl).2.2
  adjust sum e := by
    cases e with
    | report final => exact Count.adjust (initSumHandler_group grp) hagree sum final
    | set ts filter => exact c.sumTotal_congr rfl rfl

variable {grp flows} [Fintype ι] [DecidableEq ι] {s : Pool.State ι TransferInfo TransferInfo}


/-- The counts whose sums a group has: the datagram counts, and of flows with one handler what that handler counts. -/
def Summed (flows : ι → Settings) (c : Count) : Prop :=
  c.member = none ∨ ∃ i, (∀ j, initTransferProtocolHandler (flows j) = initTransferProtocolHandler (flows i)) ∧
    (initTransferProtocolHandler (flows i)).Counts c

/-- The totals of the group are what its flows had accounted at their last reports, and when all flows are done what
they accounted. -/
structure GroupConserved (flows : ι → Settings) (s : Pool.State ι TransferInfo TransferInfo) : Prop where
  contributed : ∀ c, Summed flows c →
    c.sumTotal s.pool = ∑ i, c.total (initTransferProtocolHandler (flows i)) (s.reported i)
  done : (∀ i, s.done i = true) → ∀ c, Summed flows c →
    c.sumTotal s.pool = ∑ i, c.total (initTransferProtocolHandler (flows i)) (s.member i)

/-- The handler of the group agrees with the one handler of its flows, if they have one. -/
def GroupAgrees (grp : Settings) (flows : ι → Settings) : Prop :=
  ∀ i, (∀ j, initTransferProtocolHandler (flows j) = initTransferProtocolHandler (flows i)) →
    (initSumHandler grp false).Agrees (initTransferProtocolHandler (flows i))

/-- The invariant of a count that the group sums up. -/
theorem group_kept (hagrees : GroupAgrees grp flows)
    (hs : Reachable (groupSystem grp flows).step Any (groupStart grp flows) s) {c : Count} (hc : Summed flows c) :
    Pool.Kept (fun i => Flags (initTransferProtocolHandler (flows i)))
      (fun i => c.total (initTransferProtocolHandler (flows i)))
      (fun i => c.since (initTransferProtocolHandler (flows i))) c.sumTotal s := by
  have hfresh i := initIndividualReport_fresh (flows i) none none
  have hcounts : ∀ j, (initTransferProtocolHandler (flows j)).Counts c := by
    intro j
    rcases hc with hnone | ⟨i, hsame, hcounts⟩
    · exact .inl hnone
    · rw [hsame j]
      exact hcounts
  have hagree : c.member = none ∨ (initSumHandler grp false).member = none ∨
      (initSumHandler grp false).member = c.member := by
    rcases hc with hnone | ⟨i, hsame, hnone | ⟨hmember, -⟩⟩
    · exact .inl hnone
    · exact .inl hnone
    · rw [hmember]
      rcases hagrees i hsame with hnone | hnone | heq
      · exact .inr (.inl hnone)
      · exact .inl hnone
      · exact .inr (.inr heq)
  refine (group_conserves grp flows hcounts hagree).kept (.start ?_ ?_ ?_) hs
  · exact fun i => ⟨(hfresh i).isUDP, (hfresh i).sampled⟩
  · exact fun i => (c.fresh (hfresh i)).2
  · rw [initSumReport_sumTotal]
    exact (Finset.sum_eq_zero fun i _ => (c.fresh (hfresh i)).1).symm

/-! A group report that resets the words its flows count in loses what they counted. -/

/-- A count that is lost when the handlers do not agree. -/
def lostCount : TransferProtocolHandler → Count
  | .serverTcp => .totcntRead
  | _ => .totWriteCnt

def onePacket : ReportStruct := { (default : ReportStruct) with packetLen := 1 }

theorem lostCount_packet {handler : TransferProtocolHandler} {stats : TransferInfo} (h : Fresh handler stats)
    (hmember : handler.member ≠ none) :
    (lostCount handler).total handler (handler.packetHandler.handle stats onePacket) = 1 := by
  obtain ⟨binsize, hsock⟩ : ∃ binsize, stats.sockCallstats = { (default : SendReadStats) with binsize } :=
    ⟨_, h.sockCallstats⟩
  have hwrite : (reporterHandlePacketClient stats onePacket).sockCallstats.write.totWriteCnt = 1 := by
    rw [(handlePacketClient_spec stats onePacket).2.2.2, hsock]
    rfl
  cases handler with
  | serverUdp => exact absurd rfl hmember
  | clientUdp => exact hwrite
  | clientTcp => exact hwrite
  | serverTcp =>
    obtain ⟨bytes, bins, -, -, hread⟩ := handlePacketServerTcp_spec stats onePacket
    simp only [lostCount, Count.total, Count.sumTotal, TransferProtocolHandler.packetHandler, PacketHandler.handle,
      hread, hsock]
    rfl

theorem lostCount_adjust {sum : TransferProtocolSumHandler} {handler : TransferProtocolHandler}
    (hagree : ¬ sum.Agrees handler) (stats : TransferInfo) :
    (lostCount handler).sumTotal (sum.handle stats false).1 = 0 := by
  cases sum <;> cases handler <;>
    first
    | rfl
    | simp [TransferProtocolSumHandler.Agrees, TransferProtocolSumHandler.member,
        TransferProtocolHandler.member] at hagree

/-- One packet, the interval report of its flow and that of the group. -/
theorem group_sum_lost (hagrees : ¬ GroupAgrees grp flows) :
    ∃ s, Reachable (groupSystem grp flows).step Any (groupStart grp flows) s ∧ ¬ GroupConserved flows s := by
  obtain ⟨i, hi⟩ := not_forall.mp hagrees
  obtain ⟨hsame, hagree⟩ := Classical.not_imp.mp hi
  let handler := initTransferProtocolHandler (flows i)
  have hmember : handler.member ≠ none := fun hnone => hagree (.inr (.inl hnone))
  have hcounts : handler.Counts (lostCount handler) := by
    cases hhandler : handler with
    | serverUdp => exact absurd (by rw [hhandler]; rfl) hmember
    | clientUdp => exact .inr ⟨rfl, nofun⟩
    | serverTcp => exact .inr ⟨rfl, nofun⟩
    | clientTcp => exact .inr ⟨rfl, nofun⟩
  have hfresh j := initIndividualReport_fresh (flows j) none none
  have hzero : ∀ j, (lostCount handler).total (initTransferProtocolHandler (flows j))
      ((groupStart grp flows).reported j) = 0 :=
    fun j => ((lostCount handler).fresh (initIndividualReport_fresh (flows j) none none)).1
  have hone : (lostCount handler).total handler (handler.packetHandler.handle
      ((groupStart grp flows).member i) onePacket) = 1 :=
    lostCount_packet (initIndividualReport_fresh (flows i) none none) hmember
  refine ⟨_, ((Reachable.start.next (.item i ⟨.packet onePacket, nofun⟩) trivial rfl).next (.report i false)
    trivial rfl).next (.adjust (.report false)) trivial rfl, fun hconserved => ?_⟩
  have hsum := hconserved.contributed (lostCount handler) (.inr ⟨i, hsame, hcounts⟩)
  -- the pool lost the packet that the flow had reported
  refine absurd ((lostCount_adjust hagree _).symm.trans hsum) ?_
  simp only [Function.update_self]
  rw [Pool.sum_update fun j => (lostCount handler).total (initTransferProtocolHandler (flows j)),
    Finset.sum_eq_zero fun j _ => hzero j, hzero i, sub_zero, zero_add]
  exact fun h => zero_ne_one (h.trans hone)

variable (grp flows) in
/-- **Group sum conservation.** The group report of any flows has the sums of their accounts in every state of every
run, whatever the order of packets and reports, just if its handler agrees with that of the flows. -/
theorem group_sum_conserved :
    (∀ s, Reachable (groupSystem grp flows).step Any (groupStart grp flows) s → GroupConserved flows s) ↔
      GroupAgrees grp flows := by
  refine ⟨fun hall => ?_, fun hagrees s hs => ⟨fun c hc => (group_kept hagrees hs hc).pool,
    fun hdone c hc => (group_kept hagrees hs hc).all_done hdone⟩⟩
  by_contra hagrees
  obtain ⟨s, hs, hlost⟩ := group_sum_lost hagrees
  exact hlost (hall s hs)

end

/-! A server that sends: the group report was made for a server, the flow is a client. -/

def tcpServer : Settings := { (default : Settings) with threadMode := .server }

def reversedClient : Settings := { (default : Settings) with threadMode := .client }

theorem group_sum_not_conserved :
    ∃ s, Reachable (groupSystem tcpServer fun _ : Unit => reversedClient).step Any
        (groupStart tcpServer fun _ => reversedClient) s ∧
      s.done () = true ∧ Count.totWriteCnt.sumTotal s.pool = 1 ∧
      Count.totWriteCnt.total .clientTcp (s.member ()) = 2 ∧ ¬ GroupConserved (fun _ => reversedClient) s := by
  refine ⟨_, ((((Reachable.start.next (.item () ⟨.packet onePacket, nofun⟩) trivial rfl).next (.report () false)
    trivial rfl).next (.adjust (.report false)) trivial rfl).next (.item () ⟨.packet (endPacket onePacket), nofun⟩)
    trivial rfl).next (.report () true) trivial rfl, rfl, rfl, rfl, fun hconserved => ?_⟩
  have hsum := hconserved.done (fun _ => rfl) .totWriteCnt (.inr ⟨(), fun _ => rfl, .inr ⟨rfl, nofun⟩⟩)
  exact absurd hsum (by decide)

end Iperf2.Report
