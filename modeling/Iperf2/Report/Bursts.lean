import Iperf2.Report.Records
import Mathlib.Algebra.Order.BigOperators.Group.Finset
import Mathlib.Algebra.Order.Group.Defs

/-!
# The sums of a group whose interval reports come with bursts or frames

The interval handlers of the bursts of TCP and of the frames of UDP print a report of the flow and start its next
interval, as the transfer protocol handlers do, but add nothing to the group report. So what a flow accounted before
such a report never gets there: the group report has what came after the last one.

* `EndsInterval` : the records on which these handlers report;
* `Books` : what every flow lost, and what the group report has of the flows that are done;
* `Books.next` : a step of the reporter loses something just on a record that is reported;
* `receipt_group_sum` : the sums are right in the runs without such a report of traffic, and in no other run.
-/

namespace Iperf2.Report
open Transition

/-! ## Interval reports on receipt -/

/-- Interval reports come with the bursts of TCP or with the frames of UDP. -/
def OnReceipt (inSettings : Settings) : Prop :=
  initTransferIntervalHandler inSettings = some .burstIntervalServerTcp ∨
    initTransferIntervalHandler inSettings = some .frameIntervalServerUdp

/-- The handlers of a flow go with its interval handler: bursts are accounted before their reports, frames after. -/
theorem OnReceipt.handlers {inSettings : Settings} (h : OnReceipt inSettings) :
    initTransferProtocolHandler inSettings = .serverTcp ∧ accountsBefore inSettings = true ∧
        initTransferIntervalHandler inSettings = some .burstIntervalServerTcp ∨
      initTransferProtocolHandler inSettings = .serverUdp ∧ accountsBefore inSettings = false ∧
        initTransferIntervalHandler inSettings = some .frameIntervalServerUdp := by
  unfold OnReceipt initTransferIntervalHandler initTransferProtocolHandler accountsBefore at *
  cases hmode : inSettings.threadMode <;> cases hudp : inSettings.isUDP <;> simp only [hmode, hudp] at h ⊢ <;>
    split_ifs at h ⊢ <;> simp_all

theorem OnReceipt.server {inSettings : Settings} (h : OnReceipt inSettings) :
    initTransferProtocolHandler inSettings = .serverUdp ∨ initTransferProtocolHandler inSettings = .serverTcp :=
  h.handlers.elim (fun htcp => .inr htcp.1) (fun hudp => .inl hudp.1)

/-- The `matchframeID` of a flow when a record was compared with it. -/
def matchedFrame (stats : TransferInfo) (packet : ReportStruct) : Int :=
  if packet.burstsize = packet.remaining + packet.packetLen ∧ stats.matchframeID ≠ packet.frameID then
    uint32 packet.frameID
  else stats.matchframeID

/-- A record on which a flow makes an interval report. -/
def EndsInterval (handler : TransferProtocolHandler) (stats : TransferInfo) (packet : ReportStruct) : Prop :=
  match handler with
  | .serverTcp => packet.transitReady = true
  | _ => packet.packetLen = packet.remaining ∧ packet.frameID = matchedFrame stats packet

instance (handler : TransferProtocolHandler) (stats : TransferInfo) (packet : ReportStruct) :
    Decidable (EndsInterval handler stats packet) := by
  cases handler <;> unfold EndsInterval <;> infer_instance

/-- What the accounts of a flow are made of stays as it is. -/
structure SameCounts (stats stats' : TransferInfo) : Prop where
  common : stats'.common = stats.common
  total : stats'.total = stats.total
  PacketID : stats'.PacketID = stats.PacketID
  sockCallstats : stats'.sockCallstats = stats.sockCallstats

/-- A new interval of a flow starts. -/
structure Restarts (handler : TransferProtocolHandler) (stats stats' : TransferInfo) : Prop where
  fresh : Fresh handler stats → Fresh handler stats'
  common : stats'.common = stats.common
  counts : ∀ c : Count, handler.Counts c → c.total handler stats' = c.total handler stats ∧ c.since handler stats' = 0

/-- The report of the frames of UDP. -/
theorem frameInterval_spec (data : ReporterData) (packet : ReportStruct) :
    ∃ stats, (reporterCondprintFrameIntervalReportServerUdp data packet).1 = { data with info := stats } ∧
      if EndsInterval .serverUdp data.info packet then Restarts .serverUdp data.info stats
      else SameCounts data.info stats := by
  by_cases hends : EndsInterval .serverUdp data.info packet
  · refine ⟨_, congrArg Prod.fst (if_pos hends), ?_⟩
    rw [if_pos hends]
    refine ⟨fun h => ?_, rfl, fun c hcounts => ?_⟩
    · refine ⟨?_, h.PacketID, h.sockCallstats, h.isUDP, h.sampled⟩
      simp only [reporterResetTransferStatsServerUdp, h.total, h.PacketID]
      rfl
    · cases c <;>
        first
        | exact ⟨rfl, sub_self _⟩
        | cases hcounts.server rfl
        | cases hcounts.client rfl <;> contradiction
  · refine ⟨_, congrArg Prod.fst (if_neg hends), ?_⟩
    rw [if_neg hends]
    exact ⟨rfl, rfl, rfl, rfl⟩

/-- The report of the bursts of TCP. -/
theorem burstInterval_spec (data : ReporterData) (packet : ReportStruct) :
    ∃ stats, (reporterCondprintBurstIntervalReportServerTcp data packet).1 = { data with info := stats } ∧
      if EndsInterval .serverTcp data.info packet then Restarts .serverTcp data.info stats
      else SameCounts data.info stats := by
  unfold reporterCondprintBurstIntervalReportServerTcp
  split
  · rename_i hends
    refine ⟨_, rfl, ?_⟩
    rw [if_pos (show EndsInterval .serverTcp data.info packet from hends)]
    refine ⟨fun h => ?_, rfl, fun c hcounts => ?_⟩
    · refine ⟨?_, h.PacketID, ?_, h.isUDP, h.sampled⟩
      · simp only [reporterResetTransferStatsServerTcp, reporterHandlePacketOnewayTransit, TransferInfo.stamp, h.total]
        rfl
      · simp only [reporterResetTransferStatsServerTcp, reporterHandlePacketOnewayTransit, TransferInfo.stamp]
        rw [h.sockCallstats]
        rfl
    · cases c <;>
        first
        | exact ⟨rfl, rfl⟩
        | exact ⟨rfl, sub_self _⟩
        | cases hcounts.client rfl <;> contradiction
  · rename_i hends
    refine ⟨_, rfl, ?_⟩
    rw [if_neg (show ¬ EndsInterval .serverTcp data.info packet from hends)]
    exact ⟨rfl, rfl, rfl, rfl⟩

/-! ## One record of a flow -/

/-- The count that every record that is accounted makes larger. -/
def TransferProtocolHandler.accounted : TransferProtocolHandler → Count
  | .serverUdp => .Datagrams
  | _ => .Bytes

/-- A flow of a server that accounted nothing, or something. -/
structure Accounts (handler : TransferProtocolHandler) (stats : TransferInfo) : Prop where
  flags : Flags handler stats
  fresh : Fresh handler stats ∨ 0 < handler.accounted.total handler stats

/-- A count of a flow when its current interval started. -/
def Count.before (handler : TransferProtocolHandler) (c : Count) (stats : TransferInfo) : Int :=
  c.total handler stats - c.since handler stats

section
variable {handler : TransferProtocolHandler} {stats stats' : TransferInfo} {c : Count}

theorem SameCounts.count (h : SameCounts stats stats') (c : Count) :
    c.total handler stats' = c.total handler stats ∧ c.since handler stats' = c.since handler stats := by
  constructor
  · cases handler <;> cases c <;> simp only [Count.total, Count.sumTotal, h.total, h.PacketID, h.sockCallstats]
  · cases handler <;> cases c <;> simp only [Count.since, h.total, h.PacketID, h.sockCallstats]

theorem SameCounts.fresh (h : SameCounts stats stats') (hfresh : Fresh handler stats) : Fresh handler stats' where
  total := by rw [h.total, hfresh.total]
  PacketID := by rw [h.PacketID, hfresh.PacketID]
  sockCallstats := by rw [h.sockCallstats, ← hfresh.sockCallstats]
  isUDP := by rw [h.common, hfresh.isUDP]
  sampled hserver := by rw [h.common, hfresh.sampled hserver]

theorem Accounts.of_same (hs : Accounts handler stats) (h : SameCounts stats stats') : Accounts handler stats' := by
  refine ⟨hs.flags.of_common h.common, ?_⟩
  apply hs.fresh.imp h.fresh
  rw [(h.count _).1]
  exact id

theorem TransferProtocolHandler.accounted_counts (handler : TransferProtocolHandler) :
    handler.Counts handler.accounted := by
  cases handler <;> exact .inl rfl

theorem Accounts.of_restarts (hs : Accounts handler stats) (h : Restarts handler stats stats') :
    Accounts handler stats' := by
  refine ⟨hs.flags.of_common h.common, ?_⟩
  apply hs.fresh.imp h.fresh
  rw [(h.counts _ handler.accounted_counts).1]
  exact id

/-- A UDP server handles a record not at all or adds it to its accounts. -/
theorem serverUdp_accounts (stats : TransferInfo) (packet : ReportStruct) :
    SameCounts stats (reporterHandlePacketServerUdp stats packet) ∨ 0 < packet.packetID ∧
      let after := reporterHandlePacketServerUdp stats packet
      after.PacketID = max stats.PacketID packet.packetID ∧
        after.total.Bytes.current = stats.total.Bytes.current + packet.packetLen := by
  unfold reporterHandlePacketServerUdp
  simp only
  split_ifs with hempty hid
  · exact .inl ⟨rfl, rfl, rfl, rfl⟩
  · right
    refine ⟨hid, ?_, ?_⟩
    · simp only [reporterHandlePacketIsochronous, reporterHandlePacketOnewayTransit, reporterHandlePacketPps,
        serverUdpAccount]
      split_ifs <;> omega
    · simp only [reporterHandlePacketIsochronous, reporterHandlePacketOnewayTransit, reporterHandlePacketPps,
        serverUdpAccount]
      split_ifs <;> rfl
  · exact .inl ⟨rfl, rfl, rfl, rfl⟩

/-- A TCP server handles a record not at all or adds its bytes. -/
theorem serverTcp_accounts (stats : TransferInfo) (packet : ReportStruct) :
    ¬ 0 < packet.packetLen ∧ reporterHandlePacketServerTcp stats packet = stats ∨ 0 < packet.packetLen ∧
      let after := reporterHandlePacketServerTcp stats packet
      after.total = { stats.total with Bytes := stats.total.Bytes.add packet.packetLen } := by
  unfold reporterHandlePacketServerTcp
  by_cases hlen : packet.packetLen > 0
  · right
    rw [if_pos hlen]
    refine ⟨hlen, ?_⟩
    simp only
    split
    · exact (burstTcpServer_keeps _ packet).2.1
    · rfl
  · left
    rw [if_neg hlen]
    exact ⟨hlen, rfl⟩

/-- The counts that a record cannot make smaller. -/
def Grows (handler : TransferProtocolHandler) (packet : ReportStruct) (c : Count) : Prop :=
  c = handler.accounted ∨ 0 ≤ packet.packetLen ∧ (c = .Bytes ∨ c = .Datagrams)

theorem Grows.counts {packet : ReportStruct} (h : Grows handler packet c) : handler.Counts c := by
  rcases h with rfl | ⟨-, rfl | rfl⟩
  · exact handler.accounted_counts
  · exact .inl rfl
  · exact .inl rfl

/-- A flow that handles a record accounts nothing, or has accounted something then. -/
theorem Accounts.packet (hs : Accounts handler stats) (hserver : handler = .serverTcp ∨ handler = .serverUdp)
    (packet : ReportStruct) :
    let after := handler.packetHandler.handle stats packet
    Accounts handler after ∧ (∀ c, Grows handler packet c → c.total handler stats ≤ c.total handler after) := by
  intro after
  have hflags : Flags handler after := hs.flags.step (.packet packet)
  have hzero : 0 ≤ handler.accounted.total handler stats :=
    hs.fresh.elim (fun hfresh => (handler.accounted.fresh hfresh).1.ge) le_of_lt
  rcases hserver with rfl | rfl
  · rcases serverTcp_accounts stats packet with ⟨-, hsame⟩ | ⟨hlen, htotal⟩
    · have hafter : after = stats := hsame
      rw [hafter]
      exact ⟨hs, fun c _ => le_rfl⟩
    · have hbytes : after.total.Bytes.current = stats.total.Bytes.current + packet.packetLen := by
        simp only [after, TransferProtocolHandler.packetHandler, PacketHandler.handle, htotal, ShiftCounter.add_current]
      have hdatagrams : after.total.Datagrams = stats.total.Datagrams := by
        simp only [after, TransferProtocolHandler.packetHandler, PacketHandler.handle, htotal]
      simp only [TransferProtocolHandler.accounted, Count.total, Count.sumTotal] at hzero
      refine ⟨⟨hflags, .inr ?_⟩, fun c hgrows => ?_⟩
      · simp only [TransferProtocolHandler.accounted, Count.total, Count.sumTotal]
        omega
      · rcases hgrows with rfl | ⟨-, rfl | rfl⟩ <;>
          simp only [TransferProtocolHandler.accounted, Count.total, Count.sumTotal, hdatagrams, le_refl]
        · omega
        · omega
  · rcases serverUdp_accounts stats packet with hsame | ⟨hid, hlast, hbytes⟩
    · exact ⟨hs.of_same hsame, fun c _ => (hsame.count c).1.ge⟩
    · refine ⟨⟨hflags, .inr (lt_of_lt_of_le hid ?_)⟩, fun c hgrows => ?_⟩
      · exact (le_max_right stats.PacketID packet.packetID).trans hlast.ge
      · rcases hgrows with rfl | ⟨hlen, rfl | rfl⟩
        · exact (le_max_left stats.PacketID packet.packetID).trans hlast.ge
        · exact (Int.le_add_of_nonneg_right hlen).trans hbytes.ge
        · exact (le_max_left stats.PacketID packet.packetID).trans hlast.ge

theorem SameCounts.before (h : SameCounts stats stats') (c : Count) : c.before handler stats' = c.before handler stats := by
  rw [Count.before, (h.count c).1, (h.count c).2, ← Count.before]

theorem Restarts.before (h : Restarts handler stats stats') (hcounts : handler.Counts c) :
    c.before handler stats' = c.total handler stats := by
  rw [Count.before, (h.counts c hcounts).1, (h.counts c hcounts).2, sub_zero]

/-- What is accounted in an interval is not part of the counts at its start. -/
theorem Accounts.packet_before (hs : Accounts handler stats) (hcounts : handler.Counts c) (packet : ReportStruct) :
    c.before handler (handler.packetHandler.handle stats packet) = c.before handler stats := by
  obtain ⟨value, hmeter⟩ := Count.meter hcounts
  exact hmeter.item stats (.packet packet) hs.flags rfl

/-- A flow accounted nothing before the interval report of a record. -/
def NothingAccounted (handler : TransferProtocolHandler) (stats : TransferInfo) (packet : ReportStruct) : Prop :=
  handler.accounted.total handler stats = 0 ∧ (handler = .serverTcp → packet.packetLen ≤ 0)

/-- What a record does to the counts at the start of the interval: an interval report loses what was accounted. -/
structure Noted (handler : TransferProtocolHandler) (stats : TransferInfo) (packet : ReportStruct)
    (stats' : TransferInfo) : Prop where
  accounts : Accounts handler stats'
  same : (EndsInterval handler stats packet → NothingAccounted handler stats packet) →
    ∀ c : Count, handler.Counts c → c.before handler stats' = c.before handler stats
  lost : EndsInterval handler stats packet → ¬ NothingAccounted handler stats packet →
    0 < handler.accounted.before handler stats'
  grows : ∀ c, Grows handler packet c → 0 ≤ c.since handler stats →
    0 ≤ c.since handler stats' ∧ c.before handler stats ≤ c.before handler stats'

theorem Accounts.fresh_of_zero (hs : Accounts handler stats) (hzero : handler.accounted.total handler stats = 0) :
    Fresh handler stats :=
  hs.fresh.resolve_right (by rw [hzero]; exact lt_irrefl 0)

theorem Accounts.pos_of_ne (hs : Accounts handler stats) (hne : handler.accounted.total handler stats ≠ 0) :
    0 < handler.accounted.total handler stats :=
  hs.fresh.resolve_left fun hfresh => hne (handler.accounted.fresh hfresh).1

/-- A burst is reported after its last record was accounted. -/
theorem Noted.burst {mid : TransferInfo} {packet : ReportStruct} (hs : Accounts .serverTcp stats)
    (hmid : mid = reporterHandlePacketServerTcp stats packet)
    (hreport : if EndsInterval .serverTcp mid packet then Restarts .serverTcp mid stats'
      else SameCounts mid stats') : Noted .serverTcp stats packet stats' := by
  obtain ⟨hmids, hmono⟩ := hs.packet (.inl rfl) packet
  have hbefore : ∀ c : Count, TransferProtocolHandler.serverTcp.Counts c →
      c.before .serverTcp mid = c.before .serverTcp stats := by
    intro c hcounts
    rw [hmid]
    exact hs.packet_before hcounts packet
  simp only [TransferProtocolHandler.packetHandler, PacketHandler.handle, ← hmid] at hmids hmono
  have hsince : ∀ c, Grows .serverTcp packet c → 0 ≤ c.since .serverTcp stats → 0 ≤ c.since .serverTcp mid := by
    intro c hgrows hc
    have hmono := hmono c hgrows
    have hbefore := hbefore c hgrows.counts
    simp only [Count.before] at hbefore
    omega
  by_cases hends : packet.transitReady = true
  · rw [if_pos (show EndsInterval .serverTcp mid packet from hends)] at hreport
    refine ⟨hmids.of_restarts hreport, fun hnothing c hcounts => ?_, fun _ hsome => ?_, fun c hgrows hc => ?_⟩
    · obtain ⟨hzero, hlen⟩ := hnothing hends
      have hfresh := hs.fresh_of_zero hzero
      have hsame : mid = stats := by
        rcases serverTcp_accounts stats packet with ⟨-, hsame⟩ | ⟨hpos, -⟩
        · exact hmid.trans hsame
        · exact absurd hpos (hlen rfl).not_gt
      rw [hreport.before hcounts, hsame, Count.before, (c.fresh hfresh).1, (c.fresh hfresh).2, sub_zero]
    · rw [hreport.before (TransferProtocolHandler.accounted_counts .serverTcp)]
      by_cases hzero : TransferProtocolHandler.serverTcp.accounted.total .serverTcp stats = 0
      · have hlen : 0 < packet.packetLen := by
          by_contra hlen
          exact hsome ⟨hzero, fun _ => not_lt.mp hlen⟩
        rcases serverTcp_accounts stats packet with ⟨hnot, -⟩ | ⟨-, htotal⟩
        · exact absurd hlen hnot
        · have hbytes : mid.total.Bytes.current = stats.total.Bytes.current + packet.packetLen := by
            rw [hmid]
            simp only [htotal, ShiftCounter.add_current]
          simp only [TransferProtocolHandler.accounted, Count.total, Count.sumTotal] at hzero ⊢
          omega
      · exact (hs.pos_of_ne hzero).trans_le (hmono _ (.inl rfl))
    · rw [hreport.before hgrows.counts, (hreport.counts c hgrows.counts).2, ← hbefore c hgrows.counts]
      exact ⟨le_rfl, sub_le_self _ (hsince c hgrows hc)⟩
  · rw [if_neg (show ¬ EndsInterval .serverTcp mid packet from hends)] at hreport
    refine ⟨hmids.of_same hreport, fun _ c hcounts => ?_, fun h => absurd h hends, fun c hgrows hc => ?_⟩
    · rw [hreport.before, hbefore c hcounts]
    · rw [hreport.before, hbefore c hgrows.counts, (hreport.count c).2]
      exact ⟨hsince c hgrows hc, le_rfl⟩

/-- A frame is reported before its last record is accounted. -/
theorem Noted.frame {mid : TransferInfo} {packet : ReportStruct} (hs : Accounts .serverUdp stats)
    (hreport : if EndsInterval .serverUdp stats packet then Restarts .serverUdp stats mid
      else SameCounts stats mid) (hstats' : stats' = reporterHandlePacketServerUdp mid packet) :
    Noted .serverUdp stats packet stats' := by
  have hmids : Accounts .serverUdp mid := by
    split at hreport
    · exact hs.of_restarts hreport
    · exact hs.of_same hreport
  obtain ⟨haccounts, hmono⟩ := hmids.packet (.inr rfl) packet
  have hbefore : ∀ c : Count, TransferProtocolHandler.serverUdp.Counts c →
      c.before .serverUdp stats' = c.before .serverUdp mid := by
    intro c hcounts
    rw [hstats']
    exact hmids.packet_before hcounts packet
  simp only [TransferProtocolHandler.packetHandler, PacketHandler.handle, ← hstats'] at haccounts hmono
  have hsince : ∀ c, Grows .serverUdp packet c → 0 ≤ c.since .serverUdp mid → 0 ≤ c.since .serverUdp stats' := by
    intro c hgrows hc
    have hmono := hmono c hgrows
    have hbefore := hbefore c hgrows.counts
    simp only [Count.before] at hbefore
    omega
  refine ⟨haccounts, fun hnothing c hcounts => ?_, fun hends hsome => ?_, fun c hgrows hc => ?_⟩
  · rw [hbefore c hcounts]
    split at hreport
    · rename_i hends
      have hfresh := hs.fresh_of_zero (hnothing hends).1
      rw [hreport.before hcounts, Count.before, (c.fresh hfresh).1, (c.fresh hfresh).2, sub_zero]
    · exact hreport.before c
  · rw [if_pos hends] at hreport
    rw [hbefore _ (TransferProtocolHandler.accounted_counts .serverUdp),
      hreport.before (TransferProtocolHandler.accounted_counts .serverUdp)]
    exact hs.pos_of_ne fun hzero => hsome ⟨hzero, fun htcp => by cases htcp⟩
  · rw [hbefore c hgrows.counts]
    split at hreport
    · rw [hreport.before hgrows.counts]
      exact ⟨hsince c hgrows (hreport.counts c hgrows.counts).2.ge, sub_le_self _ hc⟩
    · rw [hreport.before]
      exact ⟨hsince c hgrows (hc.trans_eq (hreport.count c).2.symm), le_rfl⟩

end

/-! ## One record of a group -/

/-- The report of a flow with the group report `group`, after some records. -/
def flowData (inSettings : Settings) (group : SumReport) (info : TransferInfo) : ReporterData :=
  { initIndividualReport inSettings (some group) none with info }

/-- The counts that a group report sums up: of reads only when its flows and its own handler count them. -/
def Totalled {ι : Type*} (grp : Settings) (flows : ι → Settings) (c : Count) : Prop :=
  c.member = none ∨ c.member = some .read ∧ (∀ i, initTransferProtocolHandler (flows i) = .serverTcp) ∧
    (initSumHandler grp false).Agrees .serverTcp

section
variable {ι : Type*} {grp : Settings} {flows : ι → Settings} {c : Count}

theorem Totalled.counts (h : Totalled grp flows c) (i : ι) : (initTransferProtocolHandler (flows i)).Counts c := by
  rcases h with hnone | ⟨hread, htcp, -⟩
  · exact .inl hnone
  · rw [htcp i]
    refine .inr ⟨hread, ?_⟩
    rintro rfl
    cases hread

theorem Totalled.agree (h : Totalled grp flows c) : c.member = none ∨ (initSumHandler grp false).member = none ∨
    (initSumHandler grp false).member = c.member := by
  rcases h with hnone | ⟨hread, -, hnone | hnone | hmember⟩
  · exact .inl hnone
  · exact .inr (.inl hnone)
  · cases hnone
  · exact .inr (.inr (hmember.trans hread.symm))

/-- The last record of a flow leaves the sums of a group alone, also when it is the last one of the group. -/
theorem finalSum_totals (hc : Totalled grp flows c) {group : SumReport}
    (hsum : group.transferProtocolSumHandler = initSumHandler grp false) (prints : SumReport → Bool)
    (packetTime : Timeval) :
    c.sumTotal (finalSum prints packetTime group).1.info = c.sumTotal group.info := by
  rw [finalSum_fst]
  split
  · rw [hsum]
    exact (Count.adjust (initSumHandler_group grp) hc.agree _ true).trans (c.sumTotal_congr rfl rfl)
  · exact c.sumTotal_congr rfl rfl

end

section
variable {inSettings : Settings} {stats : TransferInfo}

theorem handleTcpistats_server {handler : TransferProtocolHandler} (h : Flags handler stats)
    (hserver : handler = .serverUdp ∨ handler = .serverTcp) (packet : ReportStruct) :
    handleTcpistats stats packet = stats := by
  unfold handleTcpistats
  rw [h.sampled hserver]
  exact if_neg fun h => Bool.false_ne_true h.1

theorem processPacket_fst {data : ReporterData} {packet : ReportStruct} {handler : TransferIntervalHandler}
    (hhandler : data.transferIntervalHandler = some handler) :
    (processPacket data packet).1 =
      recordPacket packet (handler.handle (handlePacket data.packetHandlerPreReport packet data) packet).1 := by
  have hpre : (handlePacket data.packetHandlerPreReport packet data).transferIntervalHandler = some handler := by
    rw [← hhandler]
    cases data.packetHandlerPreReport <;> rfl
  simp only [processPacket]
  rw [hpre]
  rfl

/-- The group report takes the time of a record. -/
def SumReport.atPacket (s : SumReport) (packet : ReportStruct) : SumReport :=
  { s with info := { s.info with ts := { s.info.ts with packetTime := packet.packetTime } } }

theorem recordPacket_flowData {group : SumReport} {packet : ReportStruct} {stats' : TransferInfo}
    (h : handlePacket (flowData inSettings group stats).packetHandlerPostReport packet (flowData inSettings group stats) =
      flowData inSettings group stats') :
    recordPacket packet (flowData inSettings group stats) = flowData inSettings (group.atPacket packet) stats' := by
  simp only [recordPacket, h]
  rfl

/-- A record of the traffic, of a flow that reports bursts or frames. -/
theorem OnReceipt.process (h : OnReceipt inSettings) (hs : Accounts (initTransferProtocolHandler inSettings) stats)
    (group : SumReport) (packet : ReportStruct) :
    ∃ stats', Noted (initTransferProtocolHandler inSettings) stats packet stats' ∧
      (processPacket (flowData inSettings group stats) packet).1 =
        flowData inSettings (group.atPacket packet) stats' := by
  rcases h.handlers with ⟨htcp, hbefore, hinterval⟩ | ⟨hudp, hbefore, hinterval⟩
  · rw [htcp] at hs ⊢
    let mid := reporterHandlePacketServerTcp stats packet
    obtain ⟨stats', heq, hreport⟩ := burstInterval_spec (flowData inSettings group mid) packet
    refine ⟨stats', .burst hs rfl hreport, ?_⟩
    have hpre : handlePacket (flowData inSettings group stats).packetHandlerPreReport packet
        (flowData inSettings group stats) = flowData inSettings group mid := by
      simp only [flowData, initIndividualReport, hbefore, htcp, if_true]
      rfl
    have hpost : handlePacket (flowData inSettings group stats').packetHandlerPostReport packet
        (flowData inSettings group stats') = flowData inSettings group stats' := by
      simp only [flowData, initIndividualReport, hbefore, if_true]
      rfl
    calc
      (processPacket (flowData inSettings group stats) packet).1
        = recordPacket packet (reporterCondprintBurstIntervalReportServerTcp
            (flowData inSettings group mid) packet).1 := by
          rw [@processPacket_fst (flowData inSettings group stats) packet _ hinterval, hpre]
          rfl
      _ = recordPacket packet (flowData inSettings group stats') := congrArg (recordPacket packet) heq
      _ = flowData inSettings (group.atPacket packet) stats' := recordPacket_flowData hpost
  · rw [hudp] at hs ⊢
    obtain ⟨mid, heq, hreport⟩ := frameInterval_spec (flowData inSettings group stats) packet
    refine ⟨_, .frame hs hreport rfl, ?_⟩
    have hpre : handlePacket (flowData inSettings group stats).packetHandlerPreReport packet
        (flowData inSettings group stats) = flowData inSettings group stats := by
      simp only [flowData, initIndividualReport, hbefore, Bool.false_eq_true, if_false]
      rfl
    have hpost : handlePacket (flowData inSettings group mid).packetHandlerPostReport packet
        (flowData inSettings group mid) =
        flowData inSettings group (reporterHandlePacketServerUdp mid packet) := by
      simp only [flowData, initIndividualReport, hbefore, hudp, Bool.false_eq_true, if_false]
      rfl
    calc
      (processPacket (flowData inSettings group stats) packet).1
        = recordPacket packet (reporterCondprintFrameIntervalReportServerUdp
            (flowData inSettings group stats) packet).1 := by
          rw [@processPacket_fst (flowData inSettings group stats) packet _ hinterval, hpre]
          rfl
      _ = recordPacket packet (flowData inSettings group mid) := congrArg (recordPacket packet) heq
      _ = flowData inSettings (group.atPacket packet) (reporterHandlePacketServerUdp mid packet) :=
          recordPacket_flowData hpost

/-- The last record of a flow: its accounts stay, and what came after its last report goes to the group. -/
theorem OnReceipt.processFinal {ι : Type*} {grp : Settings} {flows : ι → Settings} {i : ι}
    (h : OnReceipt (flows i)) (hs : Accounts (initTransferProtocolHandler (flows i)) stats) {group : SumReport}
    (hsum : group.transferProtocolSumHandler = initSumHandler grp false) (packet : ReportStruct) :
    ∃ stats' group', (processFinalPacket (flowData (flows i) group stats) packet).1 = flowData (flows i) group' stats' ∧
      group'.transferProtocolSumHandler = group.transferProtocolSumHandler ∧
      ∀ c, Totalled grp flows c →
        c.sumTotal group'.info = c.sumTotal group.info +
          (c.total (initTransferProtocolHandler (flows i)) stats' -
            c.before (initTransferProtocolHandler (flows i)) stats) := by
  let handler := initTransferProtocolHandler (flows i)
  let last := lastStats handler stats packet
  let stats' := handler.parts.reset (finalValues handler last) true
  let summed := { group with info := handler.parts.sum (handler.parts.interval last) group.info }
  -- the packet is handled before or after the interval handler that the last packet does not have
  have hhandled : handlePacket (flowData (flows i) group stats).packetHandlerPostReport packet
      (handlePacket (flowData (flows i) group stats).packetHandlerPreReport packet (flowData (flows i) group stats)) =
      flowData (flows i) group (handler.packetHandler.handle stats packet) := by
    rcases h.handlers with ⟨-, hbefore, -⟩ | ⟨-, hbefore, -⟩ <;>
      simp only [flowData, initIndividualReport, hbefore, if_true, Bool.false_eq_true, if_false] <;> rfl
  have hpost : (handlePacket (flowData (flows i) group stats).packetHandlerPreReport packet
      (flowData (flows i) group stats)).packetHandlerPostReport =
      (flowData (flows i) group stats).packetHandlerPostReport := by
    cases (flowData (flows i) group stats).packetHandlerPreReport <;> rfl
  let prints (s : SumReport) : Bool := s.maxcount > 1 || stats'.common.isSumOnly
  refine ⟨stats', (finalSum prints packet.packetTime summed).1, ?_, ?_, fun c hc => ?_⟩
  · simp only [processFinalPacket, hpost, hhandled]
    split <;> rfl
  · exact (@finalSum_adjusts ι grp flows summed hsum prints packet.packetTime).2
  · have hcounts := hc.counts i
    have htime : SameCounts (handler.packetHandler.handle stats packet) last := ⟨rfl, rfl, rfl, rfl⟩
    have hbefore : c.before handler last = c.before handler stats := by
      rw [htime.before, hs.packet_before hcounts]
    calc
      c.sumTotal (finalSum prints packet.packetTime summed).1.info
        = c.sumTotal summed.info := @finalSum_totals ι grp flows c hc summed hsum prints packet.packetTime
      _ = c.sumTotal group.info + c.since handler last := Count.sum hcounts last group.info
      _ = c.sumTotal group.info + (c.total handler last - c.before handler last) := by
          rw [Count.before, sub_sub_cancel]
      _ = _ := by rw [hbefore, ← (Count.final hcounts last).2]

end

/-! ## All records -/

section
variable {ι : Type*} (grp : Settings) (flows : ι → Settings)

/-- The sums of a group of which all flows are done are those of its flows. -/
def SumsRight [Fintype ι] (r : GroupFlows ι) : Prop :=
  ∀ c, Totalled grp flows c →
    c.sumTotal r.group.info = ∑ i, c.total (initTransferProtocolHandler (flows i)) (r.data i).info

/-- A record makes an interval report of its flow only when the flow accounted nothing before. -/
def GroupFlows.ReportsNothing (r : GroupFlows ι) : GroupFlowsEvent ι → Prop
  | .record i packet => 0 ≤ packet.packetID →
    EndsInterval (initTransferProtocolHandler (flows i)) (r.data i).info packet →
      NothingAccounted (initTransferProtocolHandler (flows i)) (r.data i).info packet
  | _ => True

/-- The length of a record is a length. -/
def GroupFlows.Sized (_ : GroupFlows ι) : GroupFlowsEvent ι → Prop
  | .record _ packet => 0 ≤ packet.packetLen
  | _ => True

/-- Of the count `c` the flows lost `lost`, and the group report has the rest of the flows that are done. -/
structure Books [Fintype ι] (c : Count) (lost : ι → Int) (r : GroupFlows ι) : Prop where
  report : ∀ i, r.report i = flowData (flows i) r.group (r.data i).info
  sum : r.group.transferProtocolSumHandler = initSumHandler grp false
  accounts : ∀ i, r.done i = false → Accounts (initTransferProtocolHandler (flows i)) (r.data i).info
  running : ∀ i, r.done i = false → lost i = c.before (initTransferProtocolHandler (flows i)) (r.data i).info
  group : c.sumTotal r.group.info =
    ∑ i, if r.done i then c.total (initTransferProtocolHandler (flows i)) (r.data i).info - lost i else 0

variable {grp flows} [Fintype ι] {c : Count} {lost lost' : ι → Int} {r r' : GroupFlows ι}

theorem Books.start : Books grp flows c (fun _ => 0) (.start grp flows) where
  report _ := rfl
  sum := rfl
  accounts i _ := by
    have hfresh := initIndividualReport_fresh (flows i) none none
    exact ⟨⟨hfresh.isUDP, hfresh.sampled⟩, .inl hfresh⟩
  running i _ := by
    obtain ⟨htotal, hsince⟩ := c.fresh (initIndividualReport_fresh (flows i) none none)
    exact (sub_eq_zero.mpr (htotal.trans hsince.symm)).symm
  group := by
    apply (initSumReport_sumTotal grp c).trans
    exact (Finset.sum_eq_zero fun i _ => if_neg Bool.false_ne_true).symm

/-- When all flows are done the group report has what they did not lose. -/
theorem Books.all_done (hb : Books grp flows c lost r) (hdone : ∀ i, r.done i = true) :
    c.sumTotal r.group.info =
      ∑ i, c.total (initTransferProtocolHandler (flows i)) (r.data i).info - ∑ i, lost i := by
  rw [hb.group, ← Finset.sum_sub_distrib]
  exact Finset.sum_congr rfl fun i _ => if_pos (hdone i)

variable [DecidableEq ι]

/-- One flow changes, and the group report with it. -/
theorem Books.update (hb : Books grp flows c lost r) {i : ι} {data : ReporterData} {group : SumReport} {final : Bool}
    (hrunning : r.done i = false)
    (hreport : { data with groupSumReport := some group } = flowData (flows i) group data.info)
    (hsum : group.transferProtocolSumHandler = initSumHandler grp false)
    (haccounts : final = false → Accounts (initTransferProtocolHandler (flows i)) data.info)
    (hothers : ∀ j, j ≠ i → lost' j = lost j)
    (hlost : final = false → lost' i = c.before (initTransferProtocolHandler (flows i)) data.info)
    (htotal : c.sumTotal group.info = c.sumTotal r.group.info +
      if final then c.total (initTransferProtocolHandler (flows i)) data.info - lost' i else 0) :
    Books grp flows c lost'
      { data := Function.update r.data i data
        done := Function.update r.done i final
        group } := by
  refine ⟨fun j => ?_, hsum, fun j hj => ?_, fun j hj => ?_, ?_⟩
  · by_cases hji : j = i
    · subst hji
      simp only [GroupFlows.report, Function.update_self]
      exact hreport
    · simp only [GroupFlows.report, Function.update_of_ne hji]
      exact congrArg (fun d : ReporterData => { d with groupSumReport := some group }) (hb.report j)
  · by_cases hji : j = i
    · subst hji
      simp only [Function.update_self] at hj ⊢
      exact haccounts hj
    · simp only [Function.update_of_ne hji] at hj ⊢
      exact hb.accounts j hj
  · by_cases hji : j = i
    · subst hji
      simp only [Function.update_self] at hj ⊢
      exact hlost hj
    · simp only [Function.update_of_ne hji] at hj ⊢
      rw [hothers j hji, hb.running j hj]
  · -- the share of one flow changes
    let share (j : ι) : Int :=
      if r.done j then c.total (initTransferProtocolHandler (flows j)) (r.data j).info - lost j else 0
    let share' : Int := if final then c.total (initTransferProtocolHandler (flows i)) data.info - lost' i else 0
    have hshare : share i = 0 := if_neg (by rw [hrunning]; exact Bool.false_ne_true)
    calc
      c.sumTotal group.info = ∑ j, share j + (share' - share i) := by rw [htotal, hb.group, hshare, sub_zero]
      _ = ∑ j, Function.update share i share' j := (Pool.sum_update (fun _ x => x) share i share').symm
      _ = _ := Finset.sum_congr rfl fun j _ => by
        by_cases hji : j = i
        · subst hji
          simp only [Function.update_self, share']
        · simp only [Function.update_of_ne hji, share, hothers j hji]

/-- What the reporter makes of a record: the processing of its flow, which is done when the record is the last one. -/
theorem Books.record (hb : Books grp flows c lost r) {i : ι} (hflow : OnReceipt (flows i)) {packet : ReportStruct}
    {group : SumReport} {stats : TransferInfo}
    (hprocess : (if packet.packetID < 0 then (processFinalPacket (flowData (flows i) r.group (r.data i).info) packet).1
      else (processPacket (flowData (flows i) r.group (r.data i).info) packet).1) = flowData (flows i) group stats)
    (hstep : r.step (.record i packet) = some r') :
    r' =
      { data := Function.update r.data i (flowData (flows i) group stats)
        done := Function.update r.done i (decide (packet.packetID < 0))
        group } := by
  obtain ⟨hrunning, rfl⟩ := GroupFlows.step_record hstep
  have hsample : handleTcpistats (flowData (flows i) r.group (r.data i).info).info packet = (r.data i).info :=
    handleTcpistats_server (hb.accounts i hrunning).flags hflow.server packet
  have hreporter : (reporterProcessTransferReport (r.report i) packet).1 = flowData (flows i) group stats ∧
      (reporterProcessTransferReport (r.report i) packet).2.2 = decide (packet.packetID < 0) := by
    unfold reporterProcessTransferReport
    rw [hb.report i, hsample]
    by_cases hlast : packet.packetID < 0
    · rw [if_pos hlast] at hprocess
      simp only [if_pos hlast, decide_eq_true hlast]
      exact ⟨hprocess, trivial⟩
    · rw [if_neg hlast] at hprocess
      simp only [if_neg hlast, decide_eq_false hlast]
      exact ⟨hprocess, trivial⟩
  rw [hreporter.1, hreporter.2]
  rfl

/-- A record of the traffic. -/
theorem Books.traffic (hb : Books grp flows c lost r) {i : ι} (hflow : OnReceipt (flows i)) {packet : ReportStruct}
    (htraffic : ¬ packet.packetID < 0) (hstep : r.step (.record i packet) = some r') :
    ∃ stats', Noted (initTransferProtocolHandler (flows i)) (r.data i).info packet stats' ∧
      (∀ j, r'.done j = r.done j) ∧ (∀ j, (r'.data j).info = if j = i then stats' else (r.data j).info) ∧
      Books grp flows c
        (Function.update lost i (c.before (initTransferProtocolHandler (flows i)) stats')) r' := by
  obtain ⟨hrunning, -⟩ := GroupFlows.step_record hstep
  obtain ⟨stats', hnoted, hprocess⟩ := hflow.process (hb.accounts i hrunning) r.group packet
  obtain rfl := hb.record hflow ((if_neg htraffic).trans hprocess) hstep
  rw [decide_eq_false htraffic]
  refine ⟨stats', hnoted, fun j => ?_, fun j => ?_, ?_⟩
  · by_cases hji : j = i
    · subst hji
      simp only [Function.update_self, hrunning]
    · simp only [Function.update_of_ne hji]
  · by_cases hji : j = i
    · subst hji
      simp only [Function.update_self, if_true]
      rfl
    · simp only [Function.update_of_ne hji, if_neg hji]
  · refine hb.update hrunning rfl hb.sum (fun _ => hnoted.accounts) (fun j hji => Function.update_of_ne hji _ _)
      (fun _ => Function.update_self _ _ _) ?_
    simp only [Bool.false_eq_true, if_false, add_zero]
    exact c.sumTotal_congr rfl rfl

/-- The last record of a flow. -/
theorem Books.last (hb : Books grp flows c lost r) (hc : Totalled grp flows c) {i : ι} (hflow : OnReceipt (flows i))
    {packet : ReportStruct} (hlast : packet.packetID < 0) (hstep : r.step (.record i packet) = some r') :
    (∀ j, j ≠ i → r'.data j = r.data j) ∧ r'.done = Function.update r.done i true ∧ Books grp flows c lost r' := by
  obtain ⟨hrunning, -⟩ := GroupFlows.step_record hstep
  obtain ⟨stats', group', hprocess, hsum, htotal⟩ := hflow.processFinal (hb.accounts i hrunning) hb.sum packet
  obtain rfl := hb.record hflow ((if_pos hlast).trans hprocess) hstep
  rw [decide_eq_true hlast]
  refine ⟨fun j hji => Function.update_of_ne hji _ _, rfl, ?_⟩
  refine hb.update hrunning rfl (hsum.trans hb.sum) nofun (fun _ _ => rfl) nofun ?_
  simp only [if_true]
  rw [hb.running i hrunning]
  exact htotal c hc

/-- What is no record moves the times and the count of flows only. -/
theorem Books.idle (hb : Books grp flows c lost r) {a : GroupFlowsEvent ι} (ha : ∀ i packet, a ≠ .record i packet)
    (hstep : r.step a = some r') :
    Books grp flows c lost r' ∧ r'.done = r.done ∧ ∀ j, SameCounts (r.data j).info (r'.data j).info := by
  cases a with
  | count =>
    obtain rfl := Option.some.inj hstep
    refine ⟨⟨fun i => ?_, hb.sum, hb.accounts, hb.running, hb.group⟩, rfl, fun j => ⟨rfl, rfl, rfl, rfl⟩⟩
    exact congrArg (fun d : ReporterData => { d with groupSumReport := some (incrSumReportRefCounter r.group) })
      (hb.report i)
  | times i ts sumts =>
    obtain ⟨hrunning, rfl⟩ := GroupFlows.step_times hstep
    have hsame : SameCounts (r.data i).info { (r.data i).info with ts } := ⟨rfl, rfl, rfl, rfl⟩
    let group := { r.group with info := { r.group.info with ts := sumts } }
    have hbooks : Books grp flows c lost
        { data := Function.update r.data i { r.data i with info := { (r.data i).info with ts } }
          done := Function.update r.done i false
          group } := by
      refine hb.update hrunning ?_ hb.sum (fun _ => (hb.accounts i hrunning).of_same hsame) (fun _ _ => rfl)
        (fun _ => (hb.running i hrunning).trans (hsame.before c).symm) ?_
      · exact congrArg (fun d : ReporterData => { d with
          groupSumReport := some group
          info := { (r.data i).info with ts } }) (hb.report i)
      · simp only [Bool.false_eq_true, if_false, add_zero]
        exact c.sumTotal_congr rfl rfl
    rw [← hrunning, Function.update_eq_self] at hbooks
    refine ⟨hbooks, rfl, fun j => ?_⟩
    by_cases hji : j = i
    · subst hji
      simp only [Function.update_self]
      exact hsame
    · simp only [Function.update_of_ne hji]
      exact ⟨rfl, rfl, rfl, rfl⟩
  | record i packet => exact absurd rfl (ha i packet)

/-- No flow has less of the count than at the start of its interval. -/
def SinceStart (flows : ι → Settings) (c : Count) (r : GroupFlows ι) : Prop :=
  ∀ i, r.done i = false → 0 ≤ c.since (initTransferProtocolHandler (flows i)) (r.data i).info

/-- **Every step** keeps the books, and loses something just on an interval report of what was accounted. -/
theorem Books.next (hflows : ∀ i, OnReceipt (flows i)) (hc : Totalled grp flows c) (hb : Books grp flows c lost r)
    {a : GroupFlowsEvent ι} (hstep : r.step a = some r') :
    ∃ lost', Books grp flows c lost' r' ∧ (r.ReportsNothing flows a → lost' = lost) ∧
      (∀ i packet, a = .record i packet → c = (initTransferProtocolHandler (flows i)).accounted →
        ¬ r.ReportsNothing flows a → 0 < lost' i) ∧
      (r.Sized a → c = .Bytes ∨ c = .Datagrams → SinceStart flows c r →
        SinceStart flows c r' ∧ ∀ i, lost i ≤ lost' i) := by
  by_cases ha : ∃ i packet, a = .record i packet
  · obtain ⟨i, packet, rfl⟩ := ha
    obtain ⟨hrunning, -⟩ := GroupFlows.step_record hstep
    by_cases hlast : packet.packetID < 0
    · obtain ⟨hothers, hdone, hbooks⟩ := hb.last hc (hflows i) hlast hstep
      refine ⟨lost, hbooks, fun _ => rfl, fun _ _ _ _ hnot => ?_, fun _ _ hsince => ⟨fun j hj => ?_, fun _ => le_rfl⟩⟩
      · exact absurd (fun htraffic => absurd hlast (not_lt.mpr htraffic)) hnot
      · rw [hdone] at hj
        have hji : j ≠ i := by
          rintro rfl
          simp at hj
        rw [Function.update_of_ne hji] at hj
        rw [hothers j hji]
        exact hsince j hj
    · obtain ⟨stats', hnoted, hdone, hinfo, hbooks⟩ := hb.traffic (hflows i) hlast hstep
      refine ⟨_, hbooks, fun hguard => ?_, fun j packet' heq hcount hnot => ?_, fun hsized hcount hsince => ?_⟩
      · rw [hnoted.same (hguard (not_lt.mp hlast)) c (hc.counts i), ← hb.running i hrunning, Function.update_eq_self]
      · obtain ⟨rfl, rfl⟩ : i = j ∧ packet = packet' := by
          injection heq with hi hpacket
          exact ⟨hi, hpacket⟩
        simp only [GroupFlows.ReportsNothing, Classical.not_imp] at hnot
        rw [Function.update_self, hcount]
        exact hnoted.lost hnot.2.1 hnot.2.2
      · obtain ⟨hafter, hbefore⟩ := hnoted.grows c (.inr ⟨hsized, hcount⟩) (hsince i hrunning)
        refine ⟨fun j hj => ?_, fun j => ?_⟩
        · rw [hinfo]
          by_cases hji : j = i
          · subst hji
            rw [if_pos rfl]
            exact hafter
          · rw [if_neg hji]
            exact hsince j (by rw [← hdone, hj])
        · by_cases hji : j = i
          · subst hji
            rw [Function.update_self, hb.running j hrunning]
            exact hbefore
          · rw [Function.update_of_ne hji]
  · obtain ⟨hbooks, hdone, hsame⟩ := hb.idle (fun i packet h => ha ⟨i, packet, h⟩) hstep
    refine ⟨lost, hbooks, fun _ => rfl, fun i packet h => absurd ⟨i, packet, h⟩ ha, fun _ _ hsince => ?_⟩
    refine ⟨fun j hj => ?_, fun _ => le_rfl⟩
    rw [((hsame j).count c).2]
    exact hsince j (by rw [← hdone, hj])

/-- In a run without reports of what was accounted nothing is lost. -/
theorem Books.nothing_lost (hflows : ∀ i, OnReceipt (flows i)) (hc : Totalled grp flows c)
    (h : Reachable GroupFlows.step (GroupFlows.ReportsNothing flows) (.start grp flows) r) :
    Books grp flows c (fun _ => 0) r := by
  apply h.invariant .start
  intro r a r' hb hguard hstep
  obtain ⟨lost', hb', hsame, -, -⟩ := hb.next hflows hc hstep
  rw [← hsame hguard]
  exact hb'

/-- What a flow lost stays lost. -/
structure Lost (grp : Settings) (flows : ι → Settings) (c : Count) (lost : ι → Int) (r : GroupFlows ι) : Prop where
  books : Books grp flows c lost r
  since : SinceStart flows c r
  nonneg : ∀ i, 0 ≤ lost i

omit [DecidableEq ι] in
theorem Lost.start : Lost grp flows c (fun _ => 0) (.start grp flows) where
  books := .start
  since i _ := (c.fresh (initIndividualReport_fresh (flows i) none none)).2.ge
  nonneg _ := le_rfl

theorem Lost.next (hflows : ∀ i, OnReceipt (flows i)) (hcount : c = .Bytes ∨ c = .Datagrams)
    (hl : Lost grp flows c lost r) {a : GroupFlowsEvent ι} (hsized : r.Sized a) (hstep : r.step a = some r') :
    ∃ lost', Lost grp flows c lost' r' ∧ (∀ i, lost i ≤ lost' i) ∧
      ∀ i packet, a = .record i packet → c = (initTransferProtocolHandler (flows i)).accounted →
        ¬ r.ReportsNothing flows a → 0 < lost' i := by
  have hc : Totalled grp flows c := hcount.elim (fun h => .inl (by rw [h]; rfl)) (fun h => .inl (by rw [h]; rfl))
  obtain ⟨lost', hb', -, hlost, hgrows⟩ := hl.books.next hflows hc hstep
  obtain ⟨hsince, hle⟩ := hgrows hsized hcount hl.since
  exact ⟨lost', ⟨hb', hsince, fun i => (hl.nonneg i).trans (hle i)⟩, hle, hlost⟩

/-- **Group totals with burst and frame intervals.** When all flows delivered their last record the group report has
the sums of their accounts if no flow made an interval report of what it had accounted; after a run with such a
report it has not. -/
theorem receipt_group_sum (hflows : ∀ i, OnReceipt (flows i)) :
    (∀ r, Reachable GroupFlows.step (GroupFlows.ReportsNothing flows) (.start grp flows) r →
        (∀ i, r.done i = true) → SumsRight grp flows r) ∧
      ∀ r a r₁ r', Reachable GroupFlows.step GroupFlows.Sized (.start grp flows) r → ¬ r.ReportsNothing flows a →
        r.Sized a → r.step a = some r₁ → Reachable GroupFlows.step GroupFlows.Sized r₁ r' →
        (∀ i, r'.done i = true) → ¬ SumsRight grp flows r' := by
  refine ⟨fun r hr hdone c hc => ?_, fun r a r₁ r' hr hnot hsized hstep hr' hdone hsums => ?_⟩
  · rw [(Books.nothing_lost hflows hc hr).all_done hdone, Finset.sum_const_zero, sub_zero]
  · obtain ⟨i, packet, rfl⟩ : ∃ i packet, a = .record i packet := by
      cases a with
      | count => exact absurd trivial hnot
      | times i ts sumts => exact absurd trivial hnot
      | record i packet => exact ⟨i, packet, rfl⟩
    let c := (initTransferProtocolHandler (flows i)).accounted
    have hcount : c = .Bytes ∨ c = .Datagrams := by
      simp only [c]
      rcases (hflows i).handlers with ⟨hhandler, -, -⟩ | ⟨hhandler, -, -⟩ <;> rw [hhandler]
      · exact .inl rfl
      · exact .inr rfl
    have hc : Totalled grp flows c := hcount.elim (fun h => .inl (by rw [h]; rfl)) (fun h => .inl (by rw [h]; rfl))
    -- nothing is ever paid back, and the report loses something
    have hbefore : ∃ lost, Lost grp flows c lost r := by
      apply hr.invariant ⟨_, .start⟩
      rintro r a r' ⟨lost, hl⟩ hsized hstep
      obtain ⟨lost', hl', -, -⟩ := hl.next hflows hcount hsized hstep
      exact ⟨lost', hl'⟩
    obtain ⟨lost, hl⟩ := hbefore
    obtain ⟨lost₁, hl₁, -, hlost⟩ := hl.next hflows hcount hsized hstep
    have hafter : ∃ lost, Lost grp flows c lost r' ∧ 0 < lost i := by
      apply hr'.invariant ⟨lost₁, hl₁, hlost i packet rfl rfl hnot⟩
      rintro r a r' ⟨lost, hl, hpos⟩ hsized hstep
      obtain ⟨lost', hl', hle, -⟩ := hl.next hflows hcount hsized hstep
      exact ⟨lost', hl', hpos.trans_le (hle i)⟩
    obtain ⟨lost', hl', hpos⟩ := hafter
    have hsum : 0 < ∑ j, lost' j := Finset.sum_pos' (fun j _ => hl'.nonneg j) ⟨i, Finset.mem_univ i, hpos⟩
    have htotal := hl'.books.all_done hdone
    rw [hsums c hc] at htotal
    omega

end

/-! A TCP server that reads bursts of 1000 bytes. -/

def burstServer : Settings :=
  { (default : Settings) with
    threadMode := .server
    bufLen := 131072
    isEnhanced := true
    isTripTime := true
    isPeriodicBurst := true }

/-- A read of a burst, of which it may be the last. -/
def burstRead (packetLen : Int) (transitReady : Bool) : ReportStruct :=
  { (default : ReportStruct) with
    packetLen
    packetTime := ⟨10, 500000⟩
    sentTime := ⟨10, 490000⟩
    prevSentTime := ⟨10, 490000⟩
    frameID := 1
    burstsize := 1000
    transitReady }

def burstEnd : ReportStruct := endPacket { (default : ReportStruct) with packetTime := ⟨11, 0⟩ }

def oneServer : GroupFlows Unit := .start burstServer fun _ => burstServer

theorem burstServer_onReceipt : ∀ _ : Unit, OnReceipt burstServer := fun _ => .inl rfl

instance (r : GroupFlows Unit) :
    (e : GroupFlowsEvent Unit) → Decidable (r.ReportsNothing (fun _ => burstServer) e)
  | .count => .isTrue trivial
  | .times _ _ _ => .isTrue trivial
  | .record _ _ => inferInstanceAs (Decidable (_ → _ → _ ∧ _))

/-- The client goes away in the middle of the first burst. -/
theorem receipt_group_sum_partial :
    ∃ r, run GroupFlows.step (GroupFlows.ReportsNothing fun _ => burstServer) oneServer
        [.count, .record () (burstRead 600 false), .record () burstEnd] = some r ∧
      r.group.info.total.Bytes.current = 600 ∧ SumsRight burstServer (fun _ => burstServer) r := by
  have hrun : (run GroupFlows.step (GroupFlows.ReportsNothing fun _ => burstServer) oneServer
      [.count, .record () (burstRead 600 false), .record () burstEnd]).map
      (fun r => (r.done (), r.group.info.total.Bytes.current)) = some (true, 600) := by decide +kernel
  obtain ⟨r, hr, hvalues⟩ := Option.map_eq_some_iff.mp hrun
  obtain ⟨hdone, hbytes⟩ := Prod.mk.inj hvalues
  exact ⟨r, hr, hbytes, (receipt_group_sum burstServer_onReceipt).1 r (.of_run _ _ .start hr) fun _ => hdone⟩

/-- A whole burst is missing in the group report. -/
theorem receipt_group_sum_lost :
    ∃ r, Reachable GroupFlows.step Any oneServer r ∧ (∀ i, r.done i = true) ∧
      r.group.info.total.Bytes.current = 0 ∧ (r.data ()).info.total.Bytes.current = 1000 ∧
      ¬ SumsRight burstServer (fun _ => burstServer) r := by
  have hrun : (run GroupFlows.step Any oneServer
      [.count, .record () (burstRead 600 false), .record () (burstRead 400 true), .record () burstEnd]).map
      (fun r => (r.done (), r.group.info.total.Bytes.current, (r.data ()).info.total.Bytes.current)) =
      some (true, 0, 1000) := by decide +kernel
  obtain ⟨r, hr, hvalues⟩ := Option.map_eq_some_iff.mp hrun
  simp only [Prod.mk.injEq] at hvalues
  obtain ⟨hdone, hgroup, hbytes⟩ := hvalues
  refine ⟨r, .of_run _ _ .start hr, fun _ => hdone, hgroup, hbytes, fun hsums => ?_⟩
  have hsum : r.group.info.total.Bytes.current = ∑ _i : Unit, (r.data ()).info.total.Bytes.current :=
    hsums .Bytes (.inl rfl)
  rw [hgroup, hbytes] at hsum
  exact absurd hsum (by decide)

end Iperf2.Report
