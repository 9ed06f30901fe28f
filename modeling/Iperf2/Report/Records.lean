import Iperf2.Report.Group

/-!
# The reporter keeps the sums of a group

`reporter_process_transfer_report` takes the records of all flows of a group, in the order in which the flows deliver
them. What it does with one record to the flow and to the group report are operations of `groupSystem`, so its runs
have the sums too.

* `processPacket_moves`, `processFinalPacket_moves` : one record as operations of the group;
* `GroupFlows.Follows.step_follows` : a step of the reporter, or of a traffic thread that starts, follows the group;
* `records_sum` : when all flows delivered their last record the group report has the sums of their accounts.
-/

namespace Iperf2.Report
open Transition

/-! ## One record -/

/-- A flow of a group, whose interval reports come with the time. -/
structure Grouped (grp inSettings : Settings) (data : ReporterData) (group : SumReport) : Prop where
  protocol : data.transferProtocolHandler = initTransferProtocolHandler inSettings
  pre : data.packetHandlerPreReport = none
  post : data.packetHandlerPostReport = some (initTransferProtocolHandler inSettings).packetHandler
  interval : ∀ h, data.transferIntervalHandler = some h → h = .timeInterval
  groupSumReport : data.groupSumReport = some group
  sum : group.transferProtocolSumHandler = initSumHandler grp false

section
variable {ι : Type*} {grp : Settings} {flows : ι → Settings} {i : ι} {data : ReporterData} {group : SumReport}

theorem Grouped.setInfo (h : Grouped grp (flows i) data group) (info : TransferInfo) :
    Grouped grp (flows i) { data with info } group :=
  ⟨h.protocol, h.pre, h.post, h.interval, h.groupSumReport, h.sum⟩

/-- The flow shares another group report with the same handler. -/
theorem Grouped.share (h : Grouped grp (flows i) data group) {group' : SumReport}
    (hsum : group'.transferProtocolSumHandler = initSumHandler grp false) :
    Grouped grp (flows i) { data with groupSumReport := some group' } group' :=
  ⟨h.protocol, h.pre, h.post, h.interval, rfl, hsum⟩

theorem Grouped.getD_group (h : Grouped grp (flows i) data group) (other : SumReport) :
    data.groupSumReport.getD other = group := by
  rw [h.groupSumReport, Option.getD_some]

theorem Grouped.handlePacket_pre (h : Grouped grp (flows i) data group) (packet : ReportStruct) :
    handlePacket data.packetHandlerPreReport packet data = data :=
  congrArg (handlePacket · packet data) h.pre

theorem Grouped.handlePacket_post (h : Grouped grp (flows i) data group) (packet : ReportStruct) :
    handlePacket data.packetHandlerPostReport packet data =
      { data with info := flowStep (initTransferProtocolHandler (flows i)) data.info (.packet packet) } :=
  congrArg (handlePacket · packet data) h.post

/-- The interval report of a group sets its times and its filter, and reports. -/
theorem groupInterval_adjusts (hsum : group.transferProtocolSumHandler = initSumHandler grp false)
    (common : ReportCommon) :
    Pool.Adjusts (groupSystem grp flows) group.info (groupInterval common group).1.info := by
  unfold groupInterval
  simp only
  split
  · refine ⟨[.set (reporterSetTimestampsTime group.info.ts .interval) (!(group.count > 1 || common.isSumOnly)),
      .report false], ?_⟩
    rw [hsum]
    rfl
  · exact ⟨[], rfl⟩

theorem groupInterval_handler (common : ReportCommon) :
    (groupInterval common group).1.transferProtocolSumHandler = group.transferProtocolSumHandler := by
  unfold groupInterval
  simp only
  split <;> rfl

/-- A report with the time of a final packet and one flow less. -/
def SumReport.less (s : SumReport) (packetTime : Timeval) : SumReport :=
  { s with
    info := { s.info with
      ts := if timeDifference s.info.ts.packetTime packetTime > 0 then { s.info.ts with packetTime } else s.info.ts }
    count := s.count - 1 }

theorem finalSum_fst (prints : SumReport → Bool) (packetTime : Timeval) (s : SumReport) :
    (finalSum prints packetTime s).1 =
      if (s.less packetTime).count = 0 ∧ prints (s.less packetTime) then
        { s.less packetTime with
          info := (s.transferProtocolSumHandler.handle (s.less packetTime).info true).1 }
      else s.less packetTime := by
  unfold finalSum
  exact apply_ite Prod.fst _ _ _

/-- The last record of a flow sets the time of the group, and may be the last one of the group. -/
theorem finalSum_adjusts (hsum : group.transferProtocolSumHandler = initSumHandler grp false)
    (prints : SumReport → Bool) (packetTime : Timeval) :
    Pool.Adjusts (groupSystem grp flows) group.info (finalSum prints packetTime group).1.info ∧
      (finalSum prints packetTime group).1.transferProtocolSumHandler = group.transferProtocolSumHandler := by
  rw [finalSum_fst]
  split
  · refine ⟨⟨[.set (group.less packetTime).info.ts group.info.filterThisSampleOutput, .report true], ?_⟩, rfl⟩
    simp only [hsum]
    rfl
  · exact ⟨⟨[.set (group.less packetTime).info.ts group.info.filterThisSampleOutput], rfl⟩, rfl⟩

/-- What happens to a flow between its reports is an item. -/
theorem moves_item {info sum info' sum' : TransferInfo}
    (h : Pool.Moves (groupSystem grp flows) i info sum info' sum') (e : FlowEvent) (he : e ≠ .interval) :
    Pool.Moves (groupSystem grp flows) i info sum
      (flowStep (initTransferProtocolHandler (flows i)) info' e) sum' :=
  h.item (show FlowItem from ⟨e, he⟩)

/-- The handler of a flow makes a report. -/
theorem handle_report (h : Grouped grp (flows i) data group) (final : Bool) :
    let data' := (data.transferProtocolHandler.parts.handle data final).1
    let reported := (groupSystem grp flows).report i final data.info group.info
    data'.info = reported.1 ∧ Grouped grp (flows i) data' { group with info := reported.2 } := by
  have hgroup : (data.transferProtocolHandler.parts.handle data final).1.groupSumReport =
      some { group with info := ((groupSystem grp flows).report i final data.info group.info).2 } := by
    rw [groupSystem_report, ← h.protocol]
    simp only [TransferProtocol.handle, h.groupSumReport, Option.map_some]
  refine ⟨?_, h.protocol, h.pre, h.post, h.interval, hgroup, h.sum⟩
  rw [groupSystem_report, ← h.protocol]
  rfl

/-- The interval report of a flow is a change of its times and a report. -/
theorem intervalReport_moves (h : Grouped grp (flows i) data group) (packetTime : Timeval) :
    let data' := (intervalReport data packetTime).1
    ∃ sum, Grouped grp (flows i) data' { group with info := sum } ∧
      Pool.Moves (groupSystem grp flows) i data.info group.info data'.info sum := by
  intro data'
  let stamped := ({ data.info with ts := { data.info.ts with packetTime } } : TransferInfo).stamp .interval
  obtain ⟨hinfo, hgrouped⟩ := handle_report (h.setInfo stamped) false
  have hstart : Pool.Moves (groupSystem grp flows) i data.info group.info data.info group.info := .start
  have hclock := moves_item hstart (.clock stamped.ts) (by simp)
  refine ⟨_, hgrouped, ?_⟩
  simp only [data', intervalReport]
  rw [hinfo]
  exact hclock.report

/-- The interval reports of a flow and of its group, in between two records. -/
theorem timeInterval_moves (h : Grouped grp (flows i) data group) (packet : ReportStruct) :
    let data' := (reporterCondprintTimeIntervalReport data packet).1
    ∃ group', Grouped grp (flows i) data' group' ∧
      Pool.Moves (groupSystem grp flows) i data.info group.info data'.info group'.info := by
  intro data'
  simp only [data']
  unfold reporterCondprintTimeIntervalReport
  split
  · obtain ⟨sum, hgrouped, hmoves⟩ := intervalReport_moves h packet.packetTime
    let reported := (intervalReport data packet.packetTime).1
    let group' := (groupInterval reported.info.common { group with info := sum }).1
    have hgroup : (onReport (groupInterval reported.info.common) reported.groupSumReport).1 = some group' := by
      rw [hgrouped.groupSumReport]
      rfl
    have hadjusts : Pool.Adjusts (groupSystem grp flows) sum group'.info :=
      groupInterval_adjusts hgrouped.sum reported.info.common
    refine ⟨group', ⟨hgrouped.protocol, hgrouped.pre, hgrouped.post, hgrouped.interval, hgroup,
      (groupInterval_handler _).trans hgrouped.sum⟩, ?_⟩
    -- the missed reports move the times of the flow
    obtain ⟨ts, hts⟩ := printableMissed_info reported.info packet
    have hclock := moves_item (hmoves.adjusts hadjusts) (.clock ts) (by simp)
    show Pool.Moves _ i data.info group.info (if reported.info.printable then
      reporterTransferProtocolMissedReports reported.info packet else (reported.info, [])).1 group'.info
    rw [hts]
    exact hclock
  · exact ⟨group, h, .start⟩

/-- What a record of the traffic does after the interval reports: it is handled, and its time is that of the group. -/
def recordPacket (packet : ReportStruct) (data : ReporterData) : ReporterData :=
  let handled := handlePacket data.packetHandlerPostReport packet data
  let setTime (s : SumReport) : SumReport :=
    { s with info := { s.info with ts := { s.info.ts with packetTime := packet.packetTime } } }
  { handled with
    groupSumReport := handled.groupSumReport.map setTime
    fullDuplexReport := handled.fullDuplexReport.map setTime }

theorem recordPacket_moves (h : Grouped grp (flows i) data group) (packet : ReportStruct) :
    let data' := recordPacket packet data
    ∃ group', Grouped grp (flows i) data' group' ∧
      Pool.Moves (groupSystem grp flows) i data.info group.info data'.info group'.info := by
  intro data'
  let ts := { group.info.ts with packetTime := packet.packetTime }
  let group' := { group with info := { group.info with ts } }
  have hgroup : data'.groupSumReport = some group' := by
    simp only [data', recordPacket, h.handlePacket_post, h.groupSumReport, Option.map_some]
    rfl
  refine ⟨group', ⟨?_, ?_, ?_, ?_, hgroup, h.sum⟩, ?_⟩ <;>
    simp only [data', recordPacket, h.handlePacket_post]
  · exact h.protocol
  · exact h.pre
  · exact h.post
  · exact h.interval
  · have hstart : Pool.Moves (groupSystem grp flows) i data.info group.info data.info group.info := .start
    exact (moves_item hstart (.packet packet) (by simp)).adjust (.set ts group.info.filterThisSampleOutput)

/-- A record of the traffic. -/
theorem processPacket_moves (h : Grouped grp (flows i) data group) (packet : ReportStruct) :
    let data' := (processPacket data packet).1
    ∃ group', Grouped grp (flows i) data' group' ∧
      Pool.Moves (groupSystem grp flows) i data.info group.info data'.info group'.info := by
  intro data'
  cases hhandler : data.transferIntervalHandler with
  | none =>
    have hdata : data' = recordPacket packet data := by
      simp only [data', processPacket]
      rw [h.handlePacket_pre, hhandler]
      rfl
    rw [hdata]
    exact recordPacket_moves h packet
  | some handler =>
    obtain rfl := h.interval handler hhandler
    have hdata : data' = recordPacket packet (reporterCondprintTimeIntervalReport data packet).1 := by
      simp only [data', processPacket]
      rw [h.handlePacket_pre, hhandler]
      rfl
    obtain ⟨group', hgrouped, hmoves⟩ := timeInterval_moves h packet
    obtain ⟨group'', hgrouped', hmoves'⟩ := recordPacket_moves hgrouped packet
    rw [hdata]
    exact ⟨group'', hgrouped', hmoves.trans hmoves'⟩

/-- The last record of a flow is its final report. -/
theorem processFinalPacket_moves (h : Grouped grp (flows i) data group) (packet : ReportStruct) :
    let data' := (processFinalPacket data packet).1
    ∃ group' info sum, Grouped grp (flows i) data' group' ∧
      Pool.Moves (groupSystem grp flows) i data.info group.info info sum ∧
      data'.info = ((groupSystem grp flows).report i true info sum).1 ∧
      Pool.Adjusts (groupSystem grp flows) ((groupSystem grp flows).report i true info sum).2 group'.info := by
  intro data'
  let stats := lastStats (initTransferProtocolHandler (flows i)) data.info packet
  obtain ⟨hinfo, hgrouped⟩ := handle_report (h.setInfo stats) true
  let reported := (data.transferProtocolHandler.parts.handle { data with info := stats } true).1
  let prints (s : SumReport) : Bool := s.maxcount > 1 || reported.info.common.isSumOnly
  obtain ⟨hadjusts, hsum⟩ := @finalSum_adjusts ι grp flows _ hgrouped.sum prints packet.packetTime
  have hdata : ∃ fullDuplexReport, data' =
      { reported with
        fullDuplexReport
        groupSumReport := (onReport (finalSum prints packet.packetTime) reported.groupSumReport).1 } := by
    simp only [data', processFinalPacket, h.handlePacket_pre, h.handlePacket_post]
    exact ⟨_, rfl⟩
  obtain ⟨fullDuplexReport, hdata⟩ := hdata
  rw [hgrouped.groupSumReport] at hdata
  -- the last packet, handled and with its time, as items of the flow
  have hstart : Pool.Moves (groupSystem grp flows) i data.info group.info data.info group.info := .start
  have hpacket := moves_item (moves_item hstart (.packet packet) (by simp)) (.clock stats.ts) (by simp)
  refine ⟨_, stats, group.info, ?_, hpacket, ?_, hadjusts⟩
  · rw [hdata]
    exact ⟨hgrouped.protocol, hgrouped.pre, hgrouped.post, hgrouped.interval, rfl, hsum.trans hgrouped.sum⟩
  · rw [hdata]
    exact hinfo

end

/-! ## All records -/

/-- `IncrSumReportRefCounter` -/
def incrSumReportRefCounter (sumreport : SumReport) : SumReport :=
  { sumreport with
    count := sumreport.count + 1
    maxcount := if sumreport.count + 1 > sumreport.maxcount then sumreport.count + 1 else sumreport.maxcount }

/-- The flows of a group, of which some delivered their last record, and the report that they share. -/
structure GroupFlows (ι : Type*) where
  data : ι → ReporterData
  done : ι → Bool
  group : SumReport

/-- What traffic threads and the reporter do to the reports of a group. -/
inductive GroupFlowsEvent (ι : Type*)
  /-- `InitIndividualReport` counts a flow. -/
  | count
  /-- A traffic thread sets the times of its report and of the group when it starts. -/
  | times (i : ι) (ts sumts : ReportTimeStamps)
  /-- The reporter takes the next record of a flow from its ring. -/
  | record (i : ι) (packet : ReportStruct)

section
variable {ι : Type*}

/-- The report of a flow, with its pointer to the group report. -/
def GroupFlows.report (r : GroupFlows ι) (i : ι) : ReporterData :=
  { r.data i with groupSumReport := some r.group }

def GroupFlows.start (grp : Settings) (flows : ι → Settings) : GroupFlows ι where
  data i := initIndividualReport (flows i) none none
  done := fun _ => false
  group := initSumReport grp false

def GroupFlows.step [DecidableEq ι] (r : GroupFlows ι) : GroupFlowsEvent ι → Option (GroupFlows ι)
  | .count => some { r with group := incrSumReportRefCounter r.group }
  | .times i ts sumts =>
    if r.done i then none
    else some { r with
      data := Function.update r.data i { r.data i with info := { (r.data i).info with ts } }
      group := { r.group with info := { r.group.info with ts := sumts } } }
  | .record i packet =>
    if r.done i then none
    else
      let (data, _, final) := reporterProcessTransferReport (r.report i) packet
      some
        { data := Function.update r.data i data
          done := Function.update r.done i final
          group := data.groupSumReport.getD r.group }

/-- The reports are those of a state of the group. -/
structure GroupFlows.Follows (grp : Settings) (flows : ι → Settings) (r : GroupFlows ι)
    (s : Pool.State ι TransferInfo TransferInfo) : Prop where
  grouped : ∀ i, Grouped grp (flows i) (r.report i) r.group
  member : s.member = fun i => (r.data i).info
  done : s.done = r.done
  pool : s.pool = r.group.info

/-- Interval reports come with the time, not with frames or bursts. -/
def TimeIntervals (inSettings : Settings) : Prop :=
  inSettings.intervalMode ≠ .frames ∧ inSettings.isPeriodicBurst = false

variable {grp : Settings} {flows : ι → Settings}

theorem TimeIntervals.handlers {inSettings : Settings} (h : TimeIntervals inSettings) :
    accountsBefore inSettings = false ∧ ∀ h, initTransferIntervalHandler inSettings = some h → h = .timeInterval := by
  have hframes : (inSettings.intervalMode == .frames) = false := by simpa using h.1
  refine ⟨by simp [accountsBefore, hframes, h.2], fun handler hhandler => ?_⟩
  simp only [initTransferIntervalHandler, hframes, h.2, Bool.false_and, Bool.false_eq_true, if_false] at hhandler
  split at hhandler <;> split at hhandler <;> cases hhandler <;> rfl

theorem GroupFlows.Follows.start (htime : ∀ i, TimeIntervals (flows i)) :
    (GroupFlows.start grp flows).Follows grp flows (groupStart grp flows) where
  grouped i := by
    obtain ⟨hbefore, hinterval⟩ := (htime i).handlers
    refine ⟨rfl, ?_, ?_, hinterval, rfl, rfl⟩
    · simp [GroupFlows.report, GroupFlows.start, initIndividualReport, hbefore]
    · simp [GroupFlows.report, GroupFlows.start, initIndividualReport, hbefore]
  member := rfl
  done := rfl
  pool := rfl

variable [DecidableEq ι] {r r' : GroupFlows ι} {s₀ s s' : Pool.State ι TransferInfo TransferInfo}

/-- One flow changes, and all flows have the group report that it comes to. -/
theorem GroupFlows.Follows.update (hr : r.Follows grp flows s) {i : ι} (data : ReporterData) {group : SumReport}
    {final : Bool} (hgrouped : Grouped grp (flows i) { data with groupSumReport := some group } group)
    (hmember : s'.member = Function.update s.member i data.info) (hpool : s'.pool = group.info)
    (hdone : s'.done = Function.update s.done i final) (hdata : r'.data = Function.update r.data i data)
    (hfinal : r'.done = Function.update r.done i final) (hgroup : r'.group = group) :
    r'.Follows grp flows s' := by
  refine ⟨fun j => ?_, funext fun j => ?_, by rw [hdone, hr.done, hfinal], by rw [hpool, hgroup]⟩
  · simp only [GroupFlows.report, hdata, hgroup]
    by_cases hj : j = i
    · subst hj
      simp only [Function.update_self]
      exact hgrouped
    · simp only [Function.update_of_ne hj]
      exact (hr.grouped j).share hgrouped.sum
  · rw [hmember, hr.member, hdata]
    by_cases hj : j = i
    · subst hj
      simp only [Function.update_self]
    · simp only [Function.update_of_ne hj]

/-- The times of a flow are set before its last record. -/
theorem GroupFlows.step_times {i : ι} {ts sumts : ReportTimeStamps} (hstep : r.step (.times i ts sumts) = some r') :
    r.done i = false ∧ r' = { r with
      data := Function.update r.data i { r.data i with info := { (r.data i).info with ts } }
      group := { r.group with info := { r.group.info with ts := sumts } } } := by
  simp only [GroupFlows.step] at hstep
  split at hstep
  · cases hstep
  · rename_i hdone
    exact ⟨Bool.eq_false_iff.mpr hdone, (Option.some.inj hstep).symm⟩

/-- The reporter takes records of flows that delivered no last record yet. -/
theorem GroupFlows.step_record {i : ι} {packet : ReportStruct} (hstep : r.step (.record i packet) = some r') :
    r.done i = false ∧ r' =
      { data := Function.update r.data i (reporterProcessTransferReport (r.report i) packet).1
        done := Function.update r.done i (reporterProcessTransferReport (r.report i) packet).2.2
        group := (reporterProcessTransferReport (r.report i) packet).1.groupSumReport.getD r.group } := by
  simp only [GroupFlows.step] at hstep
  split at hstep
  · cases hstep
  · rename_i hdone
    exact ⟨Bool.eq_false_iff.mpr hdone, (Option.some.inj hstep).symm⟩

/-- A record of a flow. -/
theorem GroupFlows.Follows.record (hs : Reachable (groupSystem grp flows).step Any s₀ s)
    (hr : r.Follows grp flows s) {i : ι} (packet : ReportStruct) (hstep : r.step (.record i packet) = some r') :
    ∃ s', Reachable (groupSystem grp flows).step Any s₀ s' ∧ r'.Follows grp flows s' := by
  obtain ⟨hrunning, rfl⟩ := GroupFlows.step_record hstep
  let sampled := handleTcpistats (r.data i).info packet
  have hgrouped := (hr.grouped i).setInfo sampled
  have hrunning' : s.done i = false := by rw [hr.done, hrunning]
  have hsample : Pool.Moves (groupSystem grp flows) i (s.member i) s.pool sampled r.group.info := by
    rw [hr.member, hr.pool]
    exact moves_item .start (.tcpistats packet) (by simp)
  unfold reporterProcessTransferReport
  by_cases hlast : packet.packetID < 0
  · simp only [if_pos hlast]
    obtain ⟨group, info, sum, hgrouped', hmoves, hinfo, hadjusts⟩ := processFinalPacket_moves hgrouped packet
    obtain ⟨s', hs', hmember, hpool, hdone⟩ := (hsample.trans hmoves).final hs hrunning' hadjusts
    rw [← hinfo] at hmember
    refine ⟨s', hs', hr.update _ (hgrouped'.share hgrouped'.sum) hmember hpool hdone rfl rfl ?_⟩
    exact hgrouped'.getD_group r.group
  · simp only [if_neg hlast]
    obtain ⟨group, hgrouped', hmoves⟩ := processPacket_moves hgrouped packet
    obtain ⟨s', hs', hmember, hpool, hdone⟩ := (hsample.trans hmoves).reachable hs hrunning'
    have hdone' : s'.done = Function.update s.done i false := by
      rw [hdone, ← hrunning', Function.update_eq_self]
    refine ⟨s', hs', hr.update _ (hgrouped'.share hgrouped'.sum) hmember hpool hdone' rfl rfl ?_⟩
    exact hgrouped'.getD_group r.group

/-- **Every step of the reports of a group** is a run of its flows and its sums. -/
theorem GroupFlows.Follows.step_follows (hs : Reachable (groupSystem grp flows).step Any s₀ s)
    (hr : r.Follows grp flows s) {a : GroupFlowsEvent ι} (hstep : r.step a = some r') :
    ∃ s', Reachable (groupSystem grp flows).step Any s₀ s' ∧ r'.Follows grp flows s' := by
  cases a with
  | count =>
    obtain rfl := Option.some.inj hstep
    exact ⟨s, hs, fun i => (hr.grouped i).share (hr.grouped i).sum, hr.member, hr.done, hr.pool⟩
  | times i ts sumts =>
    obtain ⟨hrunning, rfl⟩ := GroupFlows.step_times hstep
    have hrunning' : s.done i = false := by rw [hr.done, hrunning]
    have hmoves : Pool.Moves (groupSystem grp flows) i (s.member i) s.pool { (r.data i).info with ts }
        { r.group.info with ts := sumts } := by
      rw [hr.member, hr.pool]
      exact (moves_item .start (.clock ts) (by simp)).adjust (.set sumts r.group.info.filterThisSampleOutput)
    obtain ⟨s', hs', hmember, hpool, hdone⟩ := hmoves.reachable hs hrunning'
    have hdone' : s'.done = Function.update s.done i false := by
      rw [hdone, ← hrunning', Function.update_eq_self]
    let group := { r.group with info := { r.group.info with ts := sumts } }
    have hgrouped : Grouped grp (flows i)
        { r.data i with
          info := { (r.data i).info with ts }
          groupSumReport := some group } group :=
      ((hr.grouped i).setInfo { (r.data i).info with ts }).share (hr.grouped i).sum
    refine ⟨s', hs', hr.update { r.data i with info := { (r.data i).info with ts } } hgrouped hmember hpool hdone'
      rfl ?_ rfl⟩
    rw [← hrunning, Function.update_eq_self]
  | record i packet => exact hr.record hs packet hstep

/-- **The sums of a group of the reporter.** When all flows delivered their last record, in whatever order the reporter
took their records, the group report has the sums of what they accounted. -/
theorem records_sum [Fintype ι] (hagrees : GroupAgrees grp flows) (htime : ∀ i, TimeIntervals (flows i))
    (h : Reachable GroupFlows.step Any (.start grp flows) r) (hdone : ∀ i, r.done i = true) {c : Count}
    (hc : Summed flows c) :
    c.sumTotal r.group.info = ∑ i, c.total (initTransferProtocolHandler (flows i)) (r.data i).info := by
  have hfollows : ∃ s, Reachable (groupSystem grp flows).step Any (groupStart grp flows) s ∧
      r.Follows grp flows s := by
    apply h.invariant
    · exact ⟨_, .start, .start htime⟩
    · rintro r a r' ⟨s, hs, hfollows⟩ _ hstep
      exact hfollows.step_follows hs hstep
  obtain ⟨s, hs, hfollows⟩ := hfollows
  have hdone' : ∀ i, s.done i = true := fun i => by rw [hfollows.done, hdone i]
  rw [← hfollows.pool, (group_kept hagrees hs hc).all_done hdone', hfollows.member]

end

end Iperf2.Report
