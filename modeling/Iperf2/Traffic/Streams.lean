import Iperf2.Report.FinalTime
import Iperf2.Report.Records
import Iperf2.Traffic.Delivery

/-!
# Parallel streams

The streams of a test with `-P` have a traffic thread and a packet ring each, and share a group report. The reporter
thread takes the records of all rings, whichever ring it comes to next. Seen from the reports, every step of the threads
is none of the reporter, or one of `GroupFlows` and of `Sharing`; so the sums and the count of the members are right
between the threads, too.

* `Streams.step_groupFlows`, `Streams.step_sharing` : the steps of the threads as steps of the reports;
* `Streams.Follows` : what holds in every state of every run;
* `streams_sum` : when `EndJob` returned in all streams, the group report has the sums of their accounts;
* `streams_bytes` : its last line has the bytes of all records of all traffic threads.
-/

namespace Iperf2.Traffic
open Report Transition

/-! ## The last line of a group -/

/-- The report is printed, if it has an output, with all its bytes. -/
structure Shown (s : SumReport) (printed : List Output) : Prop where
  bytes : s.info.cntBytes = s.info.total.Bytes.current
  printed : s.info.printable = true → .report s.info ∈ printed

theorem mem_output {stats : TransferInfo} (h : stats.printable = true) : .report stats ∈ stats.output := by
  rw [TransferInfo.output, if_pos h]
  exact List.mem_singleton_self _

/-- A final report of a group prints its totals. -/
theorem sumHandle_final (sum : TransferProtocolSumHandler) (stats : TransferInfo) :
    let after := sum.handle stats true
    after.1.cntBytes = after.1.total.Bytes.current ∧ (after.1.printable = true → .report after.1 ∈ after.2) := by
  cases sum with
  | sumServerUdp => exact ⟨rfl, mem_output⟩
  | sumClientUdp => exact ⟨rfl, fun hprintable => List.mem_append_left _ (mem_output hprintable)⟩
  | sumServerTcp => exact ⟨rfl, fun hprintable => List.mem_append_right _ (mem_output hprintable)⟩
  | sumClientTcp => exact ⟨rfl, fun hprintable => List.mem_append_right _ (mem_output hprintable)⟩
  | fullduplexTcp => exact ⟨rfl, fun hprintable => List.mem_append_right _ (mem_output hprintable)⟩
  | fullduplexUdp => exact ⟨rfl, fun hprintable => List.mem_append_right _ (mem_output hprintable)⟩

theorem finalSum_shown {prints : SumReport → Bool} {packetTime : Timeval} {s : SumReport}
    (hzero : (finalSum prints packetTime s).1.count = 0) (hprints : prints (s.less packetTime) = true) :
    Shown (finalSum prints packetTime s).1 (finalSum prints packetTime s).2 := by
  have hcount : (s.less packetTime).count = 0 := by rwa [(finalSum_times prints packetTime s).1] at hzero
  have hfinal : finalSum prints packetTime s =
      ({ s.less packetTime with info := (s.transferProtocolSumHandler.handle (s.less packetTime).info true).1 },
        (s.transferProtocolSumHandler.handle (s.less packetTime).info true).2) := by
    unfold finalSum
    exact if_pos ⟨hcount, hprints⟩
  rw [hfinal]
  exact ⟨(sumHandle_final _ _).1, (sumHandle_final _ _).2⟩

/-- The last record of the last flow prints the group report. -/
theorem record_shown {data : ReporterData} {packet : ReportStruct} {s s' : SumReport}
    (hs : data.groupSumReport = some s) (hlast : packet.packetID < 0)
    (hs' : (reporterProcessTransferReport data packet).1.groupSumReport = some s') (hzero : s'.count = 0)
    (hprints : 1 < s'.maxcount ∨ data.info.common.isSumOnly = true) :
    Shown s' (reporterProcessTransferReport data packet).2.1 := by
  let reported := lastReported data packet
  obtain ⟨hcommon, hhandled⟩ := lastHandled_members (k := .group) hs packet
  obtain ⟨hreported, info, hget, -⟩ := finalHandle_members hhandled
  have hgroup : reported.groupSumReport = some { s with info } := hget
  let prints (s : SumReport) : Bool := s.maxcount > 1 || reported.info.common.isSumOnly
  let final := finalSum prints packet.packetTime { s with info }
  rw [process_last hlast] at hs'
  have hfinal : (onReport (finalSum prints packet.packetTime) reported.groupSumReport).1 = some s' := hs'
  rw [hgroup] at hfinal
  obtain rfl := Option.some.inj hfinal
  have hshown : Shown final.1 final.2 := by
    apply finalSum_shown hzero
    rw [(finalSum_times prints packet.packetTime { s with info }).2.1] at hprints
    rw [← hcommon, ← hreported] at hprints
    simp only [prints, SumReport.less, Bool.or_eq_true, decide_eq_true_eq]
    exact hprints
  refine ⟨hshown.bytes, fun hprintable => ?_⟩
  rw [reporterProcessTransferReport, if_pos hlast]
  apply List.mem_append_right
  show _ ∈ (onReport (finalSum prints packet.packetTime) reported.groupSumReport).2
  rw [hgroup]
  exact hshown.printed hprintable

/-! ## The threads of a group -/

/-- The flows of a group with their threads, and the report that they share, which no flow joins any more after
`FreeSumReport`. -/
structure Streams (ι : Type*) where
  flow : ι → Pipeline
  joined : ι → Bool
  group : SumReport
  freed : Bool

inductive StreamsEvent (ι : Type*)
  /-- `InitIndividualReport` counts a flow. -/
  | join (i : ι)
  /-- `SetReportStartTime` sets the times of a flow, and the start and the end of the interval of the group. -/
  | start (i : ι) (ts : ReportTimeStamps) (startTime nextTime : Timeval)
  /-- A step of the traffic thread of a flow, or of the reporter with its job. -/
  | flow (i : ι) (e : PipelineEvent)

/-- The reporter handled the last record of the flow. -/
def finished (p : Pipeline) : Bool :=
  match p.reporter with
  | .done | .signal | .removed => true
  | .jobq | .loop | .packet => false

theorem finished_iff (p : Pipeline) : finished p = true ↔ p.reporter.Finished := by
  unfold finished
  cases p.reporter with
  | done | signal | removed => exact iff_of_true rfl trivial
  | jobq | loop | packet => exact iff_of_false Bool.false_ne_true id

namespace Streams
variable {ι : Type*}

def init (grp : Settings) (flows : ι → Settings) (count : ι → Nat) : Streams ι where
  flow i := .init (count i) (initIndividualReport (flows i) none none)
  joined := fun _ => false
  group := initSumReport grp false
  freed := false

/-- A flow with its pointer to the group report. -/
def attach (r : Streams ι) (i : ι) : Pipeline :=
  { r.flow i with data := { (r.flow i).data with groupSumReport := some r.group } }

/-- The steps of a flow alone. -/
def alone : PipelineEvent → Bool
  | .shared .. | .handle => false
  | _ => true

variable [DecidableEq ι]

def step (r : Streams ι) : StreamsEvent ι → Option (Streams ι)
  | .join i =>
    if r.joined i || r.freed then none
    else some { r with
      joined := Function.update r.joined i true
      group := incrSumReportRefCounter r.group }
  | .start i ts startTime nextTime =>
    if r.joined i then
      ((r.flow i).step (.clock ts)).map fun flow =>
        let sumts := { r.group.info.ts with
          startTime
          nextTime }
        { r with
          flow := Function.update r.flow i flow
          group := { r.group with info := { r.group.info with ts := sumts } } }
    else none
  | .flow i .handle =>
    if r.joined i then
      ((r.attach i).step .handle).map fun flow =>
        let group := flow.data.groupSumReport.getD r.group
        { r with
          flow := Function.update r.flow i flow
          group
          freed := finished flow && group.count = 0 }
    else none
  | .flow i e =>
    if r.joined i && alone e then
      ((r.flow i).step e).map fun flow => { r with flow := Function.update r.flow i flow }
    else none

/-- What a step of a flow asks of its ring and its records. -/
def Guard (r : Streams ι) : StreamsEvent ι → Prop
  | .flow i e => (r.flow i).Guard e
  | _ => True

instance (r : Streams ι) (e : StreamsEvent ι) : Decidable (r.Guard e) := by
  unfold Guard
  split <;> infer_instance

end Streams

/-! ## The reports of a group, between the threads -/

section
variable {p p' : Pipeline}

/-- Apart from the records, a flow changes its times at most. -/
theorem step_alone {e : PipelineEvent} (he : Streams.alone e = true) (hstep : p.step e = some p') :
    (p'.data = p.data ∨
      ∃ ts, p.traffic = .traffic ∧ p'.data = { p.data with info := { p.data.info with ts } }) ∧
      finished p' = finished p ∧ p'.printed = p.printed := by
  cases e with
  | handle | shared => cases he
  | reportPacket | enqueue | endJob =>
    simp only [Pipeline.step] at hstep
    split at hstep
    · obtain ⟨threads, -, rfl⟩ := Option.map_eq_some_iff.mp hstep
      exact ⟨.inl rfl, rfl, rfl⟩
    · cases hstep
  | clock ts =>
    simp only [Pipeline.step] at hstep
    split at hstep <;> cases hstep
    rename_i htraffic
    exact ⟨.inr ⟨ts, htraffic, rfl⟩, rfl, rfl⟩
  | testDone =>
    simp only [Pipeline.step] at hstep
    split at hstep
    · cases hstep
      split <;> exact ⟨.inl rfl, rfl, rfl⟩
    · cases hstep
  | dequeue =>
    simp only [Pipeline.step] at hstep
    split at hstep
    · rename_i hloop
      obtain ⟨threads, -, rfl⟩ := Option.map_eq_some_iff.mp hstep
      refine ⟨.inl rfl, ?_, rfl⟩
      by_cases hidle : threads.consumerPc = .idle <;> simp [finished, hloop, hidle]
    · cases hstep
  | advance =>
    simp only [Pipeline.step] at hstep
    split at hstep
    · rename_i hloop
      obtain ⟨threads, -, rfl⟩ := Option.map_eq_some_iff.mp hstep
      exact ⟨.inl rfl, by simp only [finished, hloop], rfl⟩
    · cases hstep
  | process | consumerdone | signal =>
    simp only [Pipeline.step] at hstep
    split at hstep <;> cases hstep
    rename_i hreporter
    exact ⟨.inl rfl, by simp only [finished, hreporter], rfl⟩

/-- The reporter handles a record of a flow that is not finished. -/
theorem step_handle (hstep : p.step .handle = some p') :
    ∃ packet, finished p = false ∧ p'.traffic = p.traffic ∧
      p'.data = (reporterProcessTransferReport p.data packet).1 ∧
      finished p' = (reporterProcessTransferReport p.data packet).2.2 ∧
      p'.printed = p.printed ++ (reporterProcessTransferReport p.data packet).2.1 := by
  simp only [Pipeline.step] at hstep
  split at hstep
  · rename_i r hpacket hheld
    cases hstep
    refine ⟨p.threads.ring.data r, by simp only [finished, hpacket], rfl, rfl, ?_, rfl⟩
    by_cases hadvance : Pipeline.advanceJobq p.data (p.threads.ring.data r) <;>
      cases hlast : (reporterProcessTransferReport p.data (p.threads.ring.data r)).2.2 <;>
        simp [finished, hadvance]
  · cases hstep

end

namespace Streams
variable {ι : Type*} {grp : Settings} {flows : ι → Settings} {r r' : Streams ι}

/-- The reports as the reporter has them. -/
def groupFlows (r : Streams ι) : GroupFlows ι where
  data i := (r.flow i).data
  done i := finished (r.flow i)
  group := r.group

/-- The members of the group. -/
def sharing (r : Streams ι) (taken : List (ι × ReportStruct)) : Sharing ι where
  data i := (r.flow i).data
  joined := r.joined
  done i := finished (r.flow i)
  shared := r.group
  freed := r.freed
  taken

variable [DecidableEq ι] {i : ι} {p : Pipeline}

/-- What is read of every flow, when one flow changes. -/
theorem map_update {β : Type*} (f : Pipeline → β) (flow : ι → Pipeline) (i : ι) (p : Pipeline) :
    (fun j => f (Function.update flow i p j)) = Function.update (fun j => f (flow j)) i (f p) := by
  funext j
  exact Function.apply_update (fun _ => f) flow i p j

/-- The reports when a flow changes, and the group with it. -/
theorem groupFlows_update (r : Streams ι) (i : ι) (p : Pipeline) (group : SumReport) (freed : Bool) :
    ({ r with
       flow := Function.update r.flow i p
       group
       freed } : Streams ι).groupFlows =
      { data := Function.update r.groupFlows.data i p.data
        done := Function.update r.groupFlows.done i (finished p)
        group } := by
  simp only [groupFlows]
  rw [map_update (·.data), map_update finished]

theorem sharing_update (r : Streams ι) (i : ι) (p : Pipeline) (group : SumReport) (freed : Bool)
    (taken : List (ι × ReportStruct)) :
    ({ r with
       flow := Function.update r.flow i p
       group
       freed } : Streams ι).sharing taken =
      { r.sharing taken with
        data := Function.update (r.sharing taken).data i p.data
        done := Function.update (r.sharing taken).done i (finished p)
        shared := group
        freed } := by
  simp only [sharing]
  rw [map_update (·.data), map_update finished]

/-- A flow that goes on without a report. -/
theorem update_same (r : Streams ι) (hdata : p.data = (r.flow i).data) (hfinished : finished p = finished (r.flow i))
    (taken : List (ι × ReportStruct)) :
    ({ r with flow := Function.update r.flow i p } : Streams ι).groupFlows = r.groupFlows ∧
      ({ r with flow := Function.update r.flow i p } : Streams ι).sharing taken = r.sharing taken := by
  have hdata' : p.data = r.groupFlows.data i := hdata
  have hfinished' : finished p = r.groupFlows.done i := hfinished
  rw [groupFlows_update r i p r.group r.freed, sharing_update r i p r.group r.freed, hdata', hfinished']
  refine ⟨?_, ?_⟩
  · rw [Function.update_eq_self, Function.update_eq_self]
    rfl
  · have hsame : r.groupFlows.data i = (r.sharing taken).data i := rfl
    have hdone : r.groupFlows.done i = (r.sharing taken).done i := rfl
    rw [hsame, hdone, Function.update_eq_self, Function.update_eq_self]
    rfl

/-- New times of a running flow and of the group. -/
theorem step_times {ts : ReportTimeStamps} (startTime nextTime : Timeval) (hjoined : r.joined i = true)
    (hopen : r.freed = false) (hrunning : finished (r.flow i) = false) (hfinished : finished p = false)
    (hdata : p.data = { (r.flow i).data with info := { (r.flow i).data.info with ts } })
    (taken : List (ι × ReportStruct)) :
    let sumts := { r.group.info.ts with
      startTime
      nextTime }
    let after : Streams ι := { r with
      flow := Function.update r.flow i p
      group := { r.group with info := { r.group.info with ts := sumts } } }
    r.groupFlows.step (.times i ts sumts) = some after.groupFlows ∧
      (r.sharing taken).step .group (.start i ts startTime nextTime) = some (after.sharing taken) := by
  intro sumts after
  have hdone : r.groupFlows.done i = false := hrunning
  have hmember : (r.sharing taken).done i = false := hrunning
  simp only [after]
  rw [groupFlows_update, sharing_update, hdata, hfinished]
  refine ⟨?_, ?_⟩
  · rw [← hdone, Function.update_eq_self]
    exact if_neg (by rw [hdone]; decide)
  · rw [← hmember, Function.update_eq_self]
    refine if_pos ?_
    simp only [Sharing.running, hmember]
    simp [sharing, hjoined, hopen]

/-- A record of a running flow. -/
theorem step_record {packet : ReportStruct} (hjoined : r.joined i = true) (hopen : r.freed = false)
    (hrunning : finished (r.flow i) = false)
    (hdata : p.data = (reporterProcessTransferReport (r.attach i).data packet).1)
    (hfinished : finished p = (reporterProcessTransferReport (r.attach i).data packet).2.2)
    (taken : List (ι × ReportStruct)) :
    let group := p.data.groupSumReport.getD r.group
    let after : Streams ι := { r with
      flow := Function.update r.flow i p
      group
      freed := finished p && group.count = 0 }
    r.groupFlows.step (.record i packet) = some after.groupFlows ∧
      (r.sharing taken).step .group (.record i (r.flow i).data.fullDuplexReport packet) =
        some (after.sharing (taken ++ [(i, packet)])) := by
  intro group after
  have hdone : r.groupFlows.done i = false := hrunning
  have hmember : (r.sharing taken).done i = false := hrunning
  have hlast : finished p = decide (packet.packetID < 0) := by
    rw [hfinished, Bool.eq_iff_iff, processTransferReport_last, decide_eq_true_iff]
  simp only [after, group]
  rw [groupFlows_update, sharing_update]
  refine ⟨?_, ?_⟩
  · rw [hfinished, hdata]
    exact if_neg (by rw [hdone]; decide)
  · have hrun : ((r.sharing taken).running i && !(r.sharing taken).freed) = true := by
      simp only [Sharing.running, hmember]
      simp [sharing, hjoined, hopen]
    simp only [Sharing.step, hrun, if_true, hlast, hdata]
    refine congrArg some (Sharing.mk.injEq .. ▸ ⟨rfl, rfl, ?_, rfl, Bool.decide_and .., rfl⟩)
    split
    · rename_i hneg
      rw [decide_eq_true hneg]
      rfl
    · rename_i hnonneg
      rw [decide_eq_false hnonneg, ← hmember]
      exact (Function.update_eq_self i _).symm

/-- What holds between the threads: every flow has a run of its sequential reporter, the reports have runs of their
sums and of their members, and the group is freed when its members are done, with its last line printed. -/
structure Follows (grp : Settings) (flows : ι → Settings) (r : Streams ι) : Prop where
  flowing : ∀ i, ∃ turns, Flowing (initIndividualReport (flows i) none none) (r.flow i) turns
  apart : ∀ i, r.joined i = false → (r.flow i).traffic = .traffic
  sums : Reachable GroupFlows.step Any (.start grp flows) r.groupFlows
  members : ∃ taken, Reachable (Sharing.step .group) Any (.init .group grp flows) (r.sharing taken)
  freed : (∃ i, finished (r.flow i) = true) → (∀ i, r.joined i = true → finished (r.flow i) = true) → r.freed = true
  shown : r.freed = true → (1 < r.group.maxcount ∨ ∀ i, (flows i).isSumOnly = true) →
    ∃ i, Shown r.group (r.flow i).printed

namespace Follows

theorem init (grp : Settings) (flows : ι → Settings) {count : ι → Nat} (hcount : ∀ i, 2 ≤ count i) :
    (Streams.init grp flows count).Follows grp flows where
  flowing i := ⟨[], .init (hcount i) _⟩
  apart _ _ := rfl
  sums := .start
  members := ⟨[], .start⟩
  freed hfinished _ := by
    obtain ⟨i, hi⟩ := hfinished
    cases hi
  shown hfreed _ := by cases hfreed

/-- A flow that runs is not finished. -/
theorem not_finished (h : r.Follows grp flows) (htraffic : (r.flow i).traffic = .traffic) :
    finished (r.flow i) = false := by
  obtain ⟨turns, hflow⟩ := h.flowing i
  rw [Bool.eq_false_iff]
  exact mt (finished_iff _).mp (hflow.not_finished htraffic)

/-- The flow that changes has a run, and the others keep theirs. -/
theorem flowing_update (h : r.Follows grp flows)
    (hp : ∃ turns, Flowing (initIndividualReport (flows i) none none) p turns) (j : ι) :
    ∃ turns, Flowing (initIndividualReport (flows j) none none) (Function.update r.flow i p j) turns := by
  by_cases hj : j = i
  · subst hj
    rw [Function.update_self]
    exact hp
  · rw [Function.update_of_ne hj]
    exact h.flowing j

theorem apart_update (h : r.Follows grp flows) (hjoined : r.joined i = true) (j : ι) (hj : r.joined j = false) :
    (Function.update r.flow i p j).traffic = .traffic := by
  have hne : j ≠ i := by
    rintro rfl
    rw [hjoined] at hj
    cases hj
  rw [Function.update_of_ne hne]
  exact h.apart j hj

variable [Fintype ι]

/-- The members of the group are counted. -/
theorem counted {s : Sharing ι} (hs : Reachable (Sharing.step .group) Any (.init .group grp flows) s) :
    s.Follows .group flows := by
  apply hs.invariant
  · exact .init .group grp flows
  · intro s e s' hfollows _ hstep
    refine hfollows.next ?_ hstep
    intro hduplex
    cases hduplex

omit [DecidableEq ι] in
theorem count_zero {taken : List (ι × ReportStruct)} (hcount : (r.sharing taken).Follows .group flows) :
    r.group.count = 0 ↔ ∀ i, r.joined i = true → finished (r.flow i) = true := by
  have hcard : r.group.count = ((r.sharing taken).members.card : Int) := hcount.count
  rw [hcard, Int.natCast_eq_zero, Finset.card_eq_zero]
  simp [Sharing.members, Sharing.running, sharing, Finset.filter_eq_empty_iff]

/-- As long as a member runs the group is not freed. -/
theorem still_open (h : r.Follows grp flows) (hjoined : r.joined i = true) (hrunning : finished (r.flow i) = false) :
    r.freed = false := by
  by_contra hfreed
  rw [Bool.not_eq_false] at hfreed
  obtain ⟨taken, htaken⟩ := h.members
  have hfinished := (count_zero (counted htaken)).mp ((counted htaken).freed hfreed).1 i hjoined
  rw [hrunning] at hfinished
  cases hfinished

omit [Fintype ι] in
theorem join (h : r.Follows grp flows) (hjoined : r.joined i = false) (hopen : r.freed = false) :
    ({ r with
       joined := Function.update r.joined i true
       group := incrSumReportRefCounter r.group } : Streams ι).Follows grp flows := by
  refine ⟨h.flowing, fun j hj => h.apart j ?_, h.sums.next .count trivial rfl, ?_, fun _ hall => ?_, fun hfreed => ?_⟩
  · by_cases hne : j = i
    · subst hne
      exact hjoined
    · exact (Function.update_of_ne hne ..).symm.trans hj
  · obtain ⟨taken, htaken⟩ := h.members
    refine ⟨taken, htaken.next (.join i) trivial ?_⟩
    simp [Sharing.step, sharing, hjoined, hopen]
  · -- the flow that joins has not begun
    have hfinished := hall i (Function.update_self ..)
    rw [h.not_finished (h.apart i hjoined)] at hfinished
    cases hfinished
  · exact absurd hfreed (by simp [hopen])

/-- New times of a flow, and of the group with them. -/
theorem times (h : r.Follows grp flows) {ts : ReportTimeStamps} (startTime nextTime : Timeval)
    (hjoined : r.joined i = true) (htraffic : (r.flow i).traffic = .traffic)
    (hnext : ∃ turns, Flowing (initIndividualReport (flows i) none none) p turns)
    (hfinished : finished p = finished (r.flow i))
    (hdata : p.data = { (r.flow i).data with info := { (r.flow i).data.info with ts } }) :
    let sumts := { r.group.info.ts with
      startTime
      nextTime }
    ({ r with
       flow := Function.update r.flow i p
       group := { r.group with info := { r.group.info with ts := sumts } } } : Streams ι).Follows grp flows := by
  intro sumts
  have hrunning := h.not_finished htraffic
  have hopen := h.still_open hjoined hrunning
  obtain ⟨taken, htaken⟩ := h.members
  have hafter : finished p = false := hfinished.trans hrunning
  obtain ⟨hsums, hmembers⟩ := step_times startTime nextTime hjoined hopen hrunning hafter hdata taken
  refine ⟨h.flowing_update hnext, h.apart_update hjoined, h.sums.next _ trivial hsums,
    ⟨taken, htaken.next _ trivial hmembers⟩, fun _ hall => ?_, fun hfreed => ?_⟩
  · -- the flow itself is not finished
    have hlast := hall i hjoined
    simp only [Function.update_self] at hlast
    rw [hfinished, hrunning] at hlast
    cases hlast
  · exact absurd hfreed (by simp [hopen])

/-- A step of a flow that is no record. -/
theorem alone (h : r.Follows grp flows) {e : PipelineEvent} (he : Streams.alone e = true) (hjoined : r.joined i = true)
    (guard : (r.flow i).Guard e) (hstep : (r.flow i).step e = some p) :
    ({ r with flow := Function.update r.flow i p } : Streams ι).Follows grp flows := by
  obtain ⟨hdata, hfinished, hprinted⟩ := step_alone he hstep
  obtain ⟨turns, hflow⟩ := h.flowing i
  rcases hdata with hsame | ⟨ts, htraffic, htimes⟩
  · obtain ⟨taken, htaken⟩ := h.members
    obtain ⟨hsums, hmembers⟩ := r.update_same hsame hfinished taken
    have hall : ∀ j, finished (Function.update r.flow i p j) = finished (r.flow j) := fun j => by
      by_cases hj : j = i
      · subst hj
        rw [Function.update_self, hfinished]
      · rw [Function.update_of_ne hj]
    refine ⟨h.flowing_update (hflow.next guard hstep), h.apart_update hjoined, hsums ▸ h.sums,
      ⟨taken, hmembers ▸ htaken⟩, fun hsome hjoined => h.freed ?_ fun j hj => ?_, fun hfreed hprints => ?_⟩
    · obtain ⟨j, hj⟩ := hsome
      exact ⟨j, (hall j).symm.trans hj⟩
    · exact (hall j).symm.trans (hjoined j hj)
    · obtain ⟨j, hj⟩ := h.shown hfreed hprints
      refine ⟨j, ?_⟩
      by_cases hne : j = i
      · subst hne
        simp only [Function.update_self]
        rw [hprinted]
        exact hj
      · simp only [Function.update_of_ne hne]
        exact hj
  · exact h.times r.group.info.ts.startTime r.group.info.ts.nextTime hjoined htraffic (hflow.next guard hstep)
      hfinished htimes

omit [Fintype ι] in
/-- The flow with its pointer to the group has a run. -/
theorem attach (h : r.Follows grp flows) (hrunning : finished (r.flow i) = false) :
    ∃ turns, Flowing (initIndividualReport (flows i) none none) (r.attach i) turns := by
  obtain ⟨turns, hflow⟩ := h.flowing i
  have hnot : ¬ (r.flow i).reporter.Finished := mt (finished_iff _).mpr (Bool.eq_false_iff.mp hrunning)
  exact ⟨_, hflow.turn hnot (t := .shared (some r.group) (r.flow i).data.fullDuplexReport) rfl rfl⟩

/-- The reporter handles a record. -/
theorem handle (h : r.Follows grp flows) (hjoined : r.joined i = true) (hstep : (r.attach i).step .handle = some p) :
    let group := p.data.groupSumReport.getD r.group
    ({ r with
       flow := Function.update r.flow i p
       group
       freed := finished p && group.count = 0 } : Streams ι).Follows grp flows := by
  intro group
  obtain ⟨packet, hrunning, htraffic, hdata, hfinished, hprinted⟩ := step_handle hstep
  have hopen := h.still_open hjoined hrunning
  obtain ⟨turns, hflow⟩ := h.attach hrunning
  obtain ⟨taken, htaken⟩ := h.members
  obtain ⟨hsums, hmembers⟩ := step_record hjoined hopen hrunning hdata hfinished taken
  have hnext := htaken.next _ trivial hmembers
  refine ⟨h.flowing_update (hflow.next (e := .handle) trivial hstep), h.apart_update hjoined,
    h.sums.next _ trivial hsums, ⟨_, hnext⟩, fun _ hall => ?_, fun hfreed hprints => ⟨i, ?_⟩⟩
  · -- all members are finished, this one too
    have hlast := hall i hjoined
    simp only [Function.update_self] at hlast
    rw [hlast, Bool.true_and, decide_eq_true_iff]
    exact (count_zero (counted hnext)).mpr hall
  · simp only [Bool.and_eq_true, decide_eq_true_eq] at hfreed
    obtain ⟨hlast, hzero⟩ := hfreed
    rw [hfinished, processTransferReport_last] at hlast
    have hattached : Shared.group.get (r.attach i).data = some r.group := rfl
    obtain ⟨-, s', hs', -, -, -, -⟩ := record_final_time hattached hlast fun hduplex => nomatch hduplex
    have hgroup : group = s' := by
      simp only [group]
      rw [hdata]
      exact congrArg (·.getD r.group) hs'
    have hshown : Shown s' (reporterProcessTransferReport (r.attach i).data packet).2.1 := by
      refine record_shown rfl hlast hs' (hgroup ▸ hzero) ?_
      rcases hprints with hseveral | hsumonly
      · exact .inl (hgroup ▸ hseveral)
      · refine .inr ?_
        have hcommon : (r.attach i).data.info.common = commonCopy (flows i) := (counted htaken).common i
        rw [hcommon]
        exact hsumonly i
    simp only [Function.update_self]
    rw [hprinted, hgroup]
    exact ⟨hshown.bytes, fun hprintable => List.mem_append_right _ (hshown.printed hprintable)⟩

/-- **Every step of the threads** keeps the reports of the group. -/
theorem next (h : r.Follows grp flows) {e : StreamsEvent ι} (guard : r.Guard e) (hstep : r.step e = some r') :
    r'.Follows grp flows := by
  cases e with
  | join i =>
    simp only [Streams.step] at hstep
    split at hstep
    · cases hstep
    · rename_i hopen
      obtain rfl := Option.some.inj hstep
      rw [Bool.or_eq_true, not_or, Bool.not_eq_true, Bool.not_eq_true] at hopen
      exact h.join hopen.1 hopen.2
  | start i ts startTime nextTime =>
    simp only [Streams.step] at hstep
    split at hstep
    · rename_i hjoined
      obtain ⟨p, hp, rfl⟩ := Option.map_eq_some_iff.mp hstep
      obtain ⟨turns, hflow⟩ := h.flowing i
      have hnext := hflow.next (e := .clock ts) trivial hp
      simp only [Pipeline.step] at hp
      split at hp <;> cases hp
      rename_i htraffic
      exact h.times startTime nextTime hjoined htraffic hnext rfl rfl
    · cases hstep
  | flow i e =>
    by_cases he : e = .handle
    · subst he
      simp only [Streams.step] at hstep
      split at hstep
      · rename_i hjoined
        obtain ⟨p, hp, rfl⟩ := Option.map_eq_some_iff.mp hstep
        exact h.handle hjoined hp
      · cases hstep
    · simp only [Streams.step] at hstep
      split at hstep
      · rename_i hjoined
        obtain ⟨p, hp, rfl⟩ := Option.map_eq_some_iff.mp hstep
        rw [Bool.and_eq_true] at hjoined
        exact h.alone hjoined.2 hjoined.1 guard hp
      · cases hstep

theorem of_reachable {count : ι → Nat} (hcount : ∀ i, 2 ≤ count i)
    (hr : Reachable Streams.step Streams.Guard (.init grp flows count) r) : r.Follows grp flows := by
  apply hr.invariant
  · exact init grp flows hcount
  · intro r e r' h guard hstep
    exact h.next guard hstep

omit [Fintype ι] in
/-- Behind `EndJob` all flows have joined, and their last records are handled. -/
theorem all_finished (h : r.Follows grp flows) (hended : ∀ i, (r.flow i).traffic = .ended) (i : ι) :
    finished (r.flow i) = true := by
  obtain ⟨turns, hflow⟩ := h.flowing i
  exact (finished_iff _).mpr (hflow.ended (hended i)).1.finished

end Follows

end Streams

/-! ## The sums of all streams -/

section
variable {ι : Type*} [DecidableEq ι] [Fintype ι] {grp : Settings} {flows : ι → Settings}

/-- Two streams of a TCP server, each with a ring of three slots. -/
def twoStreams : Streams Bool := .init tcpServer (fun _ => tcpServer) fun _ => 3

/-- Both streams post a record and end, and the reporter takes their records in turns. -/
def bothFlows : List (StreamsEvent Bool) :=
  [.join false, .join true] ++ shortFlow.flatMap fun e => [.flow false e, .flow true e]

theorem twoStreams_run : ∃ r, Reachable Streams.step Streams.Guard twoStreams r ∧
    (∀ i, (r.flow i).traffic = .ended) ∧ r.group.maxcount = 2 ∧ r.group.info.sockCallstats.totcntRead = 2 ∧
      r.group.info.total.Bytes.current = 200 ∧ r.group.info.printable = true := by
  have hrun : (run Streams.step Streams.Guard twoStreams bothFlows).map (fun r =>
      ((r.flow false).traffic, (r.flow true).traffic, r.group.maxcount, r.group.info.sockCallstats.totcntRead,
        r.group.info.total.Bytes.current, r.group.info.printable)) =
      some (.ended, .ended, 2, 2, 200, true) := by decide +kernel
  obtain ⟨r, hr, hvalues⟩ := Option.map_eq_some_iff.mp hrun
  simp only [Prod.mk.injEq] at hvalues
  obtain ⟨hfalse, htrue, hvalues⟩ := hvalues
  refine ⟨r, .of_run _ _ .start hr, fun i => ?_, hvalues⟩
  cases i with
  | false => exact hfalse
  | true => exact htrue

theorem twoStreams_agree : GroupAgrees tcpServer fun _ : Bool => tcpServer := fun _ _ => .inr (.inr rfl)

theorem tcpServer_intervals : TimeIntervals tcpServer := ⟨by decide, rfl⟩

/-- The bytes of a group are the sums of its flows, also when the handlers do not agree. -/
theorem records_bytes (htime : ∀ i, TimeIntervals (flows i)) {g : GroupFlows ι}
    (hg : Reachable GroupFlows.step Any (.start grp flows) g) (hdone : ∀ i, g.done i = true) :
    g.group.info.total.Bytes.current = ∑ i, (g.data i).info.total.Bytes.current := by
  have hfollows : ∃ s, Reachable (groupSystem grp flows).step Any (groupStart grp flows) s ∧
      g.Follows grp flows s := by
    apply hg.invariant
    · exact ⟨_, .start, .start htime⟩
    · rintro g a g' ⟨s, hs, hfollows⟩ _ hstep
      exact hfollows.step_follows hs hstep
  obtain ⟨s, hs, hfollows⟩ := hfollows
  have hfresh i := initIndividualReport_fresh (flows i) none none
  have hconserves := group_conserves grp flows (c := .Bytes) (fun i => .inl rfl) (.inl rfl)
  have hkept := hconserves.kept (.start (fun i => ⟨(hfresh i).isUDP, (hfresh i).sampled⟩)
    (fun i => (Count.Bytes.fresh (hfresh i)).2) ?_) hs
  · have hsum := hkept.all_done fun i => by rw [hfollows.done, hdone i]
    rw [hfollows.pool, hfollows.member] at hsum
    refine hsum.trans (Finset.sum_congr rfl fun i _ => ?_)
    cases initTransferProtocolHandler (flows i) <;> rfl
  · rw [initSumReport_sumTotal]
    exact (Finset.sum_eq_zero fun i _ => (Count.Bytes.fresh (hfresh i)).1).symm

theorem TimedFlow.of_settings {inSettings : Settings} (h : TimeIntervals inSettings) :
    TimedFlow (initTransferProtocolHandler inSettings) (initIndividualReport inSettings none none) := by
  obtain ⟨hbefore, hinterval⟩ := h.handlers
  refine ⟨?_, ?_, rfl, hinterval⟩
  · simp [initIndividualReport, hbefore]
  · simp [initIndividualReport, hbefore]

/-- Behind `EndJob` the total of a flow has the bytes of its records. -/
theorem ended_total {handler : TransferProtocolHandler} {data : ReporterData} {p : Pipeline} {turns : List Turn}
    (h : TimedFlow handler data) (hflow : Flowing data p turns) (hended : p.traffic = .ended)
    (hplain : ∀ packet ∈ p.threads.enqueued, Plain handler.packetHandler packet) :
    p.data.info.total.Bytes.current =
      data.info.total.Bytes.current + sumBytes handler.packetHandler p.threads.enqueued := by
  obtain ⟨events, finalpacket, henqueued, hinfo, -⟩ := ended_flow h hflow hended
  let stats := flowRun handler data.info events
  let final := finalReport handler stats (endPacket finalpacket)
  have htotal : (handler.parts.reset final true).total.Bytes.current = final.cntBytes := by
    have hkept := (Count.final (c := .Bytes) (.inl rfl : handler.Counts .Bytes)
      (lastStats handler stats (endPacket finalpacket))).2
    rw [finalReport_cntBytes]
    cases handler <;> exact hkept
  rw [henqueued] at hplain ⊢
  rw [hinfo, htotal, ended_bytes events finalpacket hplain]

/-- The group report has these bytes, and so has its last line. It is printed when there were several flows at a time,
or only sums are shown, and the group report has an output. -/
structure Line (flows : ι → Settings) (r : Streams ι) (bytes : Int) : Prop where
  total : r.group.info.total.Bytes.current = bytes
  cntBytes : 1 < r.group.maxcount ∨ (∀ i, (flows i).isSumOnly = true) → r.group.info.cntBytes = bytes
  printed : 1 < r.group.maxcount ∨ (∀ i, (flows i).isSumOnly = true) → r.group.info.printable = true →
    ∃ i, .report r.group.info ∈ (r.flow i).printed

/-- When `EndJob` returned in all flows the last line has the bytes of all records. -/
theorem Streams.Follows.line [Nonempty ι] {r : Streams ι} (h : r.Follows grp flows)
    (htime : ∀ i, TimeIntervals (flows i)) (hended : ∀ i, (r.flow i).traffic = .ended)
    (hplain : ∀ i, ∀ packet ∈ (r.flow i).threads.enqueued,
      Plain (initTransferProtocolHandler (flows i)).packetHandler packet) :
    r.freed = true ∧ Line flows r
      (∑ i, sumBytes (initTransferProtocolHandler (flows i)).packetHandler (r.flow i).threads.enqueued) := by
  have hfinished := h.all_finished hended
  have hfreed := h.freed ⟨Classical.arbitrary ι, hfinished _⟩ fun i _ => hfinished i
  have htotal : r.group.info.total.Bytes.current =
      ∑ i, sumBytes (initTransferProtocolHandler (flows i)).packetHandler (r.flow i).threads.enqueued := by
    refine (records_bytes htime h.sums hfinished).trans (Finset.sum_congr rfl fun i _ => ?_)
    obtain ⟨turns, hflow⟩ := h.flowing i
    exact (ended_total (.of_settings (htime i)) hflow (hended i) (hplain i)).trans (zero_add _)
  refine ⟨hfreed, htotal, fun hprints => ?_, fun hprints hprintable => ?_⟩
  · obtain ⟨i, hshown⟩ := h.shown hfreed hprints
    exact hshown.bytes.trans htotal
  · obtain ⟨i, hshown⟩ := h.shown hfreed hprints
    exact ⟨i, hshown.printed hprintable⟩

end

end Iperf2.Traffic
