import Iperf2.Report.Run
import Iperf2.Lib.Tally
import Mathlib.Algebra.BigOperators.Fin

/-!
# The bins of the reads of a TCP server

A report has eight bins for the sizes of reads. Their width is an eighth of the buffer length, rounded down when the
report is made; a read past the last bin is counted in none.

* `binned_iff` : a read is counted in one bin just if eight bins reach up to it;
* `readBins_iff` : all reads of a flow are, and the bins sum up to the reads, just if no read is larger than eight times
  the eighth of the buffer.
-/

namespace Iperf2.Report
open Tally

/-! ## One read -/

/-- The handling of a read divides by a width that is not zero and counts it in one bin. -/
def Binned (stats : TransferInfo) (packet : ReportStruct) : Prop :=
  stats.sockCallstats.binsize ≠ 0 ∧ ∃ ix : Fin 8,
    (reporterHandlePacketServerTcp stats packet).sockCallstats.bins = bump stats.sockCallstats.bins ix ∧
    (reporterHandlePacketServerTcp stats packet).sockCallstats.totbins = bump stats.sockCallstats.totbins ix

section
variable {stats : TransferInfo} {packet : ReportStruct}

/-- The read counts after a read. -/
theorem handlePacketServerTcp_read (stats : TransferInfo) (h : 0 < packet.packetLen) :
    let bin := (packet.packetLen - 1) / stats.sockCallstats.binsize
    let count (bins : Fin 8 → Int) : Fin 8 → Int := fun ix => if bin = (ix : Nat) then bins ix + 1 else bins ix
    (reporterHandlePacketServerTcp stats packet).sockCallstats = { stats.sockCallstats with
      cntRead := stats.sockCallstats.cntRead + 1
      totcntRead := stats.sockCallstats.totcntRead + 1
      bins := count stats.sockCallstats.bins
      totbins := count stats.sockCallstats.totbins } := by
  unfold reporterHandlePacketServerTcp
  rw [if_pos h]
  simp only
  split
  · exact (burstTcpServer_keeps _ packet).2.2
  · rfl

/-- A count in bin `bin` bumps it if it is one of the eight. -/
theorem count_eq_bump (bin : Int) (ix : Fin 8) (h : bin = (ix : Nat)) (bins : Fin 8 → Int) :
    (fun j : Fin 8 => if bin = (j : Nat) then bins j + 1 else bins j) = bump bins ix := by
  funext j
  have hj : bin = (j : Nat) ↔ j = ix := by
    rw [h, Nat.cast_inj, Fin.val_inj]
    exact eq_comm
  simp only [hj, bump]

theorem div_lt_eight {len size : Int} (h : 0 < size) : (len - 1) / size < 8 ↔ len ≤ 8 * size := by
  rw [Int.ediv_lt_iff_lt_mul h]
  omega

/-- **One read** is counted in one bin just if the eight bins reach up to it. -/
theorem binned_iff (hsize : 0 ≤ stats.sockCallstats.binsize) (hlen : 0 < packet.packetLen) :
    Binned stats packet ↔ packet.packetLen ≤ 8 * stats.sockCallstats.binsize := by
  have hread := handlePacketServerTcp_read stats hlen
  constructor
  · rintro ⟨hne, ix, hbins, -⟩
    have hpos : 0 < stats.sockCallstats.binsize := by omega
    by_contra hlarge
    have height : ¬ (packet.packetLen - 1) / stats.sockCallstats.binsize < 8 := by rwa [div_lt_eight hpos]
    -- no bin has this number
    have hsame := congrFun hbins ix
    rw [hread, bump_self] at hsame
    simp only at hsame
    rw [if_neg (by have := ix.isLt; omega)] at hsame
    omega
  · intro hle
    have hpos : 0 < stats.sockCallstats.binsize := by omega
    have height := (div_lt_eight hpos).mpr hle
    have hnonneg : 0 ≤ (packet.packetLen - 1) / stats.sockCallstats.binsize :=
      Int.ediv_nonneg (by omega) hpos.le
    let ix : Fin 8 := ⟨((packet.packetLen - 1) / stats.sockCallstats.binsize).toNat, by omega⟩
    have hix : (packet.packetLen - 1) / stats.sockCallstats.binsize = (ix : Nat) := (Int.toNat_of_nonneg hnonneg).symm
    refine ⟨hpos.ne', ix, ?_, ?_⟩
    · rw [hread]
      exact count_eq_bump _ ix hix _
    · rw [hread]
      exact count_eq_bump _ ix hix _

end

/-! ## Flows -/

/-- What a flow of a server keeps: no sampled statistics overwrite the union, and the width of the bins is fixed. -/
structure FixedBins (size : Int) (stats : TransferInfo) : Prop where
  sampled : stats.common.enableSampleTCPstats = false
  binsize : stats.sockCallstats.binsize = size

/-- The events of which every read is counted in one bin. -/
def ReadsBinned (stats : TransferInfo) (events : List FlowEvent) : Prop :=
  ∀ before packet after, events = before ++ .packet packet :: after → 0 < packet.packetLen →
    Binned (flowRun .serverTcp stats before) packet

/-- The total bins sum up to the number of reads. -/
def SumsUp (stats : TransferInfo) : Prop := ∑ ix, stats.sockCallstats.totbins ix = stats.sockCallstats.totcntRead

section
variable {size : Int} {stats : TransferInfo}

theorem FixedBins.step (h : FixedBins size stats) (e : FlowEvent) : FixedBins size (flowStep .serverTcp stats e) := by
  cases e with
  | packet packet =>
    obtain ⟨bytes, bins, hcommon, -, hsock⟩ := handlePacketServerTcp_spec stats packet
    refine ⟨?_, ?_⟩
    · simp only [flowStep, TransferProtocolHandler.packetHandler, PacketHandler.handle, hcommon]
      exact h.sampled
    · simp only [flowStep, TransferProtocolHandler.packetHandler, PacketHandler.handle, hsock]
      exact h.binsize
  | tcpistats packet =>
    have hnone : handleTcpistats stats packet = stats := by simp [handleTcpistats, h.sampled]
    rw [flowStep, hnone]
    exact h
  | interval => exact ⟨h.sampled, h.binsize⟩
  | clock ts => exact ⟨h.sampled, h.binsize⟩

theorem FixedBins.run (h : FixedBins size stats) (events : List FlowEvent) :
    FixedBins size (flowRun .serverTcp stats events) := by
  induction events generalizing stats with
  | nil => exact h
  | cons e events ih => exact ih (h.step e)

/-- A read that is counted in one bin keeps the sum, and so does every other event. -/
theorem SumsUp.step (hsum : SumsUp stats) (h : FixedBins size stats) {e : FlowEvent}
    (hread : ∀ packet, e = .packet packet → 0 < packet.packetLen → Binned stats packet) :
    SumsUp (flowStep .serverTcp stats e) := by
  cases e with
  | packet packet =>
    by_cases hlen : 0 < packet.packetLen
    · obtain ⟨-, ix, -, htotbins⟩ := hread packet rfl hlen
      simp only [SumsUp, flowStep, TransferProtocolHandler.packetHandler, PacketHandler.handle]
      rw [htotbins, sum_bump, if_pos (Finset.mem_univ ix), hsum, handlePacketServerTcp_read stats hlen]
    · have hnone : reporterHandlePacketServerTcp stats packet = stats := if_neg hlen
      simp only [flowStep, TransferProtocolHandler.packetHandler, PacketHandler.handle, hnone]
      exact hsum
  | tcpistats packet =>
    have hnone : handleTcpistats stats packet = stats := by simp [handleTcpistats, h.sampled]
    rw [flowStep, hnone]
    exact hsum
  | interval => exact hsum
  | clock ts => exact hsum

theorem SumsUp.run (hsum : SumsUp stats) (h : FixedBins size stats) {events : List FlowEvent}
    (hreads : ReadsBinned stats events) : SumsUp (flowRun .serverTcp stats events) := by
  induction events generalizing stats with
  | nil => exact hsum
  | cons e events ih =>
    apply ih
    · apply hsum.step h
      rintro packet rfl hlen
      exact hreads [] packet events rfl hlen
    · exact h.step e
    · intro before packet after heq hlen
      exact hreads (e :: before) packet after (by rw [heq]; rfl) hlen

/-- Every read is counted in one bin just if the bins reach up to all of them. -/
theorem readsBinned_iff (h : FixedBins size stats) (hsize : 0 ≤ size) (events : List FlowEvent) :
    ReadsBinned stats events ↔
      ∀ packet, FlowEvent.packet packet ∈ events → 0 < packet.packetLen → packet.packetLen ≤ 8 * size := by
  have hiff : ∀ before packet, 0 < packet.packetLen →
      (Binned (flowRun .serverTcp stats before) packet ↔ packet.packetLen ≤ 8 * size) := by
    intro before packet hlen
    have hbefore := (h.run before).binsize
    rw [binned_iff (by omega) hlen, hbefore]
  constructor
  · intro hreads packet hmem hlen
    obtain ⟨before, after, heq⟩ := List.append_of_mem hmem
    exact (hiff before packet hlen).mp (hreads before packet after heq hlen)
  · intro hall before packet after heq hlen
    apply (hiff before packet hlen).mpr
    apply hall packet _ hlen
    rw [heq]
    exact List.mem_append_right _ List.mem_cons_self

end

section
variable (inSettings : Settings) (groupSumReport fullDuplexReport : Option SumReport)

theorem initIndividualReport_fixedBins (h : inSettings.threadMode = .server) :
    FixedBins (inSettings.bufLen / 8) (initIndividualReport inSettings groupSumReport fullDuplexReport).info where
  sampled := by simp [initIndividualReport, commonCopy, h]
  binsize := if_pos h

/-- **The read bins.** No read divides by zero, every read is counted in one bin and the total bins sum up to the reads
just if no read is larger than eight times the eighth of the buffer, rounded down. -/
theorem readBins_iff (hserver : inSettings.threadMode = .server) (hbufLen : 1 ≤ inSettings.bufLen)
    (events : List FlowEvent) :
    let stats := (initIndividualReport inSettings groupSumReport fullDuplexReport).info
    ReadsBinned stats events ∧ SumsUp (flowRun .serverTcp stats events) ↔
      ∀ packet, FlowEvent.packet packet ∈ events → 0 < packet.packetLen →
        packet.packetLen ≤ 8 * (inSettings.bufLen / 8) := by
  intro stats
  have hfixed : FixedBins (inSettings.bufLen / 8) stats :=
    initIndividualReport_fixedBins inSettings groupSumReport fullDuplexReport hserver
  have hzero : SumsUp stats := Finset.sum_eq_zero fun _ _ => rfl
  rw [← readsBinned_iff hfixed (by omega)]
  exact ⟨fun hall => hall.1, fun hreads => ⟨hreads, hzero.run hfixed hreads⟩⟩

end

/-- A record of a read. -/
def readPacket (packetLen : Int) : ReportStruct := { (default : ReportStruct) with packetLen }

def serverSettings (bufLen : Int) : Settings :=
  { (default : Settings) with
    threadMode := .server
    bufLen }

theorem readBins_sixteen :
    let stats := (initIndividualReport (serverSettings 16) none none).info
    ReadsBinned stats [.packet (readPacket 16)] ∧ SumsUp (flowRun .serverTcp stats [.packet (readPacket 16)]) := by
  apply (readBins_iff (serverSettings 16) none none rfl (by decide) [.packet (readPacket 16)]).mpr
  intro packet hmem _
  obtain rfl : packet = readPacket 16 := by simpa using hmem
  decide

/-- With a buffer of four bytes the width is zero. -/
theorem readBins_four : ¬ ∀ bufLen : Int, 1 ≤ bufLen → ∀ events : List FlowEvent,
    (∀ packet, FlowEvent.packet packet ∈ events → 1 ≤ packet.packetLen ∧ packet.packetLen ≤ bufLen) →
    ReadsBinned (initIndividualReport (serverSettings bufLen) none none).info events := by
  intro hall
  have hread : ∀ packet, FlowEvent.packet packet ∈ [FlowEvent.packet (readPacket 4)] →
      1 ≤ packet.packetLen ∧ packet.packetLen ≤ 4 := by
    intro packet hmem
    obtain rfl : packet = readPacket 4 := by simpa using hmem
    decide
  obtain ⟨hne, -⟩ := hall 4 (by decide) [.packet (readPacket 4)] hread [] (readPacket 4) [] rfl (by decide)
  exact hne (by decide)

end Iperf2.Report
