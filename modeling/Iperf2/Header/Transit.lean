import Iperf2.Header.Numbers
import Iperf2.Header.Relay

/-!
# The times of the server's report

Jitter and stop time, and with `SERVER_HEADER_EXTEND` the transit times, are numbers in two words of the header. A
transit time is negative when the clock of the client is ahead of the server's.

* `serverHdr_times` : the words of the numbers;
* `server_relay_times` : the client reads the numbers that are not negative.
-/

namespace Iperf2.Header
open Report Decoder

/-! ## Numbers of the header -/

/-- The server's numbers. -/
def serverTimes (stats : TransferInfo) : List Rat :=
  [stats.jitter, stats.ts.iEnd] ++
    if stats.common.isEnhanced || stats.common.isTripTime then
      [stats.transit.totminTransit, stats.transit.totmaxTransit, stats.transit.totsumTransit,
        stats.transit.totmeanTransit, stats.transit.totm2Transit, stats.transit.totvdTransit]
    else []

/-- The numbers of the client's report, whose transit times are those of an enhanced one. -/
def relayTimes (relay : TransferInfo) : List Rat :=
  [relay.jitter, relay.ts.iEnd] ++
    if relay.common.isEnhanced then
      [relay.transit.minTransit, relay.transit.maxTransit, relay.transit.sumTransit, relay.transit.meanTransit,
        relay.transit.m2Transit, relay.transit.vdTransit]
    else []

/-- The first words of the numbers. -/
def timeFields (transit : Bool) : List Nat := [8, 3] ++ if transit then [10, 12, 14, 16, 18, 20] else []

section
variable (stats : TransferInfo) (inSettings : Settings)

theorem serverFlags_extend (common : ReportCommon) :
    Flags.test (serverFlags common) SERVER_HEADER_EXTEND = (common.isEnhanced || common.isTripTime) := by
  unfold serverFlags
  rw [Flags.test_or, Flags.test_orIf]
  simp [Flags.test, HEADER_VERSION1, SERVER_HEADER_EXTEND, HEADER_SEQNO64B]

/-- The words of the server's numbers. -/
theorem serverHdr_times :
    List.Forall₂ (fun i q => (serverHdr stats)[i]? = some (whole q) ∧ (serverHdr stats)[i + 1]? = some (micros q))
      (timeFields (stats.common.isEnhanced || stats.common.isTripTime)) (serverTimes stats) := by
  unfold timeFields serverTimes
  split
  · repeat' constructor
  · repeat' constructor

/-- The counts leave jitter and stop time alone. -/
theorem relayCounts_times (server : Nat) (flags : BitVec 32) (hdr : Buf) :
    let relay := (relayCounts server flags stats).run hdr
    relay.jitter = stats.jitter ∧ relay.ts = stats.ts := by
  unfold relayCounts
  rw [run_ite]
  split <;> exact ⟨rfl, rfl⟩

theorem relayTransit_times (server : Nat) (flags : BitVec 32) (hdr : Buf) :
    relayTimes ((relayTransit server flags stats).run hdr) =
      [stats.jitter, stats.ts.iEnd] ++
        if Flags.test flags SERVER_HEADER_EXTEND then
          [40, 48, 56, 64, 72, 80].map fun o => (fixedPoint (server + o)).run hdr
        else [] := by
  unfold relayTransit
  rw [run_ite]
  split <;> rfl

/-- The numbers of a report are read of its fields. -/
theorem relayTimes_run (hdr : Buf) :
    relayTimes ((initServerRelayUDPReport inSettings sizeofUdpDatagram).run hdr) =
      (timeFields (Flags.test (hdr.be32 sizeofUdpDatagram) SERVER_HEADER_EXTEND)).map fun i =>
        (fixedPoint (sizeofUdpDatagram + 4 * i)).run hdr := by
  simp only [initServerRelayUDPReport, run_bind, run_ntohl, relayTransit_times, relayCounts_times, timeFields]
  split <;> simp only [List.map_append, List.map_cons, List.map_nil, Nat.reduceMul]

end

/-! ## The round trip -/

/-- Numbers read of the fields that they were written to. -/
theorem near_fields_iff {hdr : Buf} {fields : List Nat} {times : List Rat}
    (hwords : List.Forall₂ (fun i q => hdr.be32 (sizeofUdpDatagram + 4 * i) = whole q ∧
      hdr.be32 (sizeofUdpDatagram + 4 * i + 4) = micros q) fields times) (hbound : ∀ q ∈ times, |q| < 2 ^ 31) :
    List.Forall₂ Near (fields.map fun i => (fixedPoint (sizeofUdpDatagram + 4 * i)).run hdr) times ↔
      ∀ q ∈ times, -(1 / 1000000) < q := by
  induction hwords with
  | nil => simp
  | cons hword _ ih =>
    obtain ⟨hq, hrest⟩ := List.forall_mem_cons.mp hbound
    obtain ⟨hlow, hhigh⟩ := abs_lt.mp hq
    rw [List.map_cons, List.forall₂_cons, List.forall_mem_cons, ih hrest,
      fixedPoint_near_iff hword.1 hword.2 (by linarith) (by linarith)]

/-- The report that is made of the packet. -/
theorem relayTimes_near_iff {stats : TransferInfo} (inSettings : Settings)
    (hbound : ∀ q ∈ serverTimes stats, |q| < 2 ^ 31) :
    List.Forall₂ Near
        (relayTimes ((initServerRelayUDPReport inSettings sizeofUdpDatagram).run (writeUdpAckFIN stats)))
        (serverTimes stats) ↔
      ∀ q ∈ serverTimes stats, -(1 / 1000000) < q := by
  rw [relayTimes_run, writeUdpAckFIN_flags, serverFlags_extend]
  apply near_fields_iff _ hbound
  apply (serverHdr_times stats).imp
  intro i q hwords
  have hnext : sizeofUdpDatagram + 4 * i + 4 = sizeofUdpDatagram + 4 * (i + 1) := by
    omega
  rw [hnext]
  exact ⟨writeUdpAckFIN_word stats hwords.1, writeUdpAckFIN_word stats hwords.2⟩

/-- An enhanced server with this least transit time. -/
def transitStats (totminTransit : Rat) : TransferInfo := { (default : TransferInfo) with
  common := { (default : ReportCommon) with isEnhanced := true }
  jitter := 1 / 8000
  ts := { (default : ReportTimeStamps) with iEnd := 10 + 1 / 3 }
  transit := { (default : TransitStats) with
    totminTransit
    totmaxTransit := 1 / 30
    totsumTransit := 2 / 30
    totmeanTransit := 1 / 40 } }

theorem transitStats_times (totminTransit : Rat) :
    serverTimes (transitStats totminTransit) = [1 / 8000, 10 + 1 / 3, totminTransit, 1 / 30, 2 / 30, 1 / 40, 0, 0] :=
  rfl

end Iperf2.Header
