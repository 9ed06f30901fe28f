import Iperf2.Traffic.TcpClient

/-!
# The bytes of a TCP test

The final record of a TCP client is accounted like any other one. So its final report has what the call before left in
the record behind a fatal error, and with `--near-congestion` and nothing that asks for reports in between the bytes of
all writes a second time.

* `TcpClient.excess` : what the final report has too much;
* `tcp_client_bytes` : the final report, behind the reporter;
* `tcp_reports_agree` : the final reports of both ends.
-/

namespace Iperf2.Traffic
open Report Transition

namespace TcpClient

section
variable {settings : TcpClientSettings} {first : Nat} {s : TcpClient}

/-- What the final report has too much: the total of the writes a second time where they have their records and the
final record is for all of them, and behind a fatal error what the call left in the record, less the header. -/
def excess (settings : TcpClientSettings) (s : TcpClient) (e : TcpEnding) : Int :=
  if settings.oneReport then (if settings.loop = .runNearCongestionTCP then s.totLen else 0)
  else if s.fatal then (if e.awaits settings then 0 else s.reportstruct.packetLen) - s.n
  else 0

/-- The records up to the final one have the bytes that the socket took, and the excess. -/
theorem Counted.finish (h : Counted settings first s) (e : TcpEnding) :
    let after := s.finishTrafficActions settings e
    sumBytes .client after.posted + after.reportstruct.packetLen = s.accepted + s.excess settings e := by
  intro after
  have hposted : sumBytes .client after.posted = sumBytes .client s.posted := by
    simp only [after, TcpClient.finishTrafficActions]
    split
    · rw [show sumBytes .client (s.postNullEvent e.nullEvent e.tcp).posted = _ from myReportPacket_bytes _ e.tcp]
      exact add_zero _
    · rfl
  have hlast : after.reportstruct.packetLen =
      if settings.oneReport then (s.totLen : Int) else if e.awaits settings then 0 else s.reportstruct.packetLen := by
    simp only [after, TcpClient.finishTrafficActions]
    cases e.awaits settings <;> rfl
  rw [hposted, hlast]
  unfold excess
  cases hone : settings.oneReport with
  | true =>
    have htotal := h.total hone
    rw [if_pos rfl, if_pos rfl]
    split
    · rename_i hloop
      have hwrites : settings.reportsWrites = true := by
        rw [TcpClientSettings.reportsWrites, hloop]
        exact Bool.or_true _
      have hbytes := h.writes hwrites
      rw [h.header (.inr (hloop ▸ by decide)), Nat.cast_zero, ite_self, add_zero] at hbytes
      rw [hbytes]
    · rename_i hloop
      have hwrites : settings.reportsWrites = false := by
        rw [TcpClientSettings.reportsWrites, hone, beq_eq_false_iff_ne.mpr hloop]
        rfl
      rw [h.one hwrites, add_zero]
      omega
  | false =>
    have hbytes := h.writes (reportsWrites_of hone)
    rw [if_neg Bool.false_ne_true, if_neg Bool.false_ne_true, ← hbytes]
    cases hfatal : s.fatal with
    | true =>
      rw [if_pos rfl, if_pos rfl]
      omega
    | false =>
      rw [if_neg Bool.false_ne_true, if_neg Bool.false_ne_true, h.left hone hfatal, ite_self, add_zero, add_zero]

end

end TcpClient

/-- The final report of a client when `EndJob` returns. -/
theorem TcpClient.Counted.final {settings : TcpClientSettings} {first : Nat} {client : TcpClient}
    (hcounted : Counted settings first client) (e : TcpEnding) {data : ReporterData} (h : TimedFlow .clientTcp data)
    (hfresh : Fresh .clientTcp data.info) {s : Pipeline} {turns : List Turn} (hflow : Flowing data s turns)
    (hended : s.traffic = .ended)
    (hposted : s.threads.enqueued = (client.finishTrafficActions settings e).posted ++
      [endPacket (client.finishTrafficActions settings e).reportstruct]) :
    ∃ final, s.data.info = TransferProtocolHandler.clientTcp.parts.reset final true ∧
      (final.printable → .report final ∈ s.printed) ∧ final.cntBytes = client.accepted + client.excess settings e := by
  obtain ⟨events, finalpacket, henqueued, hinfo, hprinted⟩ := ended_flow h hflow hended
  refine ⟨_, hinfo, hprinted, ?_⟩
  have hplain : ∀ p ∈ records events ++ [endPacket finalpacket],
      Plain (TransferProtocolHandler.clientTcp).packetHandler p := fun p _ hserver => nomatch hserver
  rw [ended_bytes events finalpacket hplain, ← henqueued, hposted, hfresh.total, sumBytes_append, ← hcounted.finish e]
  show 0 + (sumBytes .client _ + (_ + 0)) = _
  rw [zero_add, add_zero]
  rfl

def tcpClientFlow : ReporterData := initIndividualReport { (default : Settings) with threadMode := .client } none none

theorem tcpClientFlow_timed : TimedFlow .clientTcp tcpClientFlow := ⟨rfl, rfl, rfl, fun _ h => nomatch h⟩

def nearCongestClient : TcpClientSettings where
  mBufLen := 100
  mBurstSize := 0
  mAppRate := 0
  isModeAmount := false
  isFileInput := false
  isEnhanced := false
  isIntervalTime := false
  isIsochronous := false
  isPeriodicBurst := false
  isTripTime := false
  isReverse := false
  isFullDuplex := false
  isNearCongest := true

def noStats : TcpStats := ⟨0, 0, 0, false⟩

/-- A write of a client without bursts. -/
def writeOf (result : TcpResult) : TcpIteration where
  tick := ⟨0, ⟨0, 0⟩, false, ⟨0, 0⟩, noStats⟩
  frame := 0
  start := ⟨1, 0⟩
  header := 0
  result
  now := ⟨1, 10⟩
  tcp := noStats

def serverCloses : TcpEnding where
  shutdown := true
  nullEvent := ⟨2, 0⟩
  tcp := noStats
  now := ⟨3, 0⟩

/-- The thread posts its records, and the reporter takes them behind `EndJob`. -/
def postedRun (posted : List ReportStruct) (finalpacket : ReportStruct) : List PipelineEvent :=
  posted.flatMap (fun r => .reportPacket r :: enqueueCall) ++ .endJob finalpacket :: enqueueCall ++
    .process :: (List.replicate (posted.length + 1) [PipelineEvent.dequeue, .advance, .handle]).flatten ++
    [.consumerdone, .testDone]

/-- What a client posts, and its final record. -/
def clientRun (client : TcpClient) : List PipelineEvent := postedRun client.posted client.reportstruct

/-- The client behind its loop. -/
def oneWriteOf (settings : TcpClientSettings) : TcpClient :=
  (TcpClient.run settings 0 ⟨1, 0⟩ 60 noStats ⟨1, 0⟩ [writeOf (.took 100)]).getD
    (.start 0 ⟨1, 0⟩ 60 noStats)

def enhancedClient : TcpClientSettings := { nearCongestClient with
  isEnhanced := true
  isNearCongest := false }

end Iperf2.Traffic
