import Iperf2.Report.Intervals

/-!
# The counts that a group report sums up

A flow adds to its group report what it accounted since its last report of every count. The counts of reads and of
writes lie on the same words of a union, so which of them a flow has is a matter of its handler.

* `Count.meter` : every count of a flow is a meter;
* `Count.sum` : its report adds the growth of the count to the group;
* `Count.final` : its final report keeps the totals of the flow;
* `Count.adjust` : a report of a group keeps the totals of the group that its handler does not reset.
-/

namespace Iperf2.Report
open Meter

/-! ## Counts -/

/-- The totals that a group report sums up. -/
inductive Count
  | Bytes
  | Datagrams
  | Lost
  | OutofOrder
  | totcntRead
  | totbins (ix : Fin 8)
  | totWriteCnt
  | totWriteErr
  | totTCPretry
  deriving DecidableEq

/-- A total of a group report. -/
def Count.sumTotal : Count → TransferInfo → Int
  | .Bytes, stats => stats.total.Bytes.current
  | .Datagrams, stats => stats.total.Datagrams.current
  | .Lost, stats => stats.total.Lost.current
  | .OutofOrder, stats => stats.total.OutofOrder.current
  | .totcntRead, stats => stats.sockCallstats.totcntRead
  | .totbins ix, stats => stats.sockCallstats.totbins ix
  | .totWriteCnt, stats => stats.sockCallstats.write.totWriteCnt
  | .totWriteErr, stats => stats.sockCallstats.write.totWriteErr
  | .totTCPretry, stats => stats.sockCallstats.write.totTCPretry

/-- A flow's own total: the datagrams of a UDP server are its `PacketID`. -/
def Count.total : TransferProtocolHandler → Count → TransferInfo → Int
  | .serverUdp, .Datagrams, stats => stats.PacketID
  | _, c, stats => c.sumTotal stats

/-- What a flow accounted since its last report. -/
def Count.since : TransferProtocolHandler → Count → TransferInfo → Int
  | _, .Bytes, stats => stats.total.Bytes.delta
  | .serverUdp, .Datagrams, stats => stats.PacketID - stats.total.Datagrams.prev
  | .clientUdp, .Datagrams, stats => stats.total.Datagrams.delta
  | .serverUdp, .Lost, stats => stats.total.Lost.delta
  | .serverUdp, .OutofOrder, stats => stats.total.OutofOrder.delta
  | _, .totcntRead, stats => stats.sockCallstats.cntRead
  | _, .totbins ix, stats => stats.sockCallstats.bins ix
  | _, .totWriteCnt, stats => stats.sockCallstats.write.WriteCnt
  | _, .totWriteErr, stats => stats.sockCallstats.write.WriteErr
  | _, .totTCPretry, stats => stats.sockCallstats.write.TCPretry
  | _, _, _ => 0

/-- The members of `union SendReadStats`. -/
inductive UnionMember
  | read
  | write
  deriving DecidableEq

/-- The member of the union that a count lies in. -/
def Count.member : Count → Option UnionMember
  | .totcntRead => some .read
  | .totbins _ => some .read
  | .totWriteCnt => some .write
  | .totWriteErr => some .write
  | .totTCPretry => some .write
  | _ => none

/-- The member of the union that a flow counts in. -/
def TransferProtocolHandler.member : TransferProtocolHandler → Option UnionMember
  | .serverUdp => none
  | .clientUdp => some .write
  | .serverTcp => some .read
  | .clientTcp => some .write

/-- A flow counts this: TCP retries are sampled of TCP clients only. -/
def TransferProtocolHandler.Counts (handler : TransferProtocolHandler) (c : Count) : Prop :=
  c.member = none ∨ c.member = handler.member ∧ (c = .totTCPretry → handler = .clientTcp)

section
variable {handler : TransferProtocolHandler} {c : Count}

theorem TransferProtocolHandler.Counts.server (h : handler.Counts c) (hread : c.member = some .read) :
    handler = .serverTcp := by
  rcases h with hnone | ⟨hmember, -⟩
  · rw [hread] at hnone
    cases hnone
  · rw [hread] at hmember
    cases handler with
    | serverTcp => rfl
    | serverUdp => cases hmember
    | clientUdp => cases hmember
    | clientTcp => cases hmember

theorem TransferProtocolHandler.Counts.client (h : handler.Counts c) (hwrite : c.member = some .write) :
    handler = .clientUdp ∨ handler = .clientTcp := by
  rcases h with hnone | ⟨hmember, -⟩
  · rw [hwrite] at hnone
    cases hnone
  · rw [hwrite] at hmember
    cases handler with
    | clientUdp => exact .inl rfl
    | clientTcp => exact .inr rfl
    | serverUdp => cases hmember
    | serverTcp => cases hmember

theorem TransferProtocolHandler.Counts.clientTcp (h : handler.Counts .totTCPretry) : handler = .clientTcp := by
  rcases h with hnone | ⟨-, hclient⟩
  · cases hnone
  · exact hclient rfl

end

/-- The member of the union that the reports of a group reset. -/
def TransferProtocolSumHandler.member : TransferProtocolSumHandler → Option UnionMember
  | .sumServerUdp => none
  | .sumClientUdp => some .write
  | .sumServerTcp => some .read
  | .sumClientTcp => some .write
  | .fullduplexTcp => none
  | .fullduplexUdp => none

/-- The reports of a group leave the totals that its flows count in the union alone. -/
def TransferProtocolSumHandler.Agrees (sum : TransferProtocolSumHandler) (handler : TransferProtocolHandler) : Prop :=
  sum.member = none ∨ handler.member = none ∨ sum.member = handler.member

/-! ## Meters of the counts -/

/-- The flags of a flow belong to its handler. -/
structure Flags (handler : TransferProtocolHandler) (stats : TransferInfo) : Prop where
  isUDP : stats.common.isUDP = (handler == .serverUdp || handler == .clientUdp)
  sampled : handler = .serverUdp ∨ handler = .serverTcp → stats.common.enableSampleTCPstats = false

theorem Flags.of_common {handler : TransferProtocolHandler} {stats stats' : TransferInfo} (h : Flags handler stats)
    (hcommon : stats'.common = stats.common) : Flags handler stats' where
  isUDP := by rw [hcommon, h.isUDP]
  sampled hserver := by rw [hcommon, h.sampled hserver]

theorem flowStep_common (handler : TransferProtocolHandler) (stats : TransferInfo) (e : FlowEvent) :
    (flowStep handler stats e).common = stats.common := by
  cases e with
  | packet packet => exact (handler.packetHandler.handle_keeps stats packet).1
  | tcpistats packet =>
    simp only [flowStep, handleTcpistats]
    split <;> rfl
  | interval => cases handler <;> rfl
  | clock ts => rfl

theorem Flags.step {handler : TransferProtocolHandler} {stats : TransferInfo} (h : Flags handler stats)
    (e : FlowEvent) : Flags handler (flowStep handler stats e) :=
  h.of_common (flowStep_common handler stats e)

/-- The lost packets of a UDP server. -/
theorem lostMeter :
    Telescopes (flowStep .serverUdp) (intervalRead .serverUdp) (·.total.Lost.delta) (·.total.Lost.current)
      (·.total.Lost.delta) fun _ => True :=
  startMeter (·.Lost.prev) (fun _ => sub_sub_cancel _ _) (fun _ _ h => h.Lost) (fun _ _ => rfl)
    (fun _ => ⟨rfl, rfl, sub_self _⟩)

/-- The datagrams of a UDP client. -/
theorem sentMeter :
    Telescopes (flowStep .clientUdp) (intervalRead .clientUdp) (·.cntDatagrams) (·.total.Datagrams.current)
      (·.total.Datagrams.delta) fun _ => True :=
  startMeter (·.Datagrams.prev) (fun _ => sub_sub_cancel _ _) (fun _ _ h => h.Datagrams) (fun _ _ => rfl)
    (fun _ => ⟨rfl, rfl, sub_self _⟩)

theorem writeErrMeter {handler : TransferProtocolHandler} (hclient : handler = .clientUdp ∨ handler = .clientTcp) :
    Telescopes (flowStep handler) (intervalRead handler) (·.sockCallstats.write.WriteErr)
      (·.sockCallstats.write.totWriteErr) (·.sockCallstats.write.WriteErr) fun _ => True :=
  writeMeter hclient
    (fun write errwrite => by simp only [WriteStats.account]; split <;> omega) (fun _ _ => rfl)
    (fun _ => by rcases hclient with rfl | rfl <;> exact ⟨rfl, rfl⟩)

/-- A count that a flow does not move has nothing to report. -/
theorem idleMeter {handler : TransferProtocolHandler} (count : ShiftCounters → Int)
    (hpacket : ∀ stats packet, Flags handler stats →
      count (handler.packetHandler.handle stats packet).total = count stats.total)
    (hinterval : ∀ stats, count (flowStep handler stats .interval).total = count stats.total) :
    Telescopes (flowStep handler) (intervalRead handler) (fun _ => 0) (count ·.total) (fun _ => 0)
      (Flags handler) := by
  refine flowMeter (fun stats packet h => ⟨h.step (.packet packet), ?_⟩)
    (fun stats packet h => ⟨h.step (.tcpistats packet), ?_⟩) (fun stats ts h => ⟨h.step (.clock ts), rfl, rfl⟩)
    (fun stats h => ⟨h.step .interval, rfl, hinterval stats, rfl⟩)
  · rw [hpacket stats packet h]
  · rw [handleTcpistats_total]

/-- A flow that is not a UDP server loses no packets. -/
theorem lostIdle (handler : TransferProtocolHandler) (hhandler : handler ≠ .serverUdp) (count : ShiftCounters → Int)
    (hcount : ∀ t t' : ShiftCounters, t.Lost.current = t'.Lost.current →
      t.OutofOrder.current = t'.OutofOrder.current → count t = count t') :
    Telescopes (flowStep handler) (intervalRead handler) (fun _ => 0) (count ·.total) (fun _ => 0)
      (Flags handler) := by
  have hclient : ∀ stats packet,
      count (reporterHandlePacketClient stats packet).total = count stats.total := by
    intro stats packet
    rw [(handlePacketClient_spec stats packet).2.2.1]
    split
    · rfl
    · exact hcount _ _ rfl rfl
  have hserver : ∀ stats packet,
      count (reporterHandlePacketServerTcp stats packet).total = count stats.total := by
    intro stats packet
    obtain ⟨bytes, bins, -, htotal, -⟩ := handlePacketServerTcp_spec stats packet
    rw [htotal]
    exact hcount _ _ rfl rfl
  apply idleMeter count
  · intro stats packet _
    cases handler with
    | serverUdp => exact absurd rfl hhandler
    | clientUdp => exact hclient stats packet
    | serverTcp => exact hserver stats packet
    | clientTcp => exact hclient stats packet
  · intro stats
    cases handler with
    | serverUdp => exact absurd rfl hhandler
    | clientUdp => exact hcount _ _ rfl rfl
    | serverTcp => exact hcount _ _ rfl rfl
    | clientTcp => exact hcount _ _ rfl rfl

/-- TCP counts no datagrams. -/
theorem datagramsIdle {handler : TransferProtocolHandler} (hhandler : handler = .serverTcp ∨ handler = .clientTcp) :
    Telescopes (flowStep handler) (intervalRead handler) (fun _ => 0) (·.total.Datagrams.current) (fun _ => 0)
      (Flags handler) := by
  apply idleMeter (·.Datagrams.current)
  · intro stats packet h
    rcases hhandler with rfl | rfl
    · obtain ⟨bytes, bins, -, htotal, -⟩ := handlePacketServerTcp_spec stats packet
      simp only [TransferProtocolHandler.packetHandler, PacketHandler.handle, htotal]
    · have htcp : stats.common.isUDP = false := h.isUDP
      simp only [TransferProtocolHandler.packetHandler, PacketHandler.handle,
        (handlePacketClient_spec stats packet).2.2.1, ShiftCounters.sent, htcp, Bool.false_eq_true, if_false]
      split <;> rfl
  · intro stats
    rcases hhandler with rfl | rfl <;> rfl

/-- Every count of a flow is a meter. -/
theorem Count.meter {handler : TransferProtocolHandler} {c : Count} (hcounts : handler.Counts c) :
    ∃ value, Telescopes (flowStep handler) (intervalRead handler) value (c.total handler) (c.since handler)
      (Flags handler) := by
  have hflags : ∀ stats e, Flags handler stats → Flags handler (flowStep handler stats e) :=
    fun _ e h => h.step e
  have hserver : ∀ stats, Flags .serverTcp stats → stats.common.enableSampleTCPstats = false :=
    fun _ h => h.sampled (.inr rfl)
  cases c with
  | Bytes =>
    have h := (bytesMeter handler).strengthen (fun _ _ => trivial) hflags
    cases handler <;> exact ⟨_, h⟩
  | Datagrams =>
    cases handler with
    | serverUdp => exact ⟨_, datagramsMeter.strengthen (fun _ _ => trivial) hflags⟩
    | clientUdp => exact ⟨_, sentMeter.strengthen (fun _ _ => trivial) hflags⟩
    | serverTcp => exact ⟨_, datagramsIdle (.inl rfl)⟩
    | clientTcp => exact ⟨_, datagramsIdle (.inr rfl)⟩
  | Lost =>
    cases handler with
    | serverUdp => exact ⟨_, lostMeter.strengthen (fun _ _ => trivial) hflags⟩
    | clientUdp => exact ⟨_, lostIdle .clientUdp nofun (·.Lost.current) fun _ _ hlost _ => hlost⟩
    | serverTcp => exact ⟨_, lostIdle .serverTcp nofun (·.Lost.current) fun _ _ hlost _ => hlost⟩
    | clientTcp => exact ⟨_, lostIdle .clientTcp nofun (·.Lost.current) fun _ _ hlost _ => hlost⟩
  | OutofOrder =>
    cases handler with
    | serverUdp => exact ⟨_, outofOrderMeter.strengthen (fun _ _ => trivial) hflags⟩
    | clientUdp => exact ⟨_, lostIdle .clientUdp nofun (·.OutofOrder.current) fun _ _ _ horder => horder⟩
    | serverTcp => exact ⟨_, lostIdle .serverTcp nofun (·.OutofOrder.current) fun _ _ _ horder => horder⟩
    | clientTcp => exact ⟨_, lostIdle .clientTcp nofun (·.OutofOrder.current) fun _ _ _ horder => horder⟩
  | totcntRead =>
    obtain rfl := hcounts.server rfl
    exact ⟨_, cntReadMeter.strengthen hserver hflags⟩
  | totbins ix =>
    obtain rfl := hcounts.server rfl
    have h := serverTcpMeter (·.totbins ix) (·.bins ix) (fun _ _ _ => add_sub_add_right_eq_sub _ _ _)
      (fun _ => ⟨rfl, rfl⟩)
    exact ⟨_, h.strengthen hserver hflags⟩
  | totWriteCnt =>
    have hclient := hcounts.client rfl
    have h := (writeCntMeter hclient).strengthen (fun _ _ => trivial) hflags
    rcases hclient with rfl | rfl <;> exact ⟨_, h⟩
  | totWriteErr =>
    have hclient := hcounts.client rfl
    have h := (writeErrMeter hclient).strengthen (fun _ _ => trivial) hflags
    rcases hclient with rfl | rfl <;> exact ⟨_, h⟩
  | totTCPretry =>
    obtain rfl := hcounts.clientTcp
    exact ⟨_, retryMeter.strengthen (fun _ _ => trivial) hflags⟩

/-! ## Reports -/

/-- A flow adds to a total of the group what it accounted since its last report. -/
theorem Count.sum {handler : TransferProtocolHandler} {c : Count} (hcounts : handler.Counts c)
    (stats sumstats : TransferInfo) :
    c.sumTotal (handler.parts.sum (handler.parts.interval stats) sumstats) =
      c.sumTotal sumstats + c.since handler stats := by
  cases c with
  | Bytes => cases handler <;> rfl
  | Datagrams => cases handler <;> first | rfl | exact (add_zero _).symm
  | Lost => cases handler <;> first | rfl | exact (add_zero _).symm
  | OutofOrder => cases handler <;> first | rfl | exact (add_zero _).symm
  | totcntRead =>
    obtain rfl := hcounts.server rfl
    rfl
  | totbins ix =>
    obtain rfl := hcounts.server rfl
    rfl
  | totWriteCnt => rcases hcounts.client rfl with rfl | rfl <;> rfl
  | totWriteErr => rcases hcounts.client rfl with rfl | rfl <;> rfl
  | totTCPretry =>
    obtain rfl := hcounts.clientTcp
    rfl

/-- The final report of a flow keeps its totals. -/
theorem Count.final {handler : TransferProtocolHandler} {c : Count} (hcounts : handler.Counts c)
    (stats : TransferInfo) :
    let after := handler.parts.reset (finalValues handler stats) true
    after.common = stats.common ∧ c.total handler after = c.total handler stats := by
  cases handler with
  | serverUdp =>
    simp only [finalValues, TransferProtocolHandler.parts, serverUdpParts, if_true]
    rw [partialReport_ite]
    exact ⟨rfl, by cases c <;> rfl⟩
  | clientUdp =>
    refine ⟨rfl, ?_⟩
    cases c <;> first | rfl | cases hcounts.server rfl
  | serverTcp =>
    simp only [finalValues, TransferProtocolHandler.parts, serverTcpParts, if_true]
    split
    · obtain ⟨ts, out, heq⟩ := partialReport_eq _
      rw [heq]
      refine ⟨rfl, ?_⟩
      cases c <;> first | rfl | cases hcounts.client rfl <;> contradiction
    · refine ⟨rfl, ?_⟩
      cases c <;> first | rfl | cases hcounts.client rfl <;> contradiction
  | clientTcp =>
    simp only [finalValues, TransferProtocolHandler.parts, clientTcpParts, if_true]
    split
    · obtain ⟨ts, out, heq⟩ := partialReport_eq _
      rw [heq]
      refine ⟨rfl, ?_⟩
      cases c <;> first | rfl | cases hcounts.server rfl
    · refine ⟨rfl, ?_⟩
      cases c <;> first | rfl | cases hcounts.server rfl

/-- A total depends on the totals and on the union alone. -/
theorem Count.sumTotal_congr (c : Count) {stats stats' : TransferInfo} (htotal : stats'.total = stats.total)
    (hsock : stats'.sockCallstats = stats.sockCallstats) : c.sumTotal stats' = c.sumTotal stats := by
  cases c <;> simp only [Count.sumTotal, htotal, hsock]

section
variable {c : Count} {reset partialReset : TransferInfo → TransferInfo}
  (hreset : ∀ stats, c.sumTotal (reset stats) = c.sumTotal stats)
  (hprinted : ∀ stats, c.sumTotal (partialReset stats) = c.sumTotal stats)
include hreset hprinted

theorem sumTcpInterval_keeps (stats : TransferInfo) (final : Bool) :
    c.sumTotal (sumTcpInterval reset partialReset stats final).1 = c.sumTotal stats := by
  unfold sumTcpInterval
  split
  · cases final with
    | false =>
      simp only [Bool.false_eq_true, if_false]
      rw [hreset]
      split <;> exact c.sumTotal_congr rfl rfl
    | true =>
      obtain ⟨ts, out, heq⟩ := partialReport_eq { stats with cntBytes := stats.total.Bytes.delta }
      simp only [if_true, heq]
      rw [hreset]
      split
      · exact (hprinted _).trans (c.sumTotal_congr rfl rfl)
      · exact c.sumTotal_congr rfl rfl
  · rfl

/-- The shape of the TCP group handlers keeps a total that its resets and its final values keep. -/
theorem sumTcp_keeps {totals : TransferInfo → TransferInfo}
    (htotals : ∀ stats, c.sumTotal (totals stats) = c.sumTotal stats) (stats : TransferInfo) (final : Bool) :
    c.sumTotal (sumTcp reset partialReset totals stats final).1 = c.sumTotal stats := by
  have hinterval := sumTcpInterval_keeps hreset hprinted stats final
  cases final with
  | false => exact hinterval
  | true =>
    let stats' := (sumTcpInterval reset partialReset stats true).1
    calc
      c.sumTotal (sumTcp reset partialReset totals stats true).1
        = c.sumTotal (totals { stats' with cntBytes := stats'.total.Bytes.current }) := c.sumTotal_congr rfl rfl
      _ = c.sumTotal stats' := (htotals _).trans (c.sumTotal_congr rfl rfl)
      _ = c.sumTotal stats := hinterval

end

/-- A report of a group whose handler resets another member of the union, or none, keeps a total. -/
theorem Count.adjust {sum : TransferProtocolSumHandler} {c : Count}
    (hgroup : sum ≠ .fullduplexTcp ∧ sum ≠ .fullduplexUdp)
    (hagree : c.member = none ∨ sum.member = none ∨ sum.member = c.member) (stats : TransferInfo) (final : Bool) :
    c.sumTotal (sum.handle stats final).1 = c.sumTotal stats := by
  cases sum with
  | sumServerUdp => cases final <;> cases c <;> rfl
  | sumClientUdp =>
    have hread : c.member ≠ some .read := by
      intro hread
      simp [hread, TransferProtocolSumHandler.member] at hagree
    cases final <;> cases c <;> first | rfl | exact absurd rfl hread
  | sumServerTcp =>
    have hwrite : c.member ≠ some .write := by
      intro hwrite
      simp [hwrite, TransferProtocolSumHandler.member] at hagree
    refine sumTcp_keeps (fun stats => ?_) (fun _ => rfl) (fun stats => ?_) stats final
    · cases c <;> first | rfl | exact absurd rfl hwrite
    · cases c <;> first | rfl | exact absurd rfl hwrite
  | sumClientTcp =>
    have hread : c.member ≠ some .read := by
      intro hread
      simp [hread, TransferProtocolSumHandler.member] at hagree
    have hreset : ∀ stats, c.sumTotal (reporterResetTransferStatsClientTcp stats) = c.sumTotal stats := by
      intro stats
      cases c <;> first | rfl | exact absurd rfl hread
    refine sumTcp_keeps hreset hreset (fun stats => ?_) stats final
    cases c <;> first | rfl | exact absurd rfl hread
  | fullduplexTcp => exact absurd rfl hgroup.1
  | fullduplexUdp => exact absurd rfl hgroup.2

/-- A group report has one of the handlers for groups. -/
theorem initSumHandler_group (grp : Settings) :
    initSumHandler grp false ≠ .fullduplexTcp ∧ initSumHandler grp false ≠ .fullduplexUdp := by
  unfold initSumHandler
  cases grp.threadMode <;> cases grp.isUDP <;> simp

/-! ## New reports -/

theorem Count.fresh {handler : TransferProtocolHandler} {stats : TransferInfo} (c : Count)
    (h : Fresh handler stats) : c.total handler stats = 0 ∧ c.since handler stats = 0 := by
  obtain ⟨binsize, hsock⟩ : ∃ binsize, stats.sockCallstats = { (default : SendReadStats) with binsize } :=
    ⟨_, h.sockCallstats⟩
  cases handler <;> cases c <;> constructor <;>
    simp only [Count.total, Count.since, Count.sumTotal, h.total, h.PacketID, hsock] <;> rfl

theorem initSumReport_sumTotal (grp : Settings) (c : Count) : c.sumTotal (initSumReport grp false).info = 0 := by
  cases c <;> rfl

end Iperf2.Report
