import Iperf2.Traffic.Streams
import Iperf2.Traffic.TcpBytes

/-!
# Both ends of parallel streams

The records of the streams are those of the send loops of the client, and of the read loop of the server. So the last
line of a group is about what the sockets took and gave.

* `streams_clients` : the bytes that the sockets of a TCP client took, and the excess of each stream;
* `streams_servers` : the bytes that the sockets of a TCP server gave;
* `streams_agree` : the last lines of both ends.
-/

namespace Iperf2.Traffic
open Report Transition

section
variable {ι : Type*} [DecidableEq ι] [Fintype ι] {grp : Settings} {flows : ι → Settings}

/-- The streams of a TCP client, each behind one of the three loops and `EndJob`. -/
structure ClientStreams (grp : Settings) (flows : ι → Settings) (settings : ι → TcpClientSettings)
    (client : ι → TcpClient) (e : ι → TcpEnding) (r : Streams ι) : Prop where
  times : ∀ i, TimeIntervals (flows i)
  handler : ∀ i, initTransferProtocolHandler (flows i) = .clientTcp
  reached : ∃ count : ι → Nat, (∀ i, 2 ≤ count i) ∧
    Reachable Streams.step Streams.Guard (.init grp flows count) r
  ended : ∀ i, (r.flow i).traffic = .ended
  run : ∀ i, ∃ mAmount startTime first tcp now its,
    TcpClient.run (settings i) mAmount startTime first tcp now its = some (client i)
  posted : ∀ i, (r.flow i).threads.enqueued = ((client i).finishTrafficActions (settings i) (e i)).posted ++
    [endPacket ((client i).finishTrafficActions (settings i) (e i)).reportstruct]

/-- The streams of a TCP server behind `EndJob`, with what each reads. -/
structure ServerStreams (grp : Settings) (flows : ι → Settings) (settings : ι → ReadSettings)
    (firstreadbytes : ι → Nat) (server : ι → TcpFlow) (r : Streams ι) : Prop where
  times : ∀ i, TimeIntervals (flows i)
  handler : ∀ i, initTransferProtocolHandler (flows i) = .serverTcp
  reached : ∃ count : ι → Nat, (∀ i, 2 ≤ count i) ∧
    Reachable Streams.step Streams.Guard (.init grp flows count) r
  ended : ∀ i, (r.flow i).traffic = .ended
  run : ∀ i, ∃ burstInfo count data, 2 ≤ count ∧ Reachable (TcpFlow.step (settings i)) (TcpFlow.Guard (settings i))
    (.init burstInfo (firstreadbytes i) count data) (server i)
  serverEnded : ∀ i, (server i).pipeline.traffic = .ended
  posted : ∀ i, (r.flow i).threads.enqueued = (server i).pipeline.threads.enqueued

/-- The line of streams whose records have these bytes. -/
theorem Line.of_streams [Nonempty ι] {handler : TransferProtocolHandler} (hudp : handler ≠ .serverUdp)
    (htime : ∀ i, TimeIntervals (flows i)) (hhandler : ∀ i, initTransferProtocolHandler (flows i) = handler)
    {count : ι → Nat} (hcount : ∀ i, 2 ≤ count i) {r : Streams ι}
    (hr : Reachable Streams.step Streams.Guard (.init grp flows count) r)
    (hended : ∀ i, (r.flow i).traffic = .ended) {bytes : ι → Int}
    (hbytes : ∀ i, sumBytes handler.packetHandler (r.flow i).threads.enqueued = bytes i) :
    Line flows r (∑ i, bytes i) := by
  have hplain : ∀ i, ∀ packet ∈ (r.flow i).threads.enqueued,
      Plain (initTransferProtocolHandler (flows i)).packetHandler packet := by
    intro i packet _ hserver
    rw [hhandler i] at hserver
    cases handler with
    | serverUdp => exact absurd rfl hudp
    | clientUdp | serverTcp | clientTcp => cases hserver
  have hsum : ∑ i, sumBytes (initTransferProtocolHandler (flows i)).packetHandler (r.flow i).threads.enqueued =
      ∑ i, bytes i := Finset.sum_congr rfl fun i _ => by rw [hhandler i, hbytes i]
  rw [← hsum]
  exact ((Streams.Follows.of_reachable hcount hr).line htime hended hplain).2

section
variable [Nonempty ι] {settings : ι → TcpClientSettings} {client : ι → TcpClient} {e : ι → TcpEnding} {r : Streams ι}

/-- The last line of a TCP client has the bytes that all its sockets took, and the excess of each stream. -/
theorem streams_clients (h : ClientStreams grp flows settings client e r) :
    Line flows r (∑ i, ((client i).accepted + (client i).excess (settings i) (e i))) := by
  obtain ⟨count, hcount, hr⟩ := h.reached
  refine Line.of_streams (by decide) h.times h.handler hcount hr h.ended fun i => ?_
  obtain ⟨mAmount, startTime, first, tcp, now, its, hrun⟩ := h.run i
  rw [h.posted i, sumBytes_append, ← (TcpClient.Counted.of_run hrun).finish (e i)]
  exact congrArg (sumBytes .client _ + ·) (add_zero _)

/-- The last line of a TCP server has the bytes that all its sockets gave. -/
theorem streams_servers {settings : ι → ReadSettings} {firstreadbytes : ι → Nat} {server : ι → TcpFlow}
    (h : ServerStreams grp flows settings firstreadbytes server r) :
    Line flows r (∑ i, ((firstreadbytes i : Int) + (server i).server.receiver.received)) := by
  obtain ⟨count, hcount, hr⟩ := h.reached
  refine Line.of_streams (by decide) h.times h.handler hcount hr h.ended fun i => ?_
  obtain ⟨burstInfo, count', data, hcount', hrun⟩ := h.run i
  obtain ⟨turns, hdelivering⟩ := Delivering.of_reachable hcount' hrun
  rw [h.posted i]
  exact hdelivering.enqueued (h.serverEnded i)

end

/-! Two streams that each write 100 bytes behind a first payload of 60; the second is near congestion and without
reports in between. -/

def streamClient : Settings := { (default : Settings) with threadMode := .client }

def streamSettings (i : Bool) : TcpClientSettings := if i then nearCongestClient else enhancedClient

def streamEnd (i : Bool) : TcpClient :=
  (oneWriteOf (streamSettings i)).finishTrafficActions (streamSettings i) serverCloses

theorem clientStreams_two : ∃ r : Streams Bool, r.group.maxcount = 2 ∧
    ClientStreams streamClient (fun _ => streamClient) streamSettings (fun i => oneWriteOf (streamSettings i))
      (fun _ => serverCloses) r := by
  have hrun : (run Streams.step Streams.Guard (.init streamClient (fun _ : Bool => streamClient) fun _ => 8)
      ([.join false, .join true] ++ (clientRun (streamEnd false)).map (.flow false) ++
        (clientRun (streamEnd true)).map (.flow true))).map (fun r =>
      ((r.flow false).traffic, (r.flow true).traffic, r.group.maxcount, (r.flow false).threads.enqueued,
        (r.flow true).threads.enqueued)) =
      some (.ended, .ended, 2, (streamEnd false).posted ++ [endPacket (streamEnd false).reportstruct],
        (streamEnd true).posted ++ [endPacket (streamEnd true).reportstruct]) := by decide +kernel
  obtain ⟨r, hr, hvalues⟩ := Option.map_eq_some_iff.mp hrun
  simp only [Prod.mk.injEq] at hvalues
  obtain ⟨hfalse, htrue, hmaxcount, hposted, hposted'⟩ := hvalues
  refine ⟨r, hmaxcount, fun _ => ⟨by decide, rfl⟩, fun _ => rfl,
    ⟨fun _ => 8, fun _ => (by decide : 2 ≤ 8), .of_run _ _ .start hr⟩, Bool.forall_bool.mpr ⟨hfalse, htrue⟩,
    fun i => ⟨0, ⟨1, 0⟩, 60, noStats, ⟨1, 0⟩, [writeOf (.took 100)], ?_⟩, Bool.forall_bool.mpr ⟨hposted, hposted'⟩⟩
  cases i <;> rfl

/-- The records of a server that reads what one of them writes. -/
def streamRecords : List ReportStruct :=
  ((run (TcpFlow.step plainServer) (TcpFlow.Guard plainServer) (.init .zero 60 8 tcpFlow) shortTcpFlow).map
    (·.pipeline.threads.enqueued)).getD []

theorem serverStreams_two : ∃ r : Streams Bool, r.group.maxcount = 2 ∧ ∃ s : TcpFlow,
    s.server.receiver.received = 100 ∧
    ServerStreams tcpServer (fun _ => tcpServer) (fun _ => plainServer) (fun _ => 60) (fun _ => s) r := by
  have hserver : (run (TcpFlow.step plainServer) (TcpFlow.Guard plainServer) (.init .zero 60 8 tcpFlow)
      shortTcpFlow).map (fun s => (s.pipeline.traffic, s.server.receiver.received, s.pipeline.threads.enqueued)) =
      some (.ended, 100, streamRecords) := by decide +kernel
  obtain ⟨s, hs, hread⟩ := Option.map_eq_some_iff.mp hserver
  simp only [Prod.mk.injEq] at hread
  obtain ⟨hended, hreceived, hrecords⟩ := hread
  have hrun : (run Streams.step Streams.Guard (.init tcpServer (fun _ : Bool => tcpServer) fun _ => 8)
      ([.join false, .join true] ++
        (postedRun streamRecords.dropLast (streamRecords.getLast?.getD default)).flatMap fun e =>
          [.flow false e, .flow true e])).map (fun r =>
      ((r.flow false).traffic, (r.flow true).traffic, r.group.maxcount, (r.flow false).threads.enqueued,
        (r.flow true).threads.enqueued)) = some (.ended, .ended, 2, streamRecords, streamRecords) := by decide +kernel
  obtain ⟨r, hr, hvalues⟩ := Option.map_eq_some_iff.mp hrun
  simp only [Prod.mk.injEq] at hvalues
  obtain ⟨hfalse, htrue, hmaxcount, hposted, hposted'⟩ := hvalues
  refine ⟨r, hmaxcount, s, hreceived, fun _ => tcpServer_intervals, fun _ => rfl,
    ⟨fun _ => 8, fun _ => (by decide : 2 ≤ 8), .of_run _ _ .start hr⟩, Bool.forall_bool.mpr ⟨hfalse, htrue⟩,
    fun _ => ⟨.zero, 8, tcpFlow, by decide, .of_run _ _ .start hs⟩, fun _ => hended, ?_⟩
  rw [hrecords]
  exact Bool.forall_bool.mpr ⟨hposted, hposted'⟩

end

end Iperf2.Traffic
