import Iperf2.Report.Loss

/-!
# Records of a UDP client

A UDP client posts a packet record for its first payload, for every write of `Client::RunUDP` or
`Client::RunUDPIsochronous`, for its FIN datagram, and `EndJob` adds the marker that ends the traffic. What the socket
does with a write, the clock, and when the traffic is over are inputs: a run is a list of writes. `accepted` counts
the datagrams that the socket took; no function of the source has it.

* `posted_full` : the records that are not empty are as many as the accepted datagrams, but for a FIN record that
  inherits the `emptyreport` of a failed write;
* `client_sent_counts` : the counts of the final report are never the accepted datagrams, because the marker is
  accounted like a datagram and its id becomes the last packet id.
-/

namespace Iperf2.Traffic
open Report Transition

/-! ## Writes -/

/-- What the socket does with a datagram: it takes it, or fails with an `errno` that is fatal or not. -/
inductive WriteResult
  | accepted (len : { n : Int // 0 < n })
  | failed (fatal : Bool)

/-- A write and the time that the client takes before it. -/
structure Write where
  now : Timeval
  result : WriteResult

/-- A frame of `RunUDPIsochronous`: the bytes that its distribution gives, the id of its tick, its writes. -/
structure Frame where
  bytecnt : Int
  frameid : Int
  writes : List Write

/-- The settings that the send loops test. -/
structure ClientSettings where
  isModeAmount : Bool
  mBufLen : Int
  udpPayloadMinimum : Int

/-- The state of a UDP client: its record, the amount left to send, what it posted. -/
structure UdpClient where
  reportstruct : ReportStruct
  prevpacketTime : Timeval
  mAmount : Int
  posted : List ReportStruct
  accepted : Nat

/-- `Client::myReportPacket` -/
def UdpClient.myReportPacket (s : UdpClient) : UdpClient :=
  { s with
    posted := s.posted ++ [s.reportstruct]
    reportstruct := { s.reportstruct with packetLen := 0 } }

def UdpClient.accept (s : UdpClient) : UdpClient := { s with accepted := s.accepted + 1 }

/-! ## Start -/

/-- `Client::Client` -/
def newClient (mAmount : Int) : UdpClient where
  reportstruct := { (default : ReportStruct) with packetID := 1 }
  prevpacketTime := ⟨0, 0⟩
  mAmount
  posted := []
  accepted := 0

/-- The first payload in `Client::StartSynch`, if one was sent: its record has the start time of the report. -/
def startSynch (s : UdpClient) (startTime : Timeval) (first : Option WriteResult) : UdpClient :=
  match first with
  | some (.accepted len) =>
    let s := { s.accept with reportstruct := { s.reportstruct with
      packetLen := len.1
      packetTime := startTime
      sentTime := startTime
      prevSentTime := startTime
      prevPacketTime := s.prevpacketTime } }
    let s := s.myReportPacket
    { s with
      prevpacketTime := s.reportstruct.packetTime
      reportstruct := { s.reportstruct with packetID := s.reportstruct.packetID + 1 } }
  | _ => { s with reportstruct := { s.reportstruct with packetLen := 0 } }

/-- `Client::InitTrafficLoop` -/
def initTrafficLoop (s : UdpClient) : UdpClient :=
  { s with reportstruct := { s.reportstruct with
    errwrite := .noErr
    emptyreport := false
    packetLen := 0 } }

/-! ## Send loops -/

/-- The end of an iteration of both loops: the amount left, and the record is posted. -/
def reportWrite (settings : ClientSettings) (s : UdpClient) (currLen : Int) : UdpClient :=
  let s := { s with
    mAmount :=
      if settings.isModeAmount then (if s.mAmount ≥ currLen then s.mAmount - currLen else 0) else s.mAmount
    reportstruct := { s.reportstruct with
      packetLen := currLen
      prevPacketTime := s.prevpacketTime } }
  let s := s.myReportPacket
  { s with
    prevpacketTime := s.reportstruct.packetTime
    reportstruct := { s.reportstruct with packetID := s.reportstruct.packetID + 1 } }

/-- The record before a write. -/
def beforeWrite (reportstruct : ReportStruct) (now : Timeval) : ReportStruct :=
  { reportstruct with
    packetTime := now
    sentTime := now
    errwrite := .noErr
    emptyreport := false }

/-- `Client::RunUDP` -/
def runUDPClient (settings : ClientSettings) (s : UdpClient) : List Write → UdpClient
  | [] => s
  | write :: writes =>
    let s := { s with reportstruct := beforeWrite s.reportstruct write.now }
    match write.result with
    | .accepted len => runUDPClient settings (reportWrite settings s.accept len.1) writes
    | .failed true =>
      -- a fatal error ends the loop before the record is posted
      { s with reportstruct := { s.reportstruct with
        packetID := s.reportstruct.packetID - 1
        errwrite := .errFatal } }
    | .failed false =>
      let s := { s with reportstruct := { s.reportstruct with
        packetID := s.reportstruct.packetID - 1
        errwrite := .errAccount
        emptyreport := true } }
      runUDPClient settings (reportWrite settings s 0) writes

/-- One write of a frame with `bytecnt` bytes left: the client, the bytes left, whether the error was fatal. -/
def isochWrite (settings : ClientSettings) (frameid : Int) (s : UdpClient) (bytecnt : Int) (write : Write) :
    UdpClient × Int × Bool :=
  let s := { s with reportstruct := { beforeWrite s.reportstruct write.now with
    remaining := if settings.isModeAmount ∧ s.mAmount < settings.mBufLen then s.mAmount else bytecnt } }
  match write.result with
  | .accepted len =>
    let bytecnt := bytecnt - len.1
    -- the last packet of a burst is not below the minimum
    let short := bytecnt > 0 ∧ bytecnt < settings.udpPayloadMinimum
    let s := { s.accept with reportstruct := { s.reportstruct with
      transitReady := bytecnt = 0
      burstsize := if short then settings.udpPayloadMinimum else s.reportstruct.burstsize
      frameID := frameid } }
    (reportWrite settings s len.1, if short then settings.udpPayloadMinimum else bytecnt, false)
  | .failed fatal =>
    let s := { s with reportstruct := { s.reportstruct with
      packetID := s.reportstruct.packetID - 1
      emptyreport := true
      errwrite := if fatal then .errFatal else .errAccount
      frameID := frameid } }
    (reportWrite settings s 0, bytecnt, fatal)

/-- The writes of a frame, until its bytes are written; a fatal error only ends the loop over the frames. -/
def isochFrame (settings : ClientSettings) (frameid : Int) (s : UdpClient) (bytecnt : Int) (fatalwriteErr : Bool) :
    List Write → UdpClient × Bool
  | [] => (s, fatalwriteErr)
  | write :: writes =>
    if bytecnt > 0 then
      let (s, bytecnt, fatal) := isochWrite settings frameid s bytecnt write
      isochFrame settings frameid s bytecnt (fatalwriteErr || fatal) writes
    else (s, fatalwriteErr)

/-- The bytes of a frame, not below the minimum. -/
def Frame.burstsize (frame : Frame) (settings : ClientSettings) : Int :=
  if frame.bytecnt < settings.udpPayloadMinimum then settings.udpPayloadMinimum else frame.bytecnt

/-- `Client::RunUDPIsochronous` -/
def runUDPIsochronous (settings : ClientSettings) (s : UdpClient) : List Frame → UdpClient
  | [] => s
  | frame :: frames =>
    let bytecnt := frame.burstsize settings
    let s := { s with reportstruct := { s.reportstruct with burstsize := bytecnt } }
    let (s, fatalwriteErr) := isochFrame settings frame.frameid s bytecnt false frame.writes
    if fatalwriteErr then s else runUDPIsochronous settings s frames

/-- `Client::FinishTrafficActions` for UDP, up to `EndJob`: the FIN record has what the last write left in it. -/
def finishTrafficActions (s : UdpClient) (fin : Write) : UdpClient :=
  let s := { s with reportstruct := { s.reportstruct with
    packetTime := fin.now
    sentTime := fin.now } }
  let s :=
    match fin.result with
    | .accepted len =>
      { s.accept with reportstruct := { s.reportstruct with packetLen := len.1 } }.myReportPacket
    | .failed _ => s
  { s with reportstruct := { s.reportstruct with packetLen := 0 } }

/-! ## Runs -/

/-- The traffic of a UDP client: the writes of one of the two loops. -/
inductive SendLoop
  | udp (writes : List Write)
  | isochronous (frames : List Frame)

/-- A client after its traffic loop. -/
def runClient (settings : ClientSettings) (mAmount : Int) (startTime : Timeval) (first : Option WriteResult)
    (loop : SendLoop) : UdpClient :=
  let s := initTrafficLoop (startSynch (newClient mAmount) startTime first)
  match loop with
  | .udp writes => runUDPClient settings s writes
  | .isochronous frames => runUDPIsochronous settings s frames

/-! ## What is posted -/

/-- The records that are not empty. -/
def full (records : List ReportStruct) : Nat := records.countP fun r => !r.emptyreport

theorem full_append (records records' : List ReportStruct) : full (records ++ records') = full records + full records' :=
  List.countP_append

theorem full_singleton (r : ReportStruct) : full [r] = if r.emptyreport then 0 else 1 := by
  simp only [full, List.countP_singleton]
  cases r.emptyreport <;> rfl

section
variable (settings : ClientSettings)

/-- A record that is posted after an accepted write is not empty, one after a failed write is. -/
theorem reportWrite_full {s : UdpClient} {currLen : Int}
    (h : full s.posted + (if s.reportstruct.emptyreport then 0 else 1) = s.accepted) :
    full (reportWrite settings s currLen).posted = (reportWrite settings s currLen).accepted := by
  refine (full_append s.posted _).trans ?_
  rw [full_singleton]
  exact h

theorem startSynch_full (mAmount : Int) (startTime : Timeval) (first : Option WriteResult) :
    let s := startSynch (newClient mAmount) startTime first
    full s.posted = s.accepted := by
  cases first with
  | none => rfl
  | some result =>
    cases result with
    | accepted len => rfl
    | failed fatal => rfl

theorem runUDPClient_full (writes : List Write) {s : UdpClient} (h : full s.posted = s.accepted) :
    full (runUDPClient settings s writes).posted = (runUDPClient settings s writes).accepted := by
  induction writes generalizing s with
  | nil => exact h
  | cons write writes ih =>
    unfold runUDPClient
    cases write.result with
    | accepted len => exact ih (reportWrite_full settings (congrArg (· + 1) h))
    | failed fatal =>
      cases fatal with
      | true => exact h
      | false => exact ih (reportWrite_full settings h)

theorem isochWrite_full (frameid : Int) {s : UdpClient} (h : full s.posted = s.accepted) (bytecnt : Int)
    (write : Write) :
    full (isochWrite settings frameid s bytecnt write).1.posted =
      (isochWrite settings frameid s bytecnt write).1.accepted := by
  unfold isochWrite
  cases write.result with
  | accepted len => exact reportWrite_full settings (congrArg (· + 1) h)
  | failed fatal => exact reportWrite_full settings h

theorem isochFrame_full (frameid : Int) (writes : List Write) {s : UdpClient} (h : full s.posted = s.accepted)
    (bytecnt : Int) (fatalwriteErr : Bool) :
    full (isochFrame settings frameid s bytecnt fatalwriteErr writes).1.posted =
      (isochFrame settings frameid s bytecnt fatalwriteErr writes).1.accepted := by
  induction writes generalizing s bytecnt fatalwriteErr with
  | nil => exact h
  | cons write writes ih =>
    unfold isochFrame
    split
    · exact ih (isochWrite_full settings frameid h bytecnt write) _ _
    · exact h

theorem runUDPIsochronous_full (frames : List Frame) {s : UdpClient} (h : full s.posted = s.accepted) :
    full (runUDPIsochronous settings s frames).posted = (runUDPIsochronous settings s frames).accepted := by
  induction frames generalizing s with
  | nil => exact h
  | cons frame frames ih =>
    have hframe := isochFrame_full settings frame.frameid frame.writes
      (s := { s with reportstruct := { s.reportstruct with burstsize := frame.burstsize settings } }) h
      (frame.burstsize settings) false
    simp only [runUDPIsochronous]
    split
    · exact hframe
    · exact ih hframe

/-- Both loops post a full record for every accepted datagram. -/
theorem runClient_full (mAmount : Int) (startTime : Timeval) (first : Option WriteResult) (loop : SendLoop) :
    let s := runClient settings mAmount startTime first loop
    full s.posted = s.accepted := by
  have hstart := startSynch_full mAmount startTime first
  cases loop with
  | udp writes => exact runUDPClient_full settings writes hstart
  | isochronous frames => exact runUDPIsochronous_full settings frames hstart

end

/-- The FIN was accepted after a write that failed, whose empty record it inherits. -/
def staleFin (s : UdpClient) (fin : Write) : Bool :=
  match fin.result with
  | .accepted _ => s.reportstruct.emptyreport
  | .failed _ => false

theorem finishTrafficActions_full {s : UdpClient} (h : full s.posted = s.accepted) (fin : Write) :
    full (finishTrafficActions s fin).posted + (if staleFin s fin then 1 else 0) =
      (finishTrafficActions s fin).accepted := by
  unfold finishTrafficActions staleFin
  cases fin.result with
  | accepted len =>
    simp only [UdpClient.myReportPacket, UdpClient.accept, full_append, full_singleton, h]
    cases s.reportstruct.emptyreport <;> rfl
  | failed fatal => exact h

/-! ## What is accounted -/

/-- The records among the events of a flow. -/
def records (events : List FlowEvent) : List ReportStruct :=
  events.filterMap fun
    | .packet packet => some packet
    | _ => none

/-- The reporter of a UDP client counts a datagram and a write for every record that is not empty. -/
theorem clientUdp_step {stats : TransferInfo} (hudp : stats.common.isUDP = true) (e : FlowEvent) :
    let after := flowStep .clientUdp stats e
    after.common.isUDP = true ∧
      after.total.Datagrams.current = stats.total.Datagrams.current + full (records [e]) ∧
      after.sockCallstats.write.totWriteCnt = stats.sockCallstats.write.totWriteCnt + full (records [e]) := by
  cases e with
  | packet packet =>
    obtain ⟨hcommon, -, htotal, hsock⟩ := handlePacketClient_spec stats packet
    simp only [flowStep, TransferProtocolHandler.packetHandler, PacketHandler.handle, hcommon, htotal, hsock, hudp]
    rw [show records [.packet packet] = [packet] from rfl, full_singleton]
    split
    · exact ⟨trivial, (add_zero _).symm, (add_zero _).symm⟩
    · exact ⟨trivial, rfl, rfl⟩
  | tcpistats packet =>
    simp only [flowStep, handleTcpistats]
    split <;> exact ⟨hudp, (add_zero _).symm, (add_zero _).symm⟩
  | interval => exact ⟨hudp, (add_zero _).symm, (add_zero _).symm⟩
  | clock ts => exact ⟨hudp, (add_zero _).symm, (add_zero _).symm⟩

theorem clientUdp_counts {stats : TransferInfo} (hfresh : Fresh .clientUdp stats) (events : List FlowEvent) :
    let after := flowRun .clientUdp stats events
    after.common.isUDP = true ∧ after.total.Datagrams.current = full (records events) ∧
      after.sockCallstats.write.totWriteCnt = full (records events) := by
  refine history_invariant (P := fun es (s : TransferInfo) => s.common.isUDP = true ∧
    s.total.Datagrams.current = full (records es) ∧ s.sockCallstats.write.totWriteCnt = full (records es))
    ?_ (fun es s e ih => ?_) events
  · refine ⟨hfresh.isUDP, ?_, ?_⟩
    · rw [hfresh.total]
      rfl
    · rw [hfresh.sockCallstats]
      rfl
  · obtain ⟨hudp, hdatagrams, hwrites⟩ := ih
    obtain ⟨hudp', hdatagrams', hwrites'⟩ := clientUdp_step hudp e
    have hrecords : records (es ++ [e]) = records es ++ records [e] := List.filterMap_append
    rw [hrecords, full_append]
    exact ⟨hudp', by rw [hdatagrams', hdatagrams, Nat.cast_add], by rw [hwrites', hwrites, Nat.cast_add]⟩

/-- The counts of a final report are those of the accepted datagrams. -/
structure SentCounts (s : UdpClient) (final : TransferInfo) : Prop where
  datagrams : final.total.Datagrams.current = s.accepted
  cntDatagrams : final.cntDatagrams = s.accepted
  writes : final.sockCallstats.write.WriteCnt = s.accepted

/-- **Client sent counts.** In every run of a UDP client, with interval reports wherever they come, the final report
has -1 datagrams, the id of the end marker, and counts the marker as a datagram and as a write; so its counts are not
those of the accepted datagrams. (A FIN record that is empty by accident makes up for the marker.) -/
theorem client_sent_counts (settings : ClientSettings) (mAmount : Int) (startTime : Timeval)
    (first : Option WriteResult) (loop : SendLoop) (fin : Write) {stats : TransferInfo}
    (hfresh : Fresh .clientUdp stats) (events : List FlowEvent) :
    let sent := runClient settings mAmount startTime first loop
    let s := finishTrafficActions sent fin
    records events = s.posted →
      let final := finalReport .clientUdp (flowRun .clientUdp stats events) (endPacket s.reportstruct)
      let marker : Int := if staleFin sent fin then 0 else 1
      ¬ SentCounts s final ∧ final.cntDatagrams = -1 ∧ final.total.Datagrams.current = s.accepted + marker ∧
        final.sockCallstats.write.WriteCnt = s.accepted + marker := by
  intro sent s hrecords final marker
  obtain ⟨hudp, hdatagrams, hwrites⟩ := clientUdp_counts hfresh events
  -- the marker is one more record that is not empty
  obtain ⟨-, hdatagrams', hwrites'⟩ := clientUdp_step hudp (.packet (endPacket s.reportstruct))
  obtain ⟨-, hlast, -⟩ := handlePacketClient_spec (flowRun .clientUdp stats events) (endPacket s.reportstruct)
  have hfull : full s.posted + (if staleFin sent fin then 1 else 0) = s.accepted :=
    finishTrafficActions_full (runClient_full settings mAmount startTime first loop) fin
  have hposted : (full (records events) : Int) + 1 = s.accepted + marker := by
    rw [hrecords, ← hfull]
    simp only [marker]
    cases staleFin sent fin <;> simp
  have hsent : final.total.Datagrams.current = s.accepted + marker := by
    rw [← hposted, ← hdatagrams]
    exact hdatagrams'
  have hcnt : final.cntDatagrams = -1 := by
    rw [hudp, if_pos rfl] at hlast
    exact hlast
  have hwritten : final.sockCallstats.write.WriteCnt = s.accepted + marker := by
    rw [← hposted, ← hwrites]
    exact hwrites'
  refine ⟨fun hcounts => ?_, hcnt, hsent, hwritten⟩
  have := hcounts.cntDatagrams
  omega

/-! One write and the FIN are accepted: three datagrams are counted. -/

def udpClient : Settings := { (default : Settings) with
  threadMode := .client
  isUDP := true }

/-- A new report of a UDP client. -/
def udpClientInfo : TransferInfo := (initIndividualReport udpClient none none).info

def clientSettings : ClientSettings where
  isModeAmount := false
  mBufLen := 1470
  udpPayloadMinimum := 1

def acceptedWrite : Write where
  now := ⟨1, 0⟩
  result := .accepted ⟨1470, by decide⟩

/-- The client after one write and the FIN. -/
def oneWrite : UdpClient :=
  finishTrafficActions (runClient clientSettings 0 ⟨1, 0⟩ none (.udp [acceptedWrite])) acceptedWrite

/-- Its final report. -/
def oneWriteReport : TransferInfo :=
  finalReport .clientUdp (flowRun .clientUdp udpClientInfo (oneWrite.posted.map .packet))
    (endPacket oneWrite.reportstruct)

theorem client_sent_counts_one : ¬ SentCounts oneWrite oneWriteReport ∧ oneWriteReport.cntDatagrams = -1 :=
  have h := client_sent_counts clientSettings 0 ⟨1, 0⟩ none (.udp [acceptedWrite]) acceptedWrite
    (initIndividualReport_fresh udpClient none none) (oneWrite.posted.map .packet) rfl
  ⟨h.1, h.2.1⟩

theorem client_marker_counted :
    oneWrite.accepted = 2 ∧ oneWriteReport.total.Datagrams.current = 3 ∧ oneWriteReport.cntDatagrams = -1 ∧
      oneWriteReport.sockCallstats.write.WriteCnt = 3 ∧ ¬ SentCounts oneWrite oneWriteReport := by
  refine ⟨rfl, rfl, rfl, rfl, fun hcounts => ?_⟩
  exact absurd hcounts.datagrams (by decide)

end Iperf2.Traffic
