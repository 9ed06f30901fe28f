import Iperf2.Traffic.Delivery

/-!
# Records of a TCP client

A TCP client posts a record for its first payload and for every write of `Client::RunTCP`,
`Client::RunRateLimitedTCP` or `Client::RunNearCongestionTCP`. Where nothing asks for reports in between it posts none
for the writes, and its final record has all their bytes (`one_report`). What the system calls return, the clock and
the sampled TCP statistics are inputs: a run is a list of iterations. `accepted` counts the bytes that the socket took;
no function of the source has it.

* `TcpClient.iteration` : an iteration of each of the three loops; `TcpClient.run`;
* `TcpClient.finishTrafficActions` : the end, up to `EndJob`;
* `TcpClient.Pending` : the record under way has the bytes of its write;
* `TcpClient.Counted` : the bytes of the posted records, between two iterations; `Counted.of_run`.
-/

namespace Iperf2.Traffic
open Report Transition

/-! ## Settings -/

/-- What the loops read of the settings. `mBufLen` and `mBurstSize` are `int`s. -/
structure TcpClientSettings where
  mBufLen : Int
  mBurstSize : Int
  mAppRate : Nat
  isModeAmount : Bool
  isFileInput : Bool
  isEnhanced : Bool
  isIntervalTime : Bool
  isIsochronous : Bool
  isPeriodicBurst : Bool
  isTripTime : Bool
  isReverse : Bool
  isFullDuplex : Bool
  isNearCongest : Bool

/-- The loop that `Client::Run` calls for TCP. -/
inductive TcpLoop
  | runTCP
  | runRateLimitedTCP
  | runNearCongestionTCP
  deriving DecidableEq

namespace TcpClientSettings

/-- `Client::isburst` of a TCP client. -/
def isburst (settings : TcpClientSettings) : Bool :=
  settings.isIsochronous || settings.isPeriodicBurst || settings.isTripTime

/-- `Client::one_report` of a TCP client. -/
def oneReport (settings : TcpClientSettings) : Bool :=
  !settings.isEnhanced && !settings.isIntervalTime && !settings.isIsochronous && !settings.isPeriodicBurst &&
    !settings.isTripTime && !settings.isReverse

/-- `Client::Run`, without `RunWriteEventsTCP`, which needs `TCP_NOTSENT_LOWAT`. -/
def loop (settings : TcpClientSettings) : TcpLoop :=
  if settings.mAppRate > 0 then .runRateLimitedTCP
  else if settings.isNearCongest then .runNearCongestionTCP
  else .runTCP

/-- Every write has its record. -/
def reportsWrites (settings : TcpClientSettings) : Bool :=
  !settings.oneReport || settings.loop == .runNearCongestionTCP

end TcpClientSettings

/-! ## What an iteration gets -/

/-- What a `write` returns. -/
inductive TcpResult
  | took (n : Nat)
  | failed (errno : TcpErrno)

/-- What `ReportPacket` leaves of the TCP statistics in a record. -/
structure TcpStats where
  cwnd : Int
  rtt : Int
  retryTot : Int
  tcpistatValid : Bool

/-- A return of `FrameCounter::wait_tick`; for periodic bursts the time behind it, whether it is past the end of the
test, and the null event. -/
structure TcpTick where
  burstId : Int
  now : Timeval
  crossed : Bool
  nullEvent : Timeval
  tcp : TcpStats

/-- The inputs of an iteration: each loop uses those that it asks for. -/
structure TcpIteration where
  tick : TcpTick
  /-- The bytes of an isochronous frame, by its distribution. -/
  frame : Int
  /-- When a header is stored. -/
  start : Timeval
  /-- What `writen` returns for a header. -/
  header : Nat
  result : TcpResult
  now : Timeval
  tcp : TcpStats

/-! ## The client -/

/-- The state of a TCP client. `n` is the local of `RunRateLimitedTCP`, the bytes of the header. -/
structure TcpClient where
  reportstruct : ReportStruct
  mAmount : Nat
  totLen : Nat
  burstRemaining : Int
  burstId : Int
  n : Nat
  peerclose : Bool
  ended : Bool
  posted : List ReportStruct
  accepted : Nat

namespace TcpClient

/-- `Client::myReportPacket` -/
def myReportPacket (s : TcpClient) (tcp : TcpStats) : TcpClient :=
  let reportstruct := { s.reportstruct with
    cwnd := tcp.cwnd
    rtt := tcp.rtt
    retryTot := tcp.retryTot
    tcpistatValid := tcp.tcpistatValid }
  { s with
    posted := s.posted ++ [reportstruct]
    reportstruct := { reportstruct with packetLen := 0 } }

/-- `Client::PostNullEvent` -/
def postNullEvent (s : TcpClient) (now : Timeval) (tcp : TcpStats) : TcpClient :=
  { s with reportstruct := { (default : ReportStruct) with
    packetTime := now
    emptyreport := true } }.myReportPacket tcp

/-- `Client::Client`, `Client::StartSynch` with what `SendFirstPayload` returns (0 without a call), and
`Client::InitTrafficLoop`. -/
def start (mAmount : Nat) (startTime : Timeval) (first : Int) (tcp : TcpStats) : TcpClient :=
  let s : TcpClient := {
    reportstruct := { (default : ReportStruct) with
      packetID := 1
      packetLen := first }
    mAmount
    totLen := 0
    burstRemaining := 0
    burstId := 1
    n := 0
    peerclose := false
    ended := false
    posted := []
    accepted := first.toNat }
  let s :=
    if first > 0 then
      let s := { s with reportstruct := { s.reportstruct with
        packetTime := startTime
        sentTime := startTime
        prevSentTime := startTime
        prevPacketTime := startTime } }
      let s := s.myReportPacket tcp
      { s with reportstruct := { s.reportstruct with packetID := s.reportstruct.packetID + 1 } }
    else s
  { s with reportstruct := { s.reportstruct with
    errwrite := .noErr
    emptyreport := false
    packetLen := 0 } }

/-- `Client::InProgress`, but for the clock, the interrupt and the end of a file. -/
def inProgress (settings : TcpClientSettings) (s : TcpClient) : Bool :=
  settings.isFileInput || !(s.peerclose || settings.isModeAmount && s.mAmount == 0)

/-- `Client::WriteTcpTxHdr`, its record. -/
def writeTcpTxHdr (s : TcpClient) (start : Timeval) (burstSize burstId : Int) : TcpClient :=
  { s with
    reportstruct := { s.reportstruct with
      packetTime := start
      sentTime := start
      packetID := s.reportstruct.packetID + burstSize
      frameID := burstId
      burstsize := burstSize }
    burstId := burstId + 1 }

/-- What `RunTCP` and `RunNearCongestionTCP` do with an error of a write. A fatal one ends the loop before the record
is posted. -/
def failed (s : TcpClient) (errno : TcpErrno) : TcpClient :=
  if errno.fatal then
    { s with
      reportstruct := { s.reportstruct with
        packetLen := -1
        errwrite := .errFatal }
      ended := true }
  else
    { s with reportstruct := { s.reportstruct with
      packetLen := 0
      errwrite := .errAccount
      emptyreport := true } }

/-- The socket took bytes. -/
def took (settings : TcpClientSettings) (s : TcpClient) (n : Nat) : TcpClient :=
  { s with
    reportstruct := { s.reportstruct with
      packetLen := n
      errwrite := .noErr
      emptyreport := false }
    totLen := s.totLen + n
    -- `mAmount` may be unsigned, so don't let it underflow
    mAmount := if settings.isModeAmount then s.mAmount - n else s.mAmount
    accepted := s.accepted + n }

/-! ## `Client::RunTCP` -/

/-- A write of `RunTCP` took `n` bytes. -/
def tookTCP (settings : TcpClientSettings) (s : TcpClient) (n : Nat) : TcpClient :=
  if n = 0 then
    { s with
      reportstruct := { s.reportstruct with
        packetLen := 0
        emptyreport := true }
      peerclose := true }
  else
    let s := s.took settings n
    if settings.isburst then
      let burstRemaining := s.burstRemaining - n
      { s with
        reportstruct := { s.reportstruct with transitReady := !decide (burstRemaining > 0) }
        burstRemaining }
    else s

/-- The end of an iteration of `RunTCP` and `RunRateLimitedTCP`. -/
def report (settings : TcpClientSettings) (s : TcpClient) (tcp : TcpStats) : TcpClient :=
  if s.ended || settings.oneReport then s else s.myReportPacket tcp

/-- The size of the next burst, not below the minimum. -/
def burstSize (settings : TcpClientSettings) (frame : Int) : Int :=
  let size :=
    if settings.isIsochronous then frame
    else if settings.isPeriodicBurst then settings.mBurstSize
    else settings.mBufLen
  if size < sizeofTcpBurstPayload then sizeofTcpBurstPayload else size

/-- The start of a burst, up to the return of its `writen`: the wait of a periodic burst may cross the end of the test,
and a header that is not written stops the thread. -/
def startBurst (settings : TcpClientSettings) (s : TcpClient) (it : TcpIteration) : Option TcpClient :=
  let burstRemaining := burstSize settings it.frame
  let s := { s with burstRemaining }
  let s := if settings.isIsochronous || settings.isPeriodicBurst then { s with burstId := it.tick.burstId } else s
  if settings.isPeriodicBurst && it.tick.crossed then
    some { s with
      reportstruct := { s.reportstruct with
        packetTime := it.tick.now
        packetLen := 0
        emptyreport := true }
      ended := true }
  else
    let s := if settings.isPeriodicBurst then s.postNullEvent it.tick.nullEvent it.tick.tcp else s
    let s := s.writeTcpTxHdr it.start burstRemaining s.burstId
    if it.header < sizeofTcpBurstPayload then none else some (s.tookTCP settings it.header)

/-- An iteration of `Client::RunTCP`. -/
def runTCP (settings : TcpClientSettings) (s : TcpClient) (it : TcpIteration) : Option TcpClient :=
  if settings.isburst ∧ ¬ s.burstRemaining > 0 then
    (s.startBurst settings it).map fun s => s.report settings it.tcp
  else
    let s := { s with reportstruct := { s.reportstruct with
      packetTime := it.now
      sentTime := it.now } }
    let s :=
      match it.result with
      | .took n => s.tookTCP settings n
      | .failed errno => s.failed errno
    some (s.report settings it.tcp)

/-! ## `Client::RunNearCongestionTCP` -/

/-- A write of `RunNearCongestionTCP` took `n` bytes. -/
def tookNearCongestion (settings : TcpClientSettings) (s : TcpClient) (n : Nat) : TcpClient :=
  let s := s.took settings n
  let burstRemaining := s.burstRemaining - n
  { s with
    reportstruct := { s.reportstruct with transitReady := decide (burstRemaining ≤ 0) }
    burstRemaining }

/-- The end of an iteration of `RunNearCongestionTCP`: a burst that is done without sampled TCP statistics has its
record posted twice, the second time without bytes. -/
def reportNearCongestion (s : TcpClient) (tcp : TcpStats) : TcpClient :=
  if s.ended then s
  else if s.reportstruct.transitReady && !tcp.tcpistatValid then (s.myReportPacket tcp).myReportPacket tcp
  else s.myReportPacket tcp

/-- An iteration of `Client::RunNearCongestionTCP`, without the assertion that the header is written. Its record is
posted with one report, too. -/
def runNearCongestionTCP (settings : TcpClientSettings) (s : TcpClient) (it : TcpIteration) : TcpClient :=
  let s :=
    if s.burstRemaining = 0 then
      { s.writeTcpTxHdr it.start settings.mBufLen s.burstId with burstRemaining := settings.mBufLen }
    else
      { s with reportstruct := { s.reportstruct with
        packetTime := it.now
        sentTime := it.now } }
  let s := { s with reportstruct := { s.reportstruct with transitReady := false } }
  let s :=
    match it.result with
    | .took n => s.tookNearCongestion settings n
    | .failed errno => s.failed errno
  s.reportNearCongestion it.tcp

/-! ## `Client::RunRateLimitedTCP` -/

/-- What the iteration asks to write, before its header. -/
def packetLen (settings : TcpClientSettings) (s : TcpClient) : Int :=
  if settings.isModeAmount then
    if s.mAmount < (BitVec.ofInt 32 settings.mBufLen).toNat then s.mAmount else settings.mBufLen
  else settings.mBufLen

/-- The header of a burst with `--trip-times`. -/
def rateHeader (settings : TcpClientSettings) (s : TcpClient) (it : TcpIteration) : TcpClient :=
  let packetLen := s.packetLen settings
  if settings.isTripTime then
    if s.burstRemaining = 0 then
      let s := s.writeTcpTxHdr it.start settings.mBufLen s.burstId
      { s with
        reportstruct := { s.reportstruct with packetLen := packetLen - it.header }
        burstRemaining := settings.mBufLen - it.header
        n := it.header
        accepted := s.accepted + it.header }
    else
      { s with
        reportstruct := { s.reportstruct with
          packetLen := if packetLen > s.burstRemaining then s.burstRemaining else packetLen }
        n := 0 }
  else
    { s with
      reportstruct := { s.reportstruct with packetLen }
      n := 0 }

/-- Behind the write of an iteration, which took `len` bytes behind those of the header. -/
def rateWritten (settings : TcpClientSettings) (s : TcpClient) (now : Timeval) (len : Nat)
    (errwrite : WriteErrType) : TcpClient :=
  { s with
    reportstruct := { s.reportstruct with
      packetLen := len + s.n
      packetTime := now
      sentTime := now
      errwrite }
    burstRemaining := if settings.isTripTime then s.burstRemaining - len else s.burstRemaining
    mAmount := if settings.isModeAmount then s.mAmount - (len + s.n) else s.mAmount
    accepted := s.accepted + len }

/-- An iteration of `Client::RunRateLimitedTCP` in which it has tokens. Behind a fatal error the record still has the
length that was asked for. -/
def runRateLimitedTCP (settings : TcpClientSettings) (s : TcpClient) (it : TcpIteration) : TcpClient :=
  let s := s.rateHeader settings it
  let s :=
    match it.result with
    | .took len => { s with totLen := s.totLen + (len + s.n) }.rateWritten settings it.now len .noErr
    | .failed errno =>
      if errno.fatal then
        { s with
          reportstruct := { s.reportstruct with errwrite := .errFatal }
          ended := true }
      else s.rateWritten settings it.now 0 .errAccount
  s.report settings it.tcp

/-! ## Runs -/

/-- An iteration of the loop that `Client::Run` calls. -/
def iteration (settings : TcpClientSettings) (s : TcpClient) (it : TcpIteration) : Option TcpClient :=
  match settings.loop with
  | .runTCP => s.runTCP settings it
  | .runRateLimitedTCP => some (s.runRateLimitedTCP settings it)
  | .runNearCongestionTCP => some (s.runNearCongestionTCP settings it)

/-- The loop over its iterations; the clock or an interrupt may end it, where they do. -/
def runLoop (settings : TcpClientSettings) (s : TcpClient) : List TcpIteration → Option TcpClient
  | [] => some s
  | it :: its =>
    if s.ended || !s.inProgress settings then some s
    else (s.iteration settings it).bind fun s => runLoop settings s its

/-- `Client::Run` -/
def run (settings : TcpClientSettings) (mAmount : Nat) (startTime : Timeval) (first : Int) (tcp : TcpStats)
    (now : Timeval) (its : List TcpIteration) : Option TcpClient :=
  let s := start mAmount startTime first tcp
  runLoop settings { s with reportstruct := { s.reportstruct with packetTime := now } } its

/-- The error that ended the loop was fatal. -/
def fatal (s : TcpClient) : Bool := s.reportstruct.errwrite == .errFatal

end TcpClient

/-- What the end of the traffic gets: whether `shutdown` succeeds, the null event behind it, the time. -/
structure TcpEnding where
  shutdown : Bool
  nullEvent : Timeval
  tcp : TcpStats
  now : Timeval

/-- `Client::AwaitServerCloseEvent` is called, with its null event. -/
def TcpEnding.awaits (settings : TcpClientSettings) (e : TcpEnding) : Bool := e.shutdown && !settings.isFullDuplex

/-- `Client::FinishTrafficActions` for TCP, up to `EndJob`. -/
def TcpClient.finishTrafficActions (settings : TcpClientSettings) (s : TcpClient) (e : TcpEnding) : TcpClient :=
  let s := if e.awaits settings then s.postNullEvent e.nullEvent e.tcp else s
  { s with reportstruct := { s.reportstruct with
    packetTime := e.now
    packetLen := if settings.oneReport then s.totLen else s.reportstruct.packetLen } }

/-! ## What is posted -/

namespace TcpClient

theorem myReportPacket_bytes (s : TcpClient) (tcp : TcpStats) :
    sumBytes .client (s.myReportPacket tcp).posted =
      sumBytes .client s.posted + countedBytes .client s.reportstruct := by
  refine (sumBytes_append .client s.posted _).trans ?_
  rw [sumBytes, sumBytes, add_zero]
  rfl

/-- Between two iterations: the posted records have the bytes that the socket took, or those of the first payload when
there is one report. -/
structure Counted (settings : TcpClientSettings) (first : Nat) (s : TcpClient) : Prop where
  writes : settings.reportsWrites = true →
    sumBytes .client s.posted + (if s.fatal then (s.n : Int) else 0) = s.accepted
  one : settings.reportsWrites = false → sumBytes .client s.posted = first
  total : settings.oneReport = true → first + s.totLen = s.accepted
  left : settings.oneReport = false → s.fatal = false → s.reportstruct.packetLen = 0
  stale : s.fatal = true → s.ended = true ∧ (settings.loop ≠ .runRateLimitedTCP → s.reportstruct.packetLen = -1)
  header : settings.isTripTime = false ∨ settings.loop ≠ .runRateLimitedTCP → s.n = 0

/-- Behind a write: the record under way has its bytes. -/
structure Pending (settings : TcpClientSettings) (first : Nat) (s : TcpClient) : Prop where
  writes : settings.reportsWrites = true →
    sumBytes .client s.posted + countedBytes .client s.reportstruct = s.accepted
  one : settings.reportsWrites = false → sumBytes .client s.posted = first
  total : settings.oneReport = true → first + s.totLen = s.accepted
  runs : s.fatal = false
  header : settings.isTripTime = false ∨ settings.loop ≠ .runRateLimitedTCP → s.n = 0

section
variable {settings : TcpClientSettings} {first : Nat} {s : TcpClient}

/-- The record is posted. -/
theorem Pending.post (h : Pending settings first s) (hwrites : settings.reportsWrites = true) (tcp : TcpStats) :
    Counted settings first (s.myReportPacket tcp) where
  writes := fun _ => by
    have hruns : (s.myReportPacket tcp).fatal = false := h.runs
    rw [myReportPacket_bytes, hruns, if_neg Bool.false_ne_true, add_zero]
    exact h.writes hwrites
  one := fun hone => absurd (hone.symm.trans hwrites) Bool.false_ne_true
  total := h.total
  left := fun _ _ => rfl
  stale := fun hfatal => absurd (h.runs.symm.trans hfatal) Bool.false_ne_true
  header := h.header

/-- The record is kept for the final one. -/
theorem Pending.keep (h : Pending settings first s) (hone : settings.oneReport = true)
    (hwrites : settings.reportsWrites = false) : Counted settings first s where
  writes := fun hall => absurd (hwrites.symm.trans hall) Bool.false_ne_true
  one := h.one
  total := h.total
  left := fun hnot => absurd (hnot.symm.trans hone) Bool.false_ne_true
  stale := fun hfatal => absurd (h.runs.symm.trans hfatal) Bool.false_ne_true
  header := h.header

theorem Counted.runs (h : Counted settings first s) (hruns : s.ended = false) : s.fatal = false := by
  rw [← Bool.not_eq_true]
  intro hfatal
  rw [(h.stale hfatal).1] at hruns
  cases hruns

/-- The posted records of a loop that goes on have all bytes. -/
theorem Counted.bytes (h : Counted settings first s) (hruns : s.ended = false)
    (hwrites : settings.reportsWrites = true) : sumBytes .client s.posted = s.accepted := by
  have hbytes := h.writes hwrites
  rwa [h.runs hruns, if_neg Bool.false_ne_true, add_zero] at hbytes

/-- The socket took bytes. -/
theorem Counted.took (h : Counted settings first s) (hruns : s.ended = false) (n : Nat) :
    Pending settings first (s.took settings n) where
  writes := fun hwrites => by
    show sumBytes .client s.posted + (n : Int) = (s.accepted + n : Nat)
    rw [h.bytes hruns hwrites, Nat.cast_add]
  one := h.one
  total := fun hone => by
    show first + (s.totLen + n) = s.accepted + n
    rw [← h.total hone, Nat.add_assoc]
  runs := rfl
  header := h.header

/-- An empty record has no bytes. -/
theorem Counted.empty (h : Counted settings first s) (hruns : s.ended = false) {s' : TcpClient}
    (hposted : s'.posted = s.posted) (haccepted : s'.accepted = s.accepted) (htotal : s'.totLen = s.totLen)
    (hempty : s'.reportstruct.emptyreport = true) (hfatal : s'.fatal = false) (hn : s'.n = s.n) :
    Pending settings first s' where
  writes := fun hwrites => by
    rw [hposted, haccepted, countedBytes, if_pos hempty, add_zero, h.bytes hruns hwrites]
  one := fun hone => by rw [hposted, h.one hone]
  total := fun hone => by rw [htotal, haccepted, h.total hone]
  runs := hfatal
  header := fun hheader => hn.trans (h.header hheader)

/-- A fatal error leaves the result of the call in the record. -/
theorem Counted.fails (h : Counted settings first s) (hruns : s.ended = false)
    (hloop : settings.loop ≠ .runRateLimitedTCP) {errno : TcpErrno} (herrno : errno.fatal = true) :
    Counted settings first (s.failed errno) where
  writes := fun hwrites => by
    rw [failed, if_pos herrno]
    show sumBytes .client s.posted + (if _ then (s.n : Int) else 0) = s.accepted
    rw [h.header (.inr hloop), Nat.cast_zero, ite_self, add_zero, h.bytes hruns hwrites]
  one := fun hone => by
    rw [failed, if_pos herrno]
    exact h.one hone
  total := fun hone => by
    rw [failed, if_pos herrno]
    exact h.total hone
  left := fun _ hfatal => by
    rw [failed, if_pos herrno] at hfatal
    cases hfatal
  stale := fun _ => by
    rw [failed, if_pos herrno]
    exact ⟨rfl, fun _ => rfl⟩
  header := fun hheader => by
    rw [failed, if_pos herrno]
    exact h.header hheader

theorem Counted.fails_empty (h : Counted settings first s) (hruns : s.ended = false) {errno : TcpErrno}
    (herrno : errno.fatal = false) : Pending settings first (s.failed errno) := by
  rw [failed, if_neg (herrno ▸ Bool.false_ne_true)]
  exact h.empty hruns rfl rfl rfl rfl rfl rfl

/-- The times of the record and what else is in it do not matter. -/
theorem Counted.congr (h : Counted settings first s) {s' : TcpClient} (hposted : s'.posted = s.posted)
    (haccepted : s'.accepted = s.accepted) (htotal : s'.totLen = s.totLen) (hn : s'.n = s.n)
    (hended : s'.ended = s.ended) (herrwrite : s'.reportstruct.errwrite = s.reportstruct.errwrite)
    (hpacketLen : s'.reportstruct.packetLen = s.reportstruct.packetLen) : Counted settings first s' := by
  have hfatal : s'.fatal = s.fatal := by rw [fatal, fatal, herrwrite]
  exact {
    writes := by rw [hposted, haccepted, hfatal, hn]; exact h.writes
    one := by rw [hposted]; exact h.one
    total := by rw [htotal, haccepted]; exact h.total
    left := by rw [hfatal, hpacketLen]; exact h.left
    stale := by rw [hfatal, hended, hpacketLen]; exact h.stale
    header := by rw [hn]; exact h.header }

/-- A null event posts an empty record. -/
theorem Counted.postNullEvent (h : Counted settings first s) (hruns : s.ended = false)
    (hwrites : settings.reportsWrites = true) (now : Timeval) (tcp : TcpStats) :
    Counted settings first (s.postNullEvent now tcp) := by
  refine Pending.post ?_ hwrites tcp
  exact h.empty hruns rfl rfl rfl rfl rfl rfl

theorem Counted.start (settings : TcpClientSettings) (mAmount : Nat) (startTime : Timeval) (first : Int)
    (tcp : TcpStats) : Counted settings first.toNat (start mAmount startTime first tcp) := by
  have hbytes : sumBytes .client (TcpClient.start mAmount startTime first tcp).posted = first.toNat := by
    unfold TcpClient.start
    dsimp only
    split
    · rename_i hfirst
      rw [myReportPacket_bytes]
      show 0 + first = (first.toNat : Int)
      omega
    · rename_i hfirst
      show 0 = (first.toNat : Int)
      omega
  have hrest : (TcpClient.start mAmount startTime first tcp).accepted = first.toNat ∧
      (TcpClient.start mAmount startTime first tcp).totLen = 0 ∧
      (TcpClient.start mAmount startTime first tcp).n = 0 := by
    unfold TcpClient.start
    dsimp only
    split <;> exact ⟨rfl, rfl, rfl⟩
  obtain ⟨haccepted, htotal, hn⟩ := hrest
  exact {
    writes := fun _ => by rw [hbytes, haccepted, hn, Nat.cast_zero, ite_self, add_zero]
    one := fun _ => hbytes
    total := fun _ => by rw [htotal, haccepted, Nat.add_zero]
    left := fun _ _ => rfl
    stale := fun hfatal => nomatch hfatal
    header := fun _ => hn }

/-! ## The loops -/

theorem reportsWrites_of (hone : settings.oneReport = false) : settings.reportsWrites = true := by
  rw [TcpClientSettings.reportsWrites, hone]
  rfl

/-- The end of an iteration of a loop that posts no records with one report. -/
theorem Pending.report (h : Pending settings first s) (hruns : s.ended = false)
    (hloop : settings.loop ≠ .runNearCongestionTCP) (tcp : TcpStats) :
    Counted settings first (s.report settings tcp) := by
  rw [TcpClient.report, hruns, Bool.false_or]
  split
  · rename_i hone
    refine h.keep hone ?_
    rw [TcpClientSettings.reportsWrites, hone, beq_eq_false_iff_ne.mpr hloop]
    rfl
  · rename_i hone
    exact h.post (reportsWrites_of (Bool.not_eq_true _ ▸ hone)) tcp

/-- Behind a fatal error nothing is posted. -/
theorem Counted.report (h : Counted settings first s) (hfatal : s.fatal = true) (tcp : TcpStats) :
    Counted settings first (s.report settings tcp) := by
  rw [TcpClient.report, (h.stale hfatal).1, Bool.true_or, if_pos rfl]
  exact h

theorem failed_fatal {errno : TcpErrno} (herrno : errno.fatal = true) (s : TcpClient) :
    (s.failed errno).fatal = true := by
  rw [TcpClient.failed, if_pos herrno]
  rfl

theorem failed_ended {errno : TcpErrno} (herrno : errno.fatal = false) (s : TcpClient) :
    (s.failed errno).ended = s.ended := by
  rw [TcpClient.failed, if_neg (herrno ▸ Bool.false_ne_true)]

theorem Counted.tookTCP (h : Counted settings first s) (hruns : s.ended = false) (n : Nat) :
    Pending settings first (s.tookTCP settings n) ∧ (s.tookTCP settings n).ended = false := by
  unfold TcpClient.tookTCP
  split
  · exact ⟨h.empty hruns rfl rfl rfl rfl (h.runs hruns) rfl, hruns⟩
  · have htook := h.took hruns n
    dsimp only
    split
    · exact ⟨⟨htook.writes, htook.one, htook.total, htook.runs, htook.header⟩, hruns⟩
    · exact ⟨htook, hruns⟩

theorem Counted.startBurst (h : Counted settings first s) (hruns : s.ended = false) (hloop : settings.loop = .runTCP)
    {it : TcpIteration} {s' : TcpClient} (hstep : s.startBurst settings it = some s') :
    Counted settings first (s'.report settings it.tcp) := by
  unfold TcpClient.startBurst at hstep
  dsimp only at hstep
  generalize hs₁ : (if (settings.isIsochronous || settings.isPeriodicBurst) = true then _ else _ : TcpClient) = s₁
    at hstep
  have h₁ : Counted settings first s₁ ∧ s₁.ended = false := by
    rw [← hs₁]
    split <;> exact ⟨h.congr rfl rfl rfl rfl rfl rfl rfl, hruns⟩
  split at hstep
  · -- the wait crossed the end of the test, and nothing is posted
    rename_i hcrossed
    cases hstep
    exact {
      writes := h₁.1.writes
      one := h₁.1.one
      total := h₁.1.total
      left := fun _ _ => rfl
      stale := fun hfatal => absurd ((h₁.1.runs h₁.2).symm.trans hfatal) Bool.false_ne_true
      header := h₁.1.header }
  · generalize hs₂ : (if settings.isPeriodicBurst = true then _ else _ : TcpClient) = s₂ at hstep
    have h₂ : Counted settings first s₂ ∧ s₂.ended = false := by
      rw [← hs₂]
      split
      · rename_i hperiodic
        have hone : settings.oneReport = false := by
          rw [TcpClientSettings.oneReport, hperiodic]
          simp
        exact ⟨h₁.1.postNullEvent h₁.2 (reportsWrites_of hone) _ _, h₁.2⟩
      · exact h₁
    split at hstep
    · cases hstep
    · cases hstep
      have hheader : Counted settings first (s₂.writeTcpTxHdr it.start (burstSize settings it.frame) s₂.burstId) :=
        h₂.1.congr rfl rfl rfl rfl rfl rfl rfl
      obtain ⟨hpending, hends⟩ := hheader.tookTCP h₂.2 it.header
      exact hpending.report hends (hloop ▸ by decide) it.tcp

theorem Counted.runTCP (h : Counted settings first s) (hruns : s.ended = false) (hloop : settings.loop = .runTCP)
    {it : TcpIteration} {s' : TcpClient} (hstep : s.runTCP settings it = some s') : Counted settings first s' := by
  unfold TcpClient.runTCP at hstep
  split at hstep
  · obtain ⟨burst, hburst, rfl⟩ := Option.map_eq_some_iff.mp hstep
    exact h.startBurst hruns hloop hburst
  · cases hstep
    have hwrite : Counted settings first { s with reportstruct := { s.reportstruct with
        packetTime := it.now
        sentTime := it.now } } := h.congr rfl rfl rfl rfl rfl rfl rfl
    dsimp only
    cases it.result with
    | took n =>
      obtain ⟨hpending, hends⟩ := hwrite.tookTCP hruns n
      exact hpending.report hends (hloop ▸ by decide) it.tcp
    | failed errno =>
      cases herrno : errno.fatal with
      | true =>
        exact (hwrite.fails hruns (hloop ▸ by decide) herrno).report (failed_fatal herrno _) it.tcp
      | false =>
        exact (hwrite.fails_empty hruns herrno).report ((failed_ended herrno _).trans hruns) (hloop ▸ by decide) it.tcp

theorem Counted.tookNearCongestion (h : Counted settings first s) (hruns : s.ended = false) (n : Nat) :
    Pending settings first (s.tookNearCongestion settings n) :=
  have htook := h.took hruns n
  ⟨htook.writes, htook.one, htook.total, htook.runs, htook.header⟩

/-- A record that is posted again has no bytes. -/
theorem Pending.post_again (h : Pending settings first s) (hruns : s.ended = false)
    (hwrites : settings.reportsWrites = true) (tcp : TcpStats) :
    Counted settings first ((s.myReportPacket tcp).myReportPacket tcp) := by
  have hposted := h.post hwrites tcp
  refine Pending.post ⟨fun _ => ?_, hposted.one, hposted.total, h.runs, hposted.header⟩ hwrites tcp
  rw [hposted.bytes hruns hwrites]
  show ((s.myReportPacket tcp).accepted : Int) + (if s.reportstruct.emptyreport then 0 else 0) = _
  rw [ite_self, add_zero]

theorem Pending.reportNearCongestion (h : Pending settings first s) (hruns : s.ended = false)
    (hwrites : settings.reportsWrites = true) (tcp : TcpStats) :
    Counted settings first (s.reportNearCongestion tcp) := by
  rw [TcpClient.reportNearCongestion, hruns, if_neg Bool.false_ne_true]
  split
  · exact h.post_again hruns hwrites tcp
  · exact h.post hwrites tcp

theorem Counted.runNearCongestionTCP (h : Counted settings first s) (hruns : s.ended = false)
    (hloop : settings.loop = .runNearCongestionTCP) (it : TcpIteration) :
    Counted settings first (s.runNearCongestionTCP settings it) := by
  have hwrites : settings.reportsWrites = true := by
    rw [TcpClientSettings.reportsWrites, hloop]
    exact Bool.or_true _
  unfold TcpClient.runNearCongestionTCP
  dsimp only
  generalize hs₁ : (if s.burstRemaining = 0 then _ else _ : TcpClient) = s₁
  have h₁ : Counted settings first s₁ ∧ s₁.ended = false := by
    rw [← hs₁]
    split <;> exact ⟨h.congr rfl rfl rfl rfl rfl rfl rfl, hruns⟩
  have hwrite : Counted settings first { s₁ with reportstruct := { s₁.reportstruct with transitReady := false } } :=
    h₁.1.congr rfl rfl rfl rfl rfl rfl rfl
  cases it.result with
  | took n =>
    exact (hwrite.tookNearCongestion h₁.2 n).reportNearCongestion h₁.2 hwrites it.tcp
  | failed errno =>
    cases herrno : errno.fatal with
    | true =>
      have hfails := hwrite.fails h₁.2 (hloop ▸ by decide) herrno
      dsimp only
      rw [TcpClient.reportNearCongestion, if_pos (hfails.stale (failed_fatal herrno _)).1]
      exact hfails
    | false =>
      exact (hwrite.fails_empty h₁.2 herrno).reportNearCongestion ((failed_ended herrno _).trans h₁.2) hwrites it.tcp

/-- The header of an iteration: the socket took its bytes, and no record has them yet. -/
structure Headed (s s' : TcpClient) : Prop where
  ended : s'.ended = s.ended
  posted : s'.posted = s.posted
  totLen : s'.totLen = s.totLen
  accepted : s'.accepted = s.accepted + s'.n
  errwrite : s'.reportstruct.errwrite = s.reportstruct.errwrite
  emptyreport : s'.reportstruct.emptyreport = s.reportstruct.emptyreport

theorem rateHeader_headed (settings : TcpClientSettings) (s : TcpClient) (it : TcpIteration) :
    Headed s (s.rateHeader settings it) := by
  unfold TcpClient.rateHeader
  dsimp only
  split
  · split <;> exact ⟨rfl, rfl, rfl, rfl, rfl, rfl⟩
  · exact ⟨rfl, rfl, rfl, rfl, rfl, rfl⟩

theorem rateHeader_none (htrip : settings.isTripTime = false) (s : TcpClient) (it : TcpIteration) :
    (s.rateHeader settings it).n = 0 := by
  unfold TcpClient.rateHeader
  dsimp only
  rw [if_neg (htrip ▸ Bool.false_ne_true)]

theorem tripTime_of_oneReport (hone : settings.oneReport = true) : settings.isTripTime = false := by
  cases htrip : settings.isTripTime with
  | false => rfl
  | true =>
    rw [TcpClientSettings.oneReport, htrip] at hone
    simp at hone

/-- The record of an iteration has its header and what its write took. -/
theorem Counted.rateWritten (h : Counted settings first s) (hruns : s.ended = false)
    (hfull : s.reportstruct.emptyreport = false) {s₁ : TcpClient} (hheaded : Headed s s₁)
    (hheader : settings.isTripTime = false ∨ settings.loop ≠ .runRateLimitedTCP → s₁.n = 0) (now : Timeval) {len : Nat}
    {errwrite : WriteErrType} (herrwrite : errwrite ≠ .errFatal) {totLen : Nat}
    (htotal : s₁.n = 0 → totLen = s.totLen + len) :
    Pending settings first ({ s₁ with totLen }.rateWritten settings now len errwrite) where
  writes := fun hwrites => by
    show sumBytes .client s₁.posted + (if s₁.reportstruct.emptyreport then 0 else ((len : Int) + s₁.n)) =
      (s₁.accepted + len : Nat)
    rw [hheaded.emptyreport, hfull, if_neg Bool.false_ne_true, hheaded.posted, h.bytes hruns hwrites,
      hheaded.accepted]
    push_cast
    omega
  one := fun hno => by
    show sumBytes .client s₁.posted = first
    rw [hheaded.posted, h.one hno]
  total := fun hone => by
    show first + totLen = s₁.accepted + len
    have hn := hheader (.inl (tripTime_of_oneReport hone))
    rw [htotal hn, hheaded.accepted, hn, ← h.total hone]
    omega
  runs := beq_eq_false_iff_ne.mpr herrwrite
  header := hheader

/-- Behind a fatal error no record has the header. -/
theorem Counted.rateFails (h : Counted settings first s) (hruns : s.ended = false)
    (hloop : settings.loop = .runRateLimitedTCP) {s₁ : TcpClient} (hheaded : Headed s s₁)
    (hheader : settings.isTripTime = false ∨ settings.loop ≠ .runRateLimitedTCP → s₁.n = 0) :
    Counted settings first { s₁ with
      reportstruct := { s₁.reportstruct with errwrite := .errFatal }
      ended := true } where
  writes := fun hwrites => by
    show sumBytes .client s₁.posted + (s₁.n : Int) = s₁.accepted
    rw [hheaded.posted, h.bytes hruns hwrites, hheaded.accepted, Nat.cast_add]
  one := fun hno => by
    show sumBytes .client s₁.posted = first
    rw [hheaded.posted, h.one hno]
  total := fun hone => by
    show first + s₁.totLen = s₁.accepted
    rw [hheaded.totLen, hheaded.accepted, hheader (.inl (tripTime_of_oneReport hone)), h.total hone, Nat.add_zero]
  left := fun _ hfatal => nomatch hfatal
  stale := fun _ => ⟨rfl, fun hne => absurd hloop hne⟩
  header := hheader

theorem Counted.runRateLimitedTCP (h : Counted settings first s) (hruns : s.ended = false)
    (hfull : s.reportstruct.emptyreport = false) (hloop : settings.loop = .runRateLimitedTCP) (it : TcpIteration) :
    Counted settings first (s.runRateLimitedTCP settings it) := by
  have hnear : settings.loop ≠ .runNearCongestionTCP := hloop ▸ by decide
  have hheader (htrip : settings.isTripTime = false ∨ settings.loop ≠ .runRateLimitedTCP) :
      (s.rateHeader settings it).n = 0 :=
    htrip.elim (fun htrip => rateHeader_none htrip s it) fun hne => absurd hloop hne
  have hheaded := rateHeader_headed settings s it
  unfold TcpClient.runRateLimitedTCP
  dsimp only
  generalize s.rateHeader settings it = s₁ at hheaded hheader
  have hruns₁ := hheaded.ended.trans hruns
  cases it.result with
  | took len =>
    have hpending := h.rateWritten hruns hfull hheaded hheader it.now (show WriteErrType.noErr ≠ _ by decide)
      fun hn => show s₁.totLen + (len + s₁.n) = s.totLen + len by rw [hheaded.totLen, hn, Nat.add_zero]
    exact hpending.report hruns₁ hnear it.tcp
  | failed errno =>
    dsimp only
    split
    · exact (h.rateFails hruns hloop hheaded hheader).report rfl it.tcp
    · have hpending := h.rateWritten hruns hfull hheaded hheader it.now
        (show WriteErrType.errAccount ≠ _ by decide) fun _ => show s₁.totLen = s.totLen + 0 from hheaded.totLen
      exact hpending.report hruns₁ hnear it.tcp

theorem report_emptyreport (settings : TcpClientSettings) (s : TcpClient) (tcp : TcpStats) :
    (s.report settings tcp).reportstruct.emptyreport = s.reportstruct.emptyreport := by
  unfold TcpClient.report
  split <;> rfl

theorem runRateLimitedTCP_full (settings : TcpClientSettings) (s : TcpClient) (it : TcpIteration) :
    (s.runRateLimitedTCP settings it).reportstruct.emptyreport = s.reportstruct.emptyreport := by
  unfold TcpClient.runRateLimitedTCP
  dsimp only
  rw [report_emptyreport, ← (rateHeader_headed settings s it).emptyreport]
  cases it.result with
  | took len => rfl
  | failed errno =>
    dsimp only
    split <;> rfl

/-! ## The whole loop -/

/-- The rate limited loop has no empty records. -/
def Full (settings : TcpClientSettings) (s : TcpClient) : Prop :=
  settings.loop = .runRateLimitedTCP → s.reportstruct.emptyreport = false

theorem Counted.iteration (h : Counted settings first s) (hfull : s.Full settings) (hruns : s.ended = false)
    {it : TcpIteration} {s' : TcpClient} (hstep : s.iteration settings it = some s') :
    Counted settings first s' ∧ s'.Full settings := by
  unfold TcpClient.iteration at hstep
  split at hstep
  · rename_i hloop
    exact ⟨h.runTCP hruns hloop hstep, fun hrate => absurd (hloop.symm.trans hrate) (by decide)⟩
  · rename_i hloop
    cases hstep
    exact ⟨h.runRateLimitedTCP hruns (hfull hloop) hloop it, fun hrate =>
      (runRateLimitedTCP_full settings s it).trans (hfull hrate)⟩
  · rename_i hloop
    cases hstep
    exact ⟨h.runNearCongestionTCP hruns hloop it, fun hrate => absurd (hloop.symm.trans hrate) (by decide)⟩

theorem Counted.runLoop (h : Counted settings first s) (hfull : s.Full settings) {its : List TcpIteration}
    {s' : TcpClient} (hrun : s.runLoop settings its = some s') : Counted settings first s' := by
  induction its generalizing s with
  | nil =>
    cases hrun
    exact h
  | cons it its ih =>
    rw [TcpClient.runLoop] at hrun
    split at hrun
    · cases hrun
      exact h
    · rename_i hgoes
      rw [Bool.or_eq_true, not_or] at hgoes
      obtain ⟨mid, hmid, hrest⟩ := Option.bind_eq_some_iff.mp hrun
      obtain ⟨hcounted, hfull'⟩ := h.iteration hfull (Bool.not_eq_true _ ▸ hgoes.1) hmid
      exact ih hcounted hfull' hrest

/-- Every run keeps the count. -/
theorem Counted.of_run {settings : TcpClientSettings} {mAmount : Nat} {startTime : Timeval} {first : Int}
    {tcp : TcpStats} {now : Timeval} {its : List TcpIteration} {s : TcpClient}
    (hrun : run settings mAmount startTime first tcp now its = some s) : Counted settings first.toNat s := by
  have hstart := Counted.start settings mAmount startTime first tcp
  refine Counted.runLoop ?_ (fun _ => ?_) hrun
  · exact hstart.congr rfl rfl rfl rfl rfl rfl rfl
  · rfl

end

end TcpClient

end Iperf2.Traffic
