import Mathlib.Algebra.Group.Int.Defs
import Mathlib.Algebra.Group.Pi.Basic
import Mathlib.Algebra.Ring.Rat
import Mathlib.Data.Fin.VecNotation

/-!
# The data of the reporter

The structures of `Reporter.h`, `packet_ring.h` and `histogram.h` that the accounting of a flow reads and writes.
Times in seconds and statistics (`double`, `float`) are rationals, counters are integers. A function pointer that is
only tested or called is the name of the function, or for an output handler whether it is set; `common` has the flags
that are tested.

`SendReadStats` is a union: it has the layout of its read statistics, and `write` reads and sets the write statistics
at the words they lie on.
-/

namespace Iperf2.Report

/-! ## Time -/

/-- `struct timeval` -/
structure Timeval where
  sec : Int
  usec : Int
  deriving DecidableEq, Inhabited

def rMillion : Int := 1000000

/-- `TimeDifference` -/
def timeDifference (left right : Timeval) : Rat :=
  (left.sec - right.sec : Int) + (left.usec - right.usec : Int) / rMillion

/-- `TimeDouble` -/
def timeDouble (t : Timeval) : Rat := t.sec + t.usec / rMillion

/-- `TimeZero` -/
def timeZero (t : Timeval) : Bool := t.sec == 0 && t.usec == 0

/-- `TimeAdd` -/
def timeAdd (left right : Timeval) : Timeval :=
  let usec := left.usec + right.usec
  if usec > rMillion then ⟨left.sec + 1 + right.sec, usec - rMillion⟩ else ⟨left.sec + right.sec, usec⟩

/-! ## Packet records -/

inductive WriteErrType
  | noErr
  | errAccount
  | errFatal
  | errNoAccount
  deriving DecidableEq, Inhabited

/-- The bits of `l2errors`. -/
structure L2Errors where
  unknown : Bool
  lenErr : Bool
  csumErr : Bool
  deriving DecidableEq, Inhabited

/-- `packet->l2errors` as a condition. -/
def L2Errors.any (e : L2Errors) : Bool := e.unknown || e.lenErr || e.csumErr

/-- `struct ReportStruct` -/
structure ReportStruct where
  packetID : Int
  packetLen : Int
  packetTime : Timeval
  prevPacketTime : Timeval
  sentTime : Timeval
  prevSentTime : Timeval
  errwrite : WriteErrType
  emptyreport : Bool
  l2errors : L2Errors
  l2len : Int
  expectedL2len : Int
  isochStartTime : Timeval
  prevframeID : Int
  frameID : Int
  burstsize : Int
  burstperiod : Int
  remaining : Int
  transitReady : Bool
  cwnd : Int
  rtt : Int
  retryTot : Int
  tcpistatValid : Bool
  deriving DecidableEq, Inhabited

/-! ## Histograms -/

/-- The fields of `struct histogram` that an insertion reads or writes, and `final`. -/
structure Histogram where
  bincount : Int
  binwidth : Int
  offset : Rat
  units : Rat
  mybins : Int → Nat
  populationcnt : Nat
  cntloweroutofbounds : Nat
  cntupperoutofbounds : Nat
  maxbin : Int
  fmaxbin : Int
  maxval : Rat
  fmaxval : Rat
  maxts : Timeval
  fmaxts : Timeval
  final : Bool

/-- A C conversion from floating point to an integer. -/
def truncate (q : Rat) : Int := if q < 0 then q.ceil else q.floor

/-- The part of `histogram_insert` that keeps the maximum. -/
def histogramMax (h : Histogram) (value : Rat) (bin : Int) : Option Timeval → Histogram
  | none => h
  | some ts =>
    if value > h.maxval then
      let h := { h with
        maxbin := bin
        maxval := value
        maxts := ts }
      if value > h.fmaxval then
        { h with
          fmaxbin := bin
          fmaxval := value
          fmaxts := ts }
      else h
    else h

/-- `histogram_insert` -/
def histogramInsert (h : Histogram) (value : Rat) (ts : Option Timeval) : Histogram :=
  let bin := truncate (h.units * (value - h.offset) / h.binwidth)
  let h := histogramMax { h with populationcnt := h.populationcnt + 1 } value bin ts
  if bin < 0 then { h with cntloweroutofbounds := h.cntloweroutofbounds + 1 }
  else if bin > h.bincount then { h with cntupperoutofbounds := h.cntupperoutofbounds + 1 }
  else { h with mybins := fun b => if b = bin then h.mybins b + 1 else h.mybins b }

/-! ## Flags -/

inductive ThreadMode
  | server
  | client
  deriving DecidableEq, Inhabited

inductive ReportMode
  | default
  | csv
  deriving DecidableEq, Inhabited

/-- The fields of `struct ReportCommon` that the accounting tests, its flag words as the flags themselves. -/
structure ReportCommon where
  threadMode : ThreadMode
  reportMode : ReportMode
  transferID : Int
  isUDP : Bool
  isEnhanced : Bool
  isSingleUDP : Bool
  isSumOnly : Bool
  isIsochronous : Bool
  isTripTime : Bool
  isFrameInterval : Bool
  isPeriodicBurst : Bool
  enableSampleTCPstats : Bool
  deriving DecidableEq, Inhabited

/-! ## Statistics -/

/-- `FLT_MAX` -/
def fltMax : Rat := (2 ^ 24 - 1) * 2 ^ 104

/-- `FLT_MIN` -/
def fltMin : Rat := 1 / 2 ^ 126

structure TransitStats where
  maxTransit : Rat
  minTransit : Rat
  sumTransit : Rat
  lastTransit : Rat
  meanTransit : Rat
  m2Transit : Rat
  vdTransit : Rat
  cntTransit : Int
  totmaxTransit : Rat
  totminTransit : Rat
  totsumTransit : Rat
  totcntTransit : Int
  totmeanTransit : Rat
  totm2Transit : Rat
  totvdTransit : Rat
  deriving DecidableEq, Inhabited

/-- `union SendReadStats`, in the layout of `struct ReadStats`. -/
structure SendReadStats where
  cntRead : Int
  totcntRead : Int
  bins : Fin 8 → Int
  totbins : Fin 8 → Int
  binsize : Int
  deriving Inhabited

/-- `struct WriteStats` -/
structure WriteStats where
  WriteCnt : Int
  WriteErr : Int
  totWriteCnt : Int
  totWriteErr : Int
  TCPretry : Int
  totTCPretry : Int
  cwnd : Int
  rtt : Int

/-- The write statistics of the union: two words under the read counts, six under the bins. -/
def SendReadStats.write (s : SendReadStats) : WriteStats where
  WriteCnt := s.cntRead
  WriteErr := s.totcntRead
  totWriteCnt := s.bins 0
  totWriteErr := s.bins 1
  TCPretry := s.bins 2
  totTCPretry := s.bins 3
  cwnd := s.bins 4
  rtt := s.bins 5

def SendReadStats.setWrite (s : SendReadStats) (w : WriteStats) : SendReadStats :=
  { s with
    cntRead := w.WriteCnt
    totcntRead := w.WriteErr
    bins := ![w.totWriteCnt, w.totWriteErr, w.TCPretry, w.totTCPretry, w.cwnd, w.rtt, s.bins 6, s.bins 7] }

@[simp] theorem SendReadStats.write_setWrite (s : SendReadStats) (w : WriteStats) :
    (s.setWrite w).write = w := rfl

/-- `struct ShiftIntCounter`, `struct ShiftUintCounter` -/
structure ShiftCounter where
  current : Int
  prev : Int
  deriving DecidableEq, Inhabited

/-- `struct ShiftCounters` -/
structure ShiftCounters where
  Bytes : ShiftCounter
  Lost : ShiftCounter
  OutofOrder : ShiftCounter
  Datagrams : ShiftCounter
  IPG : ShiftCounter
  deriving DecidableEq, Inhabited

structure IsochStats where
  cntFrames : Int
  cntFramesMissed : Int
  cntSlips : Int
  slipcnt : ShiftCounter
  framecnt : ShiftCounter
  framelostcnt : ShiftCounter
  frameID : Int
  deriving DecidableEq, Inhabited

structure L2Stats where
  cnt : Int
  unknown : Int
  udpcsumerr : Int
  lengtherr : Int
  totCnt : Int
  totUnknown : Int
  totUdpcsumerr : Int
  totLengtherr : Int
  deriving DecidableEq, Inhabited

inductive TimeStampType
  | interval
  | finalpartialStamp
  | total
  | frame
  deriving DecidableEq

structure ReportTimeStamps where
  iStart : Rat
  iEnd : Rat
  significantPartial : Rat
  startTime : Timeval
  packetTime : Timeval
  prevpacketTime : Timeval
  nextTime : Timeval
  intervalTime : Timeval
  IPGstart : Timeval
  deriving DecidableEq, Inhabited

/-- `struct TransferInfo` -/
structure TransferInfo where
  common : ReportCommon
  ts : ReportTimeStamps
  outputHandler : Bool
  threadcnt : Int
  filterThisSampleOutput : Bool
  cntBytes : Int
  cntError : Int
  cntOutofOrder : Int
  cntDatagrams : Int
  cntIPG : Int
  PacketID : Int
  jitter : Rat
  tripTime : Rat
  IPGsum : Rat
  total : ShiftCounters
  sockCallstats : SendReadStats
  isochstats : IsochStats
  latencyHistogram : Option Histogram
  transit : TransitStats
  framelatencyHistogram : Option Histogram
  l2counts : L2Stats
  matchframeID : Int
  frameID : Int
  final : Bool
  burstidTransition : Bool
  deriving Inhabited

/-! ## Reports -/

inductive PacketHandler
  | serverUdp
  | serverTcp
  | client
  deriving DecidableEq

inductive TransferProtocolHandler
  | serverUdp
  | clientUdp
  | serverTcp
  | clientTcp
  deriving DecidableEq

inductive TransferProtocolSumHandler
  | sumServerUdp
  | sumClientUdp
  | sumServerTcp
  | sumClientTcp
  | fullduplexTcp
  | fullduplexUdp
  deriving DecidableEq

inductive TransferIntervalHandler
  | timeInterval
  | frameIntervalServerUdp
  | frameIntervalServerTcp
  | burstIntervalServerTcp
  deriving DecidableEq

/-- `struct SumReport` -/
structure SumReport where
  count : Int
  maxcount : Int
  threads : Int
  info : TransferInfo
  transferProtocolSumHandler : TransferProtocolSumHandler

/-- `struct ReporterData` -/
structure ReporterData where
  packetHandlerPreReport : Option PacketHandler
  packetHandlerPostReport : Option PacketHandler
  transferProtocolHandler : TransferProtocolHandler
  transferIntervalHandler : Option TransferIntervalHandler
  groupSumReport : Option SumReport
  fullDuplexReport : Option SumReport
  info : TransferInfo

/-- What is printed: a report, or the count of sent datagrams of a flow or of a group. -/
inductive Output
  | report (stats : TransferInfo)
  | datagrams (transferID count : Int)
  | sumcntDatagrams (threadcnt count : Int)

end Iperf2.Report
