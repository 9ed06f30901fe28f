import Iperf2.Report.Types
import Iperf2.Lib.Decoder

/-!
# The test header

A client tells the listener the test it wants in the first bytes of a TCP connection or of a UDP flow: flag words, and
behind them the parts of `client_tcp_testhdr` or `client_udp_testhdr`. Here are the constants and the layout of
`payloads.h`, and the settings of a thread that write a header or are read from one. The parts of `client_tcp_testhdr`
lie at `base` 0, `extend` 24, `start_fq` 60, `isoch_settings` 80 and `permitkey` 112; those of `client_udp_testhdr` at
`base` 16, `extend` 40, `isoch` 76, `start_fq` 108 and `isoch_settings` 128.
-/

namespace Iperf2.Header
open Report

/-! ## Flags -/

def HEADER_VERSION1 : BitVec 32 := 0x80000000
def HEADER_EXTEND : BitVec 32 := 0x40000000
def HEADER_UDPTESTS : BitVec 32 := 0x20000000
def HEADER_KEYCHECK : BitVec 32 := 0x10000000
def HEADER_SEQNO64B : BitVec 32 := 0x08000000
def HEADER_VERSION2 : BitVec 32 := 0x04000000
def HEADER_V2PEERDETECT : BitVec 32 := 0x02000000
def HEADER32_SMALL_TRIPTIMES : BitVec 32 := 0x00020000
def HEADER_LEN_BIT : BitVec 32 := 0x00010000
def HEADER_KEYLEN_MASK : BitVec 32 := 0x0000FFFE
def HEADER_LEN_MASK : BitVec 32 := 0x000001FE
def RUN_NOW : BitVec 32 := 0x00000001
def HEADER16_SMALL_TRIPTIMES : BitVec 16 := 0x0002

def HEADER_ISOCH : BitVec 16 := 0x0001
def HEADER_L2ETHPIPV6 : BitVec 16 := 0x0002
def HEADER_L2LENCHECK : BitVec 16 := 0x0004
def HEADER_NOUDPFIN : BitVec 16 := 0x0008
def HEADER_TRIPTIME : BitVec 16 := 0x0010
def HEADER_ISOCH_SETTINGS : BitVec 16 := 0x0040
def HEADER_UNITS_PPS : BitVec 16 := 0x0080
def HEADER_FQRATESET : BitVec 16 := 0x0200
def HEADER_REVERSE : BitVec 16 := 0x0400
def HEADER_FULLDUPLEX : BitVec 16 := 0x0800
def HEADER_EPOCH_START : BitVec 16 := 0x1000
def HEADER_PERIODICBURST : BitVec 16 := 0x2000
def HEADER_WRITEPREFETCH : BitVec 16 := 0x4000

def IPERF_VERSION_MAJORHEX : BitVec 32 := 0x00020001
def IPERF_VERSION_MINORHEX : BitVec 32 := 0x00040003

/-! ## Sizes -/

def sizeofUdpDatagram : Nat := 16
def sizeofClientHdrV1 : Nat := 24
def sizeofClientHdrext : Nat := 36
def sizeofIsochPayload : Nat := 32
def sizeofStarttimeFq : Nat := 20
def sizeofIsochSettings : Nat := 32
def sizeofClientUdpTesthdr : Nat := 160
def sizeofClientTcpTesthdr : Nat := 244

def MIN_PERMITKEY_LEN : Nat := 4
def MAX_PERMITKEY_LEN : Nat := 128
def MAX_HEADER_LEN : Nat := 256
def MINIPERFPAYLOAD : Nat := 18
def MINMBUFALLOCSIZE : Int := sizeofClientTcpTesthdr
def MINTRIPTIMEPLAYOAD : Int := sizeofClientUdpTesthdr - sizeofIsochSettings
def TAPBYTESSLOP : Int := 512
def SLOPSECS : Int := 2

/-- What `configure` finds: `HAVE_DECL_TCP_NOTSENT_LOWAT`, and whether tun and tap devices are supported. -/
structure Build where
  tcpNotsentLowat : Bool
  tuntap : Bool

/-! ## Settings -/

inductive TestMode
  | normal
  | dualTest
  | tradeOff
  deriving DecidableEq, Inhabited

inductive RateUnits
  | bw
  | pps
  deriving DecidableEq, Inhabited

/-- The fields of `thread_Settings` that the header carries or that decide what it carries, a flag bit as a field of
its own and `mPermitKey` as the characters before its terminator. -/
structure ThreadSettings where
  mThreadMode : ThreadMode
  mMode : TestMode
  mThreads : Int
  mTOS : Int
  mConnectRetries : Int
  mBufLen : Int
  mAppRate : Nat
  mAppRateUnits : RateUnits
  mAmount : BitVec 64
  mListenPort : BitVec 16
  mPort : BitVec 16
  mPortLast : BitVec 16
  mTTL : Int
  mFPS : Rat
  mMean : Rat
  mBurstSize : BitVec 32
  mBurstIPG : Rat
  mVariance : Rat
  mFQPacingRate : BitVec 64
  txholdbackTimer : Timeval
  txstartEpoch : Timeval
  sentTime : Timeval
  peerVersionU : BitVec 32
  peerVersionL : BitVec 32
  mPermitKey : List Byte
  mKeyCheck : Bool
  firstreadbytes : Int
  mWritePrefetch : Int
  isUDP : Bool
  isIPV6 : Bool
  isBuflenSet : Bool
  isBWSet : Bool
  isModeTime : Bool
  isModeInfinite : Bool
  isCompat : Bool
  isEnhanced : Bool
  isReport : Bool
  isNoSettReport : Bool
  isNoConnectSync : Bool
  isFrameInterval : Bool
  isReverse : Bool
  isFullDuplex : Bool
  isServerReverse : Bool
  isPeerVerDetect : Bool
  isTripTime : Bool
  isSmallTripTime : Bool
  isTxStartTime : Bool
  isTxHoldback : Bool
  isFQPacing : Bool
  isIsochronous : Bool
  isPeriodicBurst : Bool
  isWritePrefetch : Bool
  isPermitKey : Bool
  isNoUDPfin : Bool
  isL2LengthCheck : Bool
  isSeqNo64b : Bool
  isMulticast : Bool
  isVaryLoad : Bool
  isHistogram : Bool
  isRemoveService : Bool
  isIncrSrcIP : Bool
  isIncrDstIP : Bool
  isConnectOnly : Bool
  isNearCongest : Bool
  isIPG : Bool
  isCongestionControl : Bool
  isRxClamp : Bool

/-- `Settings_Initialize` -/
instance : Inhabited ThreadSettings where
  default :=
    { mThreadMode := .client, mMode := .normal, mThreads := 0, mTOS := 0, mConnectRetries := 0, mBufLen := 128 * 1024,
      mAppRate := 0, mAppRateUnits := .bw, mAmount := 1000, mListenPort := 0, mPort := 5001, mPortLast := 0, mTTL := -1,
      mFPS := 1, mMean := 0, mBurstSize := 0, mBurstIPG := 0, mVariance := 0, mFQPacingRate := 0,
      txholdbackTimer := ⟨0, 0⟩, txstartEpoch := ⟨0, 0⟩, sentTime := ⟨0, 0⟩, peerVersionU := 0, peerVersionL := 0,
      mPermitKey := [], mKeyCheck := true, firstreadbytes := 0, mWritePrefetch := 0, isUDP := false, isIPV6 := false,
      isBuflenSet := false, isBWSet := false, isModeTime := true, isModeInfinite := false, isCompat := false,
      isEnhanced := false, isReport := false, isNoSettReport := false, isNoConnectSync := false,
      isFrameInterval := false, isReverse := false, isFullDuplex := false,
      isServerReverse := false, isPeerVerDetect := false, isTripTime := false, isSmallTripTime := false,
      isTxStartTime := false, isTxHoldback := false, isFQPacing := false, isIsochronous := false,
      isPeriodicBurst := false, isWritePrefetch := false, isPermitKey := false, isNoUDPfin := false,
      isL2LengthCheck := false, isSeqNo64b := false, isMulticast := false, isVaryLoad := false, isHistogram := false,
      isRemoveService := false, isIncrSrcIP := false, isIncrDstIP := false, isConnectOnly := false,
      isNearCongest := false, isIPG := false, isCongestionControl := false, isRxClamp := false }

/-- The size of the buffer that `Settings_Copy` allocates. -/
def mbuflen (build : Build) (mBufLen : Int) : Int :=
  max mBufLen MINMBUFALLOCSIZE + if build.tuntap then TAPBYTESSLOP else 0

end Iperf2.Header
