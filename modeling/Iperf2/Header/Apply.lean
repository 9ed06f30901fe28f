import Iperf2.Header.Generate

/-!
# Reading the test header

What the listener does with a header: `apply_client_settings_tcp`, which reads it from the connection, and
`apply_client_settings_udp`, which finds it in the first datagram, set the flags of the new server;
`Settings_GenerateClientSettings` makes the settings of a client that the listener starts. The part of each that reads
fields of the buffer is a `Decoder`. Asserts are compiled out (`NDEBUG`), and warnings and the ack to the client are
left out.
-/

namespace Iperf2.Header
open Report Decoder

/-! ## The listener -/

/-- A listener without the options that `Settings_ModalOptions` warns about on a server. -/
structure Listener where
  settings : ThreadSettings
  noFullDuplex : settings.isFullDuplex = false
  noServerReverse : settings.isServerReverse = false
  noIsochronous : settings.isIsochronous = false
  noPeriodicBurst : settings.isPeriodicBurst = false
  noTxStartTime : settings.isTxStartTime = false
  noTripTime : settings.isTripTime = false
  noSeqNo64b : settings.isSeqNo64b = false

/-- The settings of a new server before its header is read: `Settings_Copy`, `Listener::Run` and the start of
`apply_client_settings`. -/
def newServer (listener : ThreadSettings) : ThreadSettings :=
  { listener with
    mThreadMode := .server
    isReport := false
    peerVersionU := 0
    peerVersionL := 0
    mMode := .normal }

/-! ## Lengths -/

/-- `Settings_ClientTestHdrLen` -/
def settingsClientTestHdrLen (flags : BitVec 32) (inSettings : ThreadSettings) : Int :=
  if Flags.test flags HEADER_VERSION1 || Flags.test flags HEADER_VERSION2 || Flags.test flags HEADER_EXTEND ||
      inSettings.isPermitKey then
    if Flags.test flags HEADER_LEN_BIT then
      let peeklen := ((flags &&& HEADER_LEN_MASK) >>> 1).toNat
      if peeklen > MAX_HEADER_LEN then -1 else peeklen
    else
      (if Flags.test flags (HEADER_VERSION1 ||| HEADER_EXTEND) then sizeofClientHdrV1 else 0) +
        (if Flags.test flags (HEADER_VERSION2 ||| HEADER_EXTEND) then sizeofClientHdrext else 0)
  else 0

/-! ## Parts of both headers -/

def MAXDIFFTIMESTAMPSECS : Int := 600

/-- The test mode of `-d` and `-r`. -/
def v1test (flags : BitVec 32) : Bool := Flags.test flags HEADER_VERSION1 && !Flags.test flags HEADER_VERSION2

def v1Mode (flags : BitVec 32) : TestMode := if Flags.test flags RUN_NOW then .dualTest else .tradeOff

def applyV1 (flags : BitVec 32) (server : ThreadSettings) : ThreadSettings :=
  { server with mMode := if v1test flags then v1Mode flags else server.mMode }

/-- The type of service and the version in `client_hdrext`. -/
def applyVersion (extend : Nat) (server : ThreadSettings) : Decoder ThreadSettings := do
  let tos ← ntohs (extend + 22)
  let versionU ← ntohl (extend + 12)
  let versionL ← ntohl (extend + 16)
  pure { server with
    mTOS := tos.toNat
    peerVersionU := versionU
    peerVersionL := versionL }

def startTimestamp (startFq : Nat) : Decoder Timeval := do
  let sec ← ntohl (startFq + 4)
  let usec ← ntohl (startFq + 8)
  pure ⟨sec.toNat, usec.toNat⟩

/-- `HEADER_EPOCH_START` -/
def applyEpochStart (startFq : Nat) (upperflags : BitVec 16) (now : Int) (server : ThreadSettings) :
    Decoder ThreadSettings :=
  if Flags.test upperflags HEADER_EPOCH_START then do
    let txstartEpoch ← startTimestamp startFq
    pure { server with
      txstartEpoch
      isTxStartTime := !(now - txstartEpoch.sec).natAbs > MAXDIFFTXSTART + 1 }
  else pure server

/-- `HEADER_TRIPTIME` -/
def applyTripTime (startFq : Nat) (upperflags : BitVec 16) (now : Int) (server : ThreadSettings) :
    Decoder ThreadSettings :=
  if Flags.test upperflags HEADER_TRIPTIME then do
    let sentTime ← startTimestamp startFq
    let old := !server.isTxStartTime && (now - sentTime.sec).natAbs > MAXDIFFTIMESTAMPSECS + 1
    pure { server with
      sentTime
      isTripTime := server.isTripTime || !old
      isEnhanced := server.isEnhanced || !old }
  else pure server

/-- A number in two words. -/
def fixedPoint (o : Nat) : Decoder Rat := do
  let l ← ntohl o
  let u ← ntohl (o + 4)
  pure (l.toNat + u.toNat / rMillion)

/-! ## TCP -/

/-- `HEADER_PERIODICBURST` -/
def applyPeriodicBurst (upperflags : BitVec 16) (server : ThreadSettings) : Decoder ThreadSettings :=
  if Flags.test upperflags HEADER_PERIODICBURST then do
    let mFPS ← fixedPoint 80
    pure { server with
      isEnhanced := true
      isFrameInterval := true
      isPeriodicBurst := true
      mFPS := if mFPS = 0 then 1 else mFPS }
  else pure server

/-- The full duplex and reverse flags. -/
def applyTcpV2 (flags : BitVec 32) (upperflags : BitVec 16) (server : ThreadSettings) : ThreadSettings :=
  if Flags.test flags HEADER_VERSION2 then
    let fullDuplex := Flags.test upperflags HEADER_FULLDUPLEX
    let reverse := Flags.test upperflags HEADER_REVERSE
    { server with
      isFullDuplex := server.isFullDuplex || fullDuplex
      isServerReverse := server.isServerReverse || fullDuplex || reverse
      mThreadMode := if reverse then .client else server.mThreadMode }
  else server

/-- `HEADER_WRITEPREFETCH` -/
def applyWritePrefetch (build : Build) (upperflags : BitVec 16) (server : ThreadSettings) : Decoder ThreadSettings :=
  if build.tcpNotsentLowat && (server.isServerReverse || server.isFullDuplex) &&
      Flags.test upperflags HEADER_WRITEPREFETCH then do
    let prefetch ← ntohl 56
    pure { server with
      mWritePrefetch := prefetch.toInt
      isWritePrefetch := server.isWritePrefetch || prefetch.toInt > 0 }
  else pure server

/-- The fields that need `HEADER_EXTEND`. -/
def applyTcpExtend (build : Build) (flags : BitVec 32) (now : Int) (server : ThreadSettings) :
    Decoder ThreadSettings := do
  let upperflags ← ntohs 32
  let server ← applyVersion 24 server
  let server := { server with isIsochronous := server.isIsochronous || Flags.test upperflags HEADER_ISOCH }
  let server ← applyEpochStart 60 upperflags now server
  let server ← applyTripTime 60 upperflags now server
  let server ← applyPeriodicBurst upperflags server
  applyWritePrefetch build upperflags (applyTcpV2 flags upperflags server)

/-- `apply_client_settings_tcp` once the header is in the buffer. -/
def applyTcpHdr (build : Build) (flags : BitVec 32) (now : Int) (server : ThreadSettings) : Decoder ThreadSettings :=
  let server := applyV1 flags server
  if Flags.test flags HEADER_EXTEND then applyTcpExtend build flags now server else pure server

/-! ## UDP -/

/-- The small header of a client with trip times and a short payload. -/
def applyUdpSmall (server : ThreadSettings) : Decoder ThreadSettings := do
  let sec ← ntohl 4
  let usec ← ntohl 8
  -- the id is read for a warning only
  let _ ← ntohl 0
  pure { server with
    sentTime := ⟨sec.toNat, usec.toNat⟩
    isTripTime := true
    isEnhanced := true }

/-- The flags that are sent in every datagram. -/
def applyUdpTests (flags : BitVec 32) (upperflags : BitVec 16) (server : ThreadSettings) : ThreadSettings :=
  if Flags.test flags HEADER_UDPTESTS then
    { server with
      isIsochronous := server.isIsochronous || Flags.test upperflags HEADER_ISOCH
      isIPV6 := Flags.test upperflags HEADER_L2ETHPIPV6
      isL2LengthCheck := server.isL2LengthCheck || Flags.test upperflags HEADER_L2LENCHECK
      isNoUDPfin := server.isNoUDPfin || Flags.test upperflags HEADER_NOUDPFIN }
  else server

def applyUdpExtend (flags : BitVec 32) (now : Int) (server : ThreadSettings) : Decoder ThreadSettings := do
  let upperflags ← ntohs 48
  let server ← applyVersion 40 server
  let server := applyUdpTests flags upperflags server
  let server ← applyEpochStart 108 upperflags now server
  applyTripTime 108 upperflags now server

/-- The full duplex and reverse flags. -/
def applyUdpV2 (upperflags : BitVec 16) (server : ThreadSettings) : ThreadSettings :=
  let fullDuplex := Flags.test upperflags HEADER_FULLDUPLEX
  let reverse := Flags.test upperflags HEADER_REVERSE
  { server with
    isFullDuplex := server.isFullDuplex || fullDuplex
    isServerReverse := server.isServerReverse || fullDuplex || reverse
    mThreadMode := if reverse then .client else server.mThreadMode
    isNoUDPfin := server.isNoUDPfin || reverse
    isReport := server.isReport && !reverse }

def applySeqNo64b (flags : BitVec 32) (server : ThreadSettings) : ThreadSettings :=
  { server with isSeqNo64b := server.isSeqNo64b || Flags.test flags HEADER_SEQNO64B }

/-- A header that is not the small one. -/
def applyUdpFull (flags : BitVec 32) (now : Int) (server : ThreadSettings) : Decoder ThreadSettings := do
  let server ←
    (if Flags.test flags HEADER_EXTEND then applyUdpExtend flags now (applyV1 flags server)
     else pure (applyV1 flags server) : Decoder ThreadSettings)
  if Flags.test flags HEADER_VERSION2 then do
    let upperflags ← ntohs 48
    pure (applyUdpV2 upperflags server)
  else pure server

/-- `apply_client_settings_udp` behind its flags. -/
def applyUdpHdr (flags : BitVec 32) (now : Int) (server : ThreadSettings) : Decoder ThreadSettings :=
  if Flags.test flags HEADER32_SMALL_TRIPTIMES then applyUdpSmall (applySeqNo64b flags server)
  else applyUdpFull flags now (applySeqNo64b flags server)

/-- `apply_client_settings_udp` -/
def applyClientSettingsUdp (now : Int) (server : ThreadSettings) : Decoder ThreadSettings := do
  let flags ← ntohl 16
  applyUdpHdr flags now server

/-! ## The connection -/

/-- The server's end of the exchange: its settings, its buffer and the byte in front of that, the bytes of the peer
that are not yet read, and the end of the bytes that were stored. -/
structure Exchange where
  server : ThreadSettings
  mBuf : Buf
  front : Byte
  stream : List Byte
  stored : Nat

/-- `recvn` on a blocking socket: the bytes up to `inLen`, or all that the peer sends, and none for a length that is
not positive. -/
def Exchange.recvn (x : Exchange) (outBuf : Nat) (inLen : Int) : Exchange × Nat :=
  let got := x.stream.take inLen.toNat
  ({ x with
     mBuf := x.mBuf.store outBuf got
     stream := x.stream.drop inLen.toNat
     stored := max x.stored (outBuf + got.length) }, got.length)

/-- What becomes of a connection: it is accepted, it is closed, or `FAIL_errno` stops the thread. -/
inductive Verdict
  | accept
  | reject
  | stop
  deriving DecidableEq

/-- `thiskey->length`, which lies in front of the key at `keyoffset`. -/
def keyLength (x : Exchange) (keyoffset : Nat) : Nat :=
  if keyoffset = 1 then (x.front ++ x.mBuf 0).toNat else (x.mBuf.be16 (keyoffset - 2)).toNat

/-- `strncpy(server->mPermitKey, thiskey->value, MAX_PERMITKEY_LEN + 1)` -/
def keyValue (mBuf : Buf) (keyoffset : Nat) : List Byte :=
  (mBuf.window keyoffset (MAX_PERMITKEY_LEN + 1)).takeWhile (· != 0)

def Exchange.setKeyCheck (x : Exchange) (mKeyCheck : Bool) : Exchange :=
  { x with server := { x.server with mKeyCheck } }

def Exchange.setPermitKey (x : Exchange) (mPermitKey : List Byte) : Exchange :=
  { x with server := { x.server with mPermitKey } }

/-- `Listener::test_permit_key` -/
def testPermitKey (listener : ThreadSettings) (flags : BitVec 32) (x : Exchange) (keyoffset : Nat) :
    Verdict × Exchange :=
  if !Flags.test flags HEADER_KEYCHECK then (.reject, x.setKeyCheck false)
  else
    let keylen := keyLength x keyoffset
    if keylen < MIN_PERMITKEY_LEN || keylen > MAX_PERMITKEY_LEN then (.reject, x.setKeyCheck false)
    else if keylen ≠ x.server.mPermitKey.length then (.reject, x.setKeyCheck false)
    else
      let (x, nread) := if !x.server.isUDP then x.recvn 0 (keyoffset + keylen : Nat) else (x, keyoffset + keylen)
      if nread < keyoffset + keylen then (.stop, x)
      else
        let x := x.setPermitKey (keyValue x.mBuf keyoffset)
        if x.server.mPermitKey.take keylen ≠ listener.mPermitKey.take keylen then (.reject, x.setKeyCheck false)
        else (.accept, x.setKeyCheck true)

/-- The check of the permit key between the header's arrival and its use. -/
def checkKey (listener : ThreadSettings) (flags : BitVec 32) (x : Exchange) (readlen : Nat) : Verdict × Exchange :=
  if listener.isPermitKey then testPermitKey listener flags x readlen
  else if Flags.test flags HEADER_KEYCHECK then (.reject, x.setKeyCheck false)
  else (.accept, x)

/-- The key check and the settings, once the header is read. -/
def applyTcpRead (build : Build) (listener : ThreadSettings) (flags : BitVec 32) (now : Int) (x : Exchange)
    (nread readlen : Nat) : Verdict × Exchange :=
  match checkKey listener flags x readlen with
  | (.accept, x) =>
    let server := { x.server with firstreadbytes := nread }
    (.accept, { x with server := (applyTcpHdr build flags now server).run x.mBuf })
  | failed => failed

/-- `Listener::apply_client_settings_tcp` -/
def applyClientSettingsTcp (build : Build) (listener : ThreadSettings) (now : Int) (x : Exchange) :
    Verdict × Exchange :=
  let (x, nread) := x.recvn 0 4
  if nread < 4 then (.reject, x)
  else
    let flags := x.mBuf.be32 0
    let readlen := settingsClientTestHdrLen flags x.server
    if readlen > 0 then
      let (x, more) := x.recvn 4 (readlen - 4)
      let nread := nread + more
      if nread < readlen then (.stop, x)
      else applyTcpRead build listener flags now x nread readlen.toNat
    else (.accept, x)

/-! ## The client that the listener starts -/

/-- `Settings_ReadClientSettingsV1` -/
def settingsReadClientSettingsV1 (base : Nat) (client : ThreadSettings) : Decoder ThreadSettings := do
  let mPort ← ntohl (base + 8)
  let mBufLen ← ntohl (base + 12)
  let mAmount ← ntohl (base + 20)
  let modeTime := mAmount &&& 0x80000000 != 0
  pure { client with
    mPort := mPort.setWidth 16
    mThreads := 1
    mBufLen := if mBufLen ≠ 0 then mBufLen.toInt else client.mBufLen
    isModeTime := modeTime
    mAmount := if modeTime then -(mAmount.setWidth 64 ||| 0xFFFFFFFF00000000) else mAmount.setWidth 64 }

/-- `Settings_ReadClientSettingsIsoch` -/
def settingsReadClientSettingsIsoch (isochSettings : Nat) (client : ThreadSettings) : Decoder ThreadSettings := do
  let mFPS ← fixedPoint isochSettings
  let mMean ← fixedPoint (isochSettings + 8)
  let mVariance ← fixedPoint (isochSettings + 16)
  let mBurstIPG ← fixedPoint (isochSettings + 24)
  pure { client with
    mFPS
    mMean
    mVariance
    mBurstIPG }

/-- `Settings_ReadClientSettingsBurst` -/
def settingsReadClientSettingsBurst (isochSettings : Nat) (client : ThreadSettings) : Decoder ThreadSettings := do
  let mFPS ← fixedPoint isochSettings
  pure { client with mFPS }

/-- The offered load in `client_hdrext`. -/
def readRate (extend : Nat) (client : ThreadSettings) : Decoder ThreadSettings := do
  let lRate ← ntohl (extend + 24)
  let uRate ← ntohl (extend + 28)
  pure { client with mAppRate := (uRate >>> 8 ++ lRate).toNat }

def readTOS (extend : Nat) (client : ThreadSettings) : Decoder ThreadSettings := do
  let tos ← ntohs (extend + 22)
  pure { client with mTOS := tos.toNat }

/-- `HEADER_FQRATESET` -/
def readFQRate (upperflags : BitVec 16) (startFq : Nat) (client : ThreadSettings) : Decoder ThreadSettings :=
  if Flags.test upperflags HEADER_FQRATESET then do
    let fqratel ← ntohl (startFq + 12)
    let fqrateu ← ntohl (startFq + 16)
    pure { client with
      isFQPacing := true
      mFQPacingRate := fqrateu ++ fqratel }
  else pure client

def readUdpIsoch (server client : ThreadSettings) : Decoder ThreadSettings :=
  if server.isIsochronous then settingsReadClientSettingsIsoch 128 client else pure client

def readTcpIsoch (server client : ThreadSettings) : Decoder ThreadSettings :=
  if server.isIsochronous then settingsReadClientSettingsIsoch 80 client
  else if server.isPeriodicBurst then settingsReadClientSettingsBurst 80 client
  else pure client

/-- The extended settings of a UDP client. -/
def readUdpExtend (server client : ThreadSettings) : Decoder ThreadSettings := do
  let client ← readRate 40 client
  let upperflags ← ntohs 48
  let client := { client with
    isNoUDPfin := client.isNoUDPfin || Flags.test upperflags HEADER_NOUDPFIN
    mAppRateUnits := if Flags.test upperflags HEADER_UNITS_PPS then .pps else .bw }
  let client ← readTOS 40 client
  let client ← readUdpIsoch server client
  readFQRate upperflags 108 client

/-- The extended settings of a TCP client. -/
def readTcpExtend (server client : ThreadSettings) : Decoder ThreadSettings := do
  let client ← readRate 24 client
  let upperflags ← ntohs 32
  let client ← readTOS 24 client
  let client ← readTcpIsoch server client
  readFQRate upperflags 60 client

/-- The listener starts a client: full duplex, reverse, `-d` or `-r`. -/
def startsClient (flags : BitVec 32) (server : ThreadSettings) : Bool :=
  server.isFullDuplex || server.isServerReverse || v1test flags

/-- The reversed thread has settings of its own: full duplex, `-d` or `-r`. -/
def copiesServer (flags : BitVec 32) (server : ThreadSettings) : Bool := server.isFullDuplex || v1test flags

/-- The settings of the reversed thread before its header is read. -/
def reversedThread (flags : BitVec 32) (server : ThreadSettings) : ThreadSettings :=
  let copied := copiesServer flags server
  { server with
    isReport := server.isReport && !copied
    isFullDuplex := if copied then server.isFullDuplex && !Flags.test flags HEADER_VERSION1 else server.isFullDuplex
    mThreadMode := .client }

/-- The header's part of the settings of the reversed thread. -/
def readReversed (flags : BitVec 32) (server : ThreadSettings) : Decoder ThreadSettings := do
  let client ← settingsReadClientSettingsV1 (if server.isUDP then 16 else 0) (reversedThread flags server)
  let client := { client with
    isServerReverse := client.isServerReverse || v1test flags
    mMode := if v1test flags then v1Mode flags else client.mMode }
  if Flags.test flags HEADER_EXTEND then
    if server.isUDP then readUdpExtend server client else readTcpExtend server client
  else pure client

/-- `Settings_GenerateClientSettings`: the settings of the server and those of the client that it starts, if these are
not its own. Sockets and host names are left out. -/
def settingsGenerateClientSettings (server : ThreadSettings) : Decoder (ThreadSettings × Option ThreadSettings) := do
  let flags ← ntohl (if server.isUDP then 16 else 0)
  if !startsClient flags server then pure (server, none)
  else
    let client ← readReversed flags server
    let client := { client with
      isTxHoldback := false
      isNoSettReport := true
      isNoConnectSync := true
      mMode := if v1test flags then client.mMode else .normal }
    pure (if copiesServer flags server then
        ({ server with mAmount := client.mAmount + BitVec.ofInt 64 (SLOPSECS * 100) }, some client)
      else (client, none))

end Iperf2.Header
