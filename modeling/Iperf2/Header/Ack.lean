import Iperf2.Header.Coverage

/-!
# The listener's answer to the first payload

With `-X` a TCP client waits after its header for a `client_hdr_ack`, `PeerXchange`, and the listener sends one at the end
of `apply_client_settings_tcp`, `client_test_ack`. Neither says how long it is: the client reads the time stamps if it was
asked for trip times, and the listener sends them if it has set trip times for the server, which depends on its clock.

* `applyTcpHdr_isTripTime` : what the listener makes of the trip times flag;
* `listenerAck_eq` : the listener's answer to a client that waits for one;
* `peerXchange_clientTestAck` : what the client finds in an answer of its length;
* `ack_length_agreement` : when both have the same length.
-/

namespace Iperf2.Header
open Report Decoder

def CLIENTHDRACK : BitVec 32 := 2

def sizeofClientHdrAck : Nat := 52
def sizeofClientHdrAckTs : Nat := 24

/-! ## The client -/

/-- `SendFirstPayload` goes on with `PeerXchange`. The constructor of the client drops `-X` in compatibility mode. -/
def entersPeerXchange (client : ThreadSettings) : Bool :=
  !client.isConnectOnly && !client.isUDP && (client.isPeerVerDetect && !client.isCompat) && !client.isServerReverse

/-- The time that `SendFirstPayload` puts into the header. -/
def firstPayloadTime (client : ThreadSettings) (packetTime : Timeval) : Timeval :=
  if client.isTxStartTime then client.txstartEpoch else packetTime

/-- `readlen` -/
def ackReadlen (client : ThreadSettings) : Nat :=
  if client.isTripTime then sizeofClientHdrAck else sizeofClientHdrAck - sizeofClientHdrAckTs

/-- `Client::PeerXchange`: the settings, and the bytes that are left in the stream. The message about the clocks is left
out. -/
def peerXchange (client : ThreadSettings) (stream : List Byte) : ThreadSettings × List Byte :=
  let readlen := ackReadlen client
  let ack := Buf.zero.store 0 (stream.take readlen)
  if (stream.take readlen).length = readlen ∧ ack.be32 0 = CLIENTHDRACK then
    ({ client with
       peerVersionU := ack.be32 12
       peerVersionL := ack.be32 16 }, stream.drop readlen)
  else (client, stream.drop readlen)

/-! ## The listener -/

/-- The size of `client_hdr_ack` that is sent. -/
def ackSize (server : ThreadSettings) : Nat :=
  if server.isTripTime then sizeofClientHdrAck else sizeofClientHdrAck - sizeofClientHdrAckTs

/-- The time stamps of the answer: those of the header, of the accept, and of the answer itself. -/
def clientHdrAckTs (server : ThreadSettings) (acceptTime now : Timeval) : List (BitVec 32) :=
  if server.isTripTime then
    [ BitVec.ofInt 32 server.sentTime.sec, BitVec.ofInt 32 server.sentTime.usec,
      BitVec.ofInt 32 acceptTime.sec, BitVec.ofInt 32 acceptTime.usec,
      BitVec.ofInt 32 now.sec, BitVec.ofInt 32 now.usec ]
  else []

/-- The words of `client_hdr_ack`. -/
def clientHdrAck (server : ThreadSettings) (acceptTime now : Timeval) : List (BitVec 32) :=
  [ CLIENTHDRACK, BitVec.ofNat 32 (ackSize server),
    -- flags
    0,
    IPERF_VERSION_MAJORHEX, IPERF_VERSION_MINORHEX,
    -- reserved1, reserved2
    0, 0 ] ++ clientHdrAckTs server acceptTime now

/-- What `Listener::client_test_ack` sends. -/
def clientTestAck (server : ThreadSettings) (acceptTime now : Timeval) : List Byte :=
  (clientHdrAck server acceptTime now).flatMap bytes32

/-- The case that requires an ack back to the client. -/
def requiresAck (listener server : ThreadSettings) (flags : BitVec 32) : Bool :=
  !server.isUDP && !listener.isCompat &&
    (!Flags.test flags HEADER_VERSION2 && Flags.test flags HEADER_EXTEND || Flags.test flags HEADER_V2PEERDETECT)

/-- The answer of a listener to a new connection. In compatibility mode `Listener::Run` does not look for a header. -/
def listenerAck (build : Build) (listener : ThreadSettings) (now acceptTime : Timeval) (x : Exchange) :
    Option (List Byte) :=
  if listener.isCompat then none
  else
    match applyClientSettingsTcp build listener now.sec x with
    | (.accept, x') =>
      if settingsClientTestHdrLen x.flags x.server > 0 && requiresAck listener x'.server x.flags then
        some (clientTestAck x'.server acceptTime now)
      else none
    | _ => none

/-! ## The answer read back -/

theorem clientTestAck_length (server : ThreadSettings) (acceptTime now : Timeval) :
    (clientTestAck server acceptTime now).length = ackSize server := by
  unfold clientTestAck clientHdrAck clientHdrAckTs ackSize
  cases server.isTripTime <;> rfl

/-- A client that expects an answer of this length reads the listener's version and leaves the bytes behind it. -/
theorem peerXchange_clientTestAck {client server : ThreadSettings} (h : ackSize server = ackReadlen client)
    (acceptTime now : Timeval) (data : List Byte) :
    peerXchange client (clientTestAck server acceptTime now ++ data) =
      ({ client with
         peerVersionU := IPERF_VERSION_MAJORHEX
         peerVersionL := IPERF_VERSION_MINORHEX }, data) := by
  have hlen : (clientTestAck server acceptTime now).length = ackReadlen client := by
    rw [clientTestAck_length, h]
  have htake : (clientTestAck server acceptTime now ++ data).take (ackReadlen client) =
      clientTestAck server acceptTime now := by
    rw [← hlen, List.take_left]
  have hdrop : (clientTestAck server acceptTime now ++ data).drop (ackReadlen client) = data := by
    rw [← hlen, List.drop_left]
  have hword : ∀ (i : Nat) (hi : i < (clientHdrAck server acceptTime now).length),
      (Buf.zero.store 0 (clientTestAck server acceptTime now)).be32 (4 * i) = (clientHdrAck server acceptTime now)[i] := by
    intro i hi
    have hread := Buf.be32_storeWords Buf.zero 0 (clientHdrAck server acceptTime now) hi
    rwa [Nat.zero_add] at hread
  have hwords : 7 ≤ (clientHdrAck server acceptTime now).length := by
    unfold clientHdrAck
    rw [List.length_append]
    exact Nat.le_add_right 7 _
  have htype : (Buf.zero.store 0 (clientTestAck server acceptTime now)).be32 0 = CLIENTHDRACK := hword 0 (by omega)
  have hversionU : (Buf.zero.store 0 (clientTestAck server acceptTime now)).be32 12 = IPERF_VERSION_MAJORHEX :=
    hword 3 (by omega)
  have hversionL : (Buf.zero.store 0 (clientTestAck server acceptTime now)).be32 16 = IPERF_VERSION_MINORHEX :=
    hword 4 (by omega)
  unfold peerXchange
  dsimp only
  rw [htake, hdrop, if_pos ⟨hlen, htype⟩, hversionU, hversionL]

/-- The bytes that are left when the lengths differ. -/
theorem peerXchange_stream (client : ThreadSettings) (ack data : List Byte) :
    (peerXchange client (ack ++ data)).2 = (ack ++ data).drop (ackReadlen client) := by
  unfold peerXchange
  dsimp only
  split <;> rfl

/-! ## Trip times -/

section
variable (build : Build) {flags : BitVec 32} (now : Int) (server : ThreadSettings) (b : Buf)

theorem applyTcpHdr_isUDP : ((applyTcpHdr build flags now server).run b).isUDP = server.isUDP := by
  unfold applyTcpHdr
  rw [run_ite]
  split
  · exact applyTcpExtend_frame _ _ _ _ _ ThreadSettings.isUDP (fun _ _ _ => rfl) (fun _ _ _ _ => rfl)
      (fun _ _ _ _ _ => rfl) (fun _ _ _ _ => rfl) (fun _ _ _ => rfl) (fun _ _ => rfl)
  · rfl

/-- A start time as far from the clock as a listener believes it. -/
def near (now sec maxDiff : Int) : Bool := !(now - sec).natAbs > maxDiff + 1

section
variable (startFq : Nat) (upperflags : BitVec 16)

theorem applyEpochStart_isTxStartTime :
    ((applyEpochStart startFq upperflags now server).run b).isTxStartTime =
      if Flags.test upperflags HEADER_EPOCH_START then near now (b.be32 (startFq + 4)).toNat MAXDIFFTXSTART
      else server.isTxStartTime := by
  unfold applyEpochStart
  rw [run_ite]
  split <;> rfl

theorem applyTripTime_isTripTime :
    ((applyTripTime startFq upperflags now server).run b).isTripTime =
      (server.isTripTime || Flags.test upperflags HEADER_TRIPTIME &&
        (server.isTxStartTime || near now (b.be32 (startFq + 4)).toNat MAXDIFFTIMESTAMPSECS)) := by
  unfold applyTripTime
  rw [run_ite]
  split
  · rename_i htrip
    rw [htrip, Bool.true_and]
    show (server.isTripTime || !(!server.isTxStartTime && decide _)) = _
    rw [Bool.not_and, Bool.not_not]
    rfl
  · rename_i htrip
    rw [Bool.eq_false_iff.mpr htrip, Bool.false_and, Bool.or_false]
    rfl

end

/-- The trip times of a header are taken if its start time is near, or counts as that of `--txstart-time`. -/
theorem applyTcpHdr_isTripTime (hextend : Flags.test flags HEADER_EXTEND = true) (htrip : server.isTripTime = false)
    (htxstart : server.isTxStartTime = false) :
    ((applyTcpHdr build flags now server).run b).isTripTime =
      (Flags.test (b.be16 32) HEADER_TRIPTIME &&
        ((Flags.test (b.be16 32) HEADER_EPOCH_START && near now (b.be32 64).toNat MAXDIFFTXSTART) ||
          near now (b.be32 64).toNat MAXDIFFTIMESTAMPSECS)) := by
  unfold applyTcpHdr
  simp only [hextend, if_true, applyTcpExtend, run_bind, run_ntohs]
  rw [applyWritePrefetch_frame ThreadSettings.isTripTime _ _ _ _ fun _ _ _ => rfl,
    applyTcpV2_frame ThreadSettings.isTripTime _ _ _ fun _ _ _ _ => rfl,
    applyPeriodicBurst_frame ThreadSettings.isTripTime _ _ _ fun _ _ _ _ _ => rfl, applyTripTime_isTripTime,
    applyEpochStart_frame ThreadSettings.isTripTime _ _ _ _ _ fun _ _ _ => rfl, applyEpochStart_isTxStartTime]
  show (server.isTripTime || Flags.test (b.be16 32) HEADER_TRIPTIME &&
    ((if Flags.test (b.be16 32) HEADER_EPOCH_START then near now (b.be32 64).toNat MAXDIFFTXSTART
      else server.isTxStartTime) || near now (b.be32 64).toNat MAXDIFFTIMESTAMPSECS)) = _
  rw [htrip, htxstart, Bool.false_or]
  cases Flags.test (b.be16 32) HEADER_EPOCH_START <;> rfl

end

/-! ## The header of a client -/

/-- A header with a start time. -/
theorem tcpHdr_startTime (build : Build) {client : ThreadSettings} (startTime : Timeval) (testhdr : Buf)
    (hstart : tcpStartTime client = true) :
    (tcpHdr build client startTime testhdr).be32 64 = BitVec.ofInt 32 startTime.sec := by
  have hlen : 80 ≤ tcpLen client := (tcpLen_parts client).1 hstart
  rw [tcpHdr_word build client startTime testhdr (by decide) (by omega)]
  simp (disch := omega) only [tcpFields, storeTcpIsoch, storeFQRate, storeStartTime, be32_ite,
    Buf.be32_store32_of_disjoint, Buf.be32_store, ite_self, hstart, if_true]

/-- The flag of `--txstart-time`. -/
theorem tcpUpperflags_epochStart (build : Build) (client : ThreadSettings) (startTime : Timeval) :
    Flags.test (tcpUpperflags build client startTime) HEADER_EPOCH_START =
      (client.isTxStartTime && !timeZero startTime) := by
  rw [tcpUpperflags_test, commonUpperflags_test]
  simp [Flags.test, HEADER_FULLDUPLEX, HEADER_REVERSE, HEADER_EPOCH_START, HEADER_TRIPTIME, HEADER_FQRATESET,
    HEADER_WRITEPREFETCH, HEADER_PERIODICBURST, HEADER_ISOCH]

theorem tcpFlags_peerDetect {client : ThreadSettings} (hpeer : client.isPeerVerDetect = true) :
    Flags.test (tcpFlags client) HEADER_V2PEERDETECT = true := by
  rw [tcpFlags_test client (by decide), hpeer,
    show Flags.test (HEADER_V2PEERDETECT ||| HEADER_VERSION2) HEADER_V2PEERDETECT = true by decide, Bool.true_and,
    Bool.or_true, Bool.true_or, Bool.true_or, Bool.true_or]

/-! ## Both ends -/

/-- The listener takes the client's start time for one of trip times. -/
def startBelieved (client : ThreadSettings) (startTime : Timeval) (now : Int) : Bool :=
  let sec := (BitVec.ofInt 32 startTime.sec).toNat
  (client.isTxStartTime && !timeZero startTime && near now sec MAXDIFFTXSTART) || near now sec MAXDIFFTIMESTAMPSECS

/-- Without a permit key the listener accepts the header, or rejects it unread. -/
theorem checkKey_accept {listener : ThreadSettings} (hkey : listener.isPermitKey = false) {flags : BitVec 32} {x : Exchange}
    {readlen : Nat} (haccept : (checkKey listener flags x readlen).1 = .accept) :
    checkKey listener flags x readlen = (.accept, x) := by
  unfold checkKey at haccept ⊢
  rw [hkey, if_neg Bool.false_ne_true] at haccept ⊢
  split at haccept
  · cases haccept
  · rename_i hcheck
    rw [if_neg hcheck]

section
variable (build : Build) {client : ThreadSettings} {listener : Listener} (htcp : client.isUDP = false)
  (hkey : listener.settings.isPermitKey = false) (startTime : Timeval) (testhdr : Buf)
include htcp hkey

/-- The server of an accepted header. -/
theorem applyClientSettingsTcp_server {x : Exchange} {traffic : List Byte}
    (hx : x.stream = sentHdr build client testhdr startTime ++ traffic) (hserver : x.server = newServer listener.settings)
    (now : Int) (haccept : (applyClientSettingsTcp build listener.settings now x).1 = .accept) :
    (applyClientSettingsTcp build listener.settings now x).2.server.isUDP = listener.settings.isUDP ∧
      (applyClientSettingsTcp build listener.settings now x).2.server.isTripTime =
        (client.isTripTime && startBelieved client startTime now) := by
  have hread := applyClientSettingsTcp_tcpHdr build htcp startTime testhdr x hx listener.settings now
  have hoffset : tcpLen client ≤ tcpKeyOffset client := Nat.le_add_right _ _
  have hlen := tcpLen_cases client
  have hagree := received_agree build htcp startTime testhdr x hx (Nat.le_add_right (tcpKeyOffset client) _)
  rw [hread, (applyTcpRead_checkKey ..).1] at haccept
  rw [hread, applyTcpRead_accept _ build now _ (checkKey_accept hkey haccept)]
  -- the header changes the server of the listener
  generalize hnew : ({ (x.received (tcpKeyOffset client)).server with firstreadbytes := _ } : ThreadSettings) = server
  have hsame : server.isUDP = x.server.isUDP ∧ server.isTripTime = x.server.isTripTime ∧
      server.isTxStartTime = x.server.isTxStartTime := by
    rw [← hnew]
    exact ⟨rfl, rfl, rfl⟩
  rw [hserver] at hsame
  obtain ⟨hisUDP, hisTripTime, hisTxStartTime⟩ := hsame
  refine ⟨(applyTcpHdr_isUDP ..).trans hisUDP, (applyTcpHdr_isTripTime _ _ _ _ (tcpFlags_extend client)
    (hisTripTime.trans listener.noTripTime) (hisTxStartTime.trans listener.noTxStartTime)).trans ?_⟩
  rw [hagree.be16 (by omega), tcpHdr_upperflags, (tcpUpperflags_fields client startTime build).2.1,
    tcpUpperflags_epochStart]
  cases htrip : client.isTripTime with
  | false => rw [Bool.false_and, Bool.false_and]
  | true =>
    have hstart : tcpStartTime client = true := by
      unfold tcpStartTime
      rw [htrip, Bool.true_or, Bool.true_or, Bool.true_or]
    have hlong := (tcpLen_parts client).1 hstart
    rw [hagree.be32 (by omega), tcpHdr_startTime build startTime testhdr hstart]
    rfl

end

section
variable (build : Build) {client : ThreadSettings} (hclient : entersPeerXchange client = true) {listener : Listener}
  (hudp : listener.settings.isUDP = false) (hkey : listener.settings.isPermitKey = false)
include hclient

theorem entersPeerXchange_tcp : client.isUDP = false ∧ client.isPeerVerDetect = true := by
  unfold entersPeerXchange at hclient
  simp only [Bool.and_eq_true, Bool.not_eq_true'] at hclient
  exact ⟨hclient.1.1.2, hclient.1.2.1⟩

include hudp hkey

/-- The answer of a listener that reads headers and accepts this one. -/
theorem listenerAck_eq (startTime now acceptTime : Timeval) (testhdr : Buf) {x : Exchange} {traffic : List Byte}
    (hx : x.stream = sentHdr build client testhdr startTime ++ traffic) (hserver : x.server = newServer listener.settings)
    (hcompat : listener.settings.isCompat = false)
    (haccept : (applyClientSettingsTcp build listener.settings now.sec x).1 = .accept) :
    ∃ server : ThreadSettings, listenerAck build listener.settings now acceptTime x =
        some (clientTestAck server acceptTime now) ∧
      server.isTripTime = (client.isTripTime && startBelieved client startTime now.sec) := by
  obtain ⟨htcp, hpeer⟩ := entersPeerXchange_tcp hclient
  obtain ⟨hisUDP, htrip⟩ := applyClientSettingsTcp_server build htcp hkey startTime testhdr hx hserver now.sec haccept
  have hlen := tcpLen_cases client
  have hpos : settingsClientTestHdrLen x.flags x.server > 0 := by
    rw [flags_tcpHdr build htcp startTime testhdr x hx, settingsClientTestHdrLen_tcpFlags]
    unfold tcpKeyOffset
    omega
  have hrequires : requiresAck listener.settings
      (applyClientSettingsTcp build listener.settings now.sec x).2.server x.flags = true := by
    unfold requiresAck
    rw [hisUDP, hudp, hcompat, flags_tcpHdr build htcp startTime testhdr x hx, tcpFlags_peerDetect hpeer, Bool.or_true]
    rfl
  refine ⟨_, ?_, htrip⟩
  unfold listenerAck
  rw [hcompat, if_neg Bool.false_ne_true]
  generalize applyClientSettingsTcp build listener.settings now.sec x = r at haccept hrequires ⊢
  obtain ⟨verdict, x'⟩ := r
  obtain rfl : verdict = .accept := haccept
  exact if_pos (by rw [hrequires, decide_eq_true hpos, Bool.true_and])

end

/-- `-c host -X --trip-times` -/
def peerDetectTripTimes : CommandLine where
  settings := { (default : ThreadSettings) with
    isPeerVerDetect := true
    isTripTime := true }
  client := rfl
  noServerReverse := rfl
  noSmallTripTime := rfl

/-- The client of these options. -/
def tripTimesClient : ThreadSettings :=
  { modalDefaults peerDetectTripTimes.settings with mBurstSize := BitVec.ofInt 32 kDefault_TCPBufLen }

theorem peerDetectTripTimes_accepted : settingsModalOptions default peerDetectTripTimes.settings = some tripTimesClient := rfl

/-- Its connection with the default listener; the clock of the client is at zero. -/
def tripTimesExchange : Exchange :=
  .start defaultListener.settings Buf.zero 0 (sentHdr ⟨true, false⟩ tripTimesClient Buf.zero ⟨0, 0⟩ ++ [])

end Iperf2.Header
