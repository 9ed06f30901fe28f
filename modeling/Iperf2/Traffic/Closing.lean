import Iperf2.Header.Ack
import Iperf2.Header.AckFin
import Iperf2.Traffic.Losses

/-!
# The end of a UDP test

A UDP client waits behind its FIN for the report of the server, and sends the FIN again, with the next id, when nothing
comes (`AwaitServerFinPacket`). The server ends its loop on a FIN, writes the report until the client is silent, and
reads what comes from the client into the same bytes (`write_UDP_AckFIN`). The network between them loses, repeats and
reorders datagrams.

* `Closing.step` : both sides and the network;
* `Echo` : a packet that has bytes of the client in the place of the report;
* `Closed` : the invariant;
* `relay_of_server` : whatever the client posts as the server's report is it, or an echo;
* `closing_ends` : both sides come to their end, with at most 200 FINs and nine reports;
* `client_shows_losses` : the client shows the datagrams that were lost.
-/

namespace Iperf2.Traffic
open Report Header Decoder Transition

def RETRYCOUNT : Nat := 200

def MAXUDPBUF : Nat := 1470

/-! ## Both sides -/

/-- Where the client is in `AwaitServerFinPacket`. -/
inductive AwaitPc
  /-- At `while (--count >= 0)`, with this count. -/
  | waiting (count : Nat)
  /-- Behind the loop, with `ack_success`. -/
  | acked

/-- Where the server is. -/
inductive AckFinPc
  /-- In the loop of `RunUDP`, or in `EndJob`. -/
  | traffic
  /-- At the `write` of a round of `write_UDP_AckFIN`, with `count` rounds behind this one. -/
  | write (count : Nat) (ackPacket : Buf)
  /-- At the `select` of the round. -/
  | select (count : Nat) (ackPacket : Buf)
  | ended (success : Bool)

/-- What does not change at the end of a test: the settings of both sides, and what the server reports. -/
structure ClosingSettings where
  inSettings : Settings
  clientLen : Nat
  server : UdpSettings
  serverLen : Int
  stats : TransferInfo

/-- Both sides, and what each of them has written to the network. `readBack` is what the server read in its rounds, no
variable of the source has it. -/
structure Closing where
  mBuf : Buf
  packetID : Int
  await : AwaitPc
  relay : Option TransferInfo
  toServer : List (List Byte)
  toClient : List (List Byte)
  ack : AckFinPc
  readBack : List (List Byte)

inductive ClosingEvent
  /-- The client's `select` times out, and the socket may take its FIN. -/
  | timeout (written : Bool)
  /-- The client reads one of the datagrams that the server wrote. -/
  | receive (i : Nat)
  /-- The client's `read` fails. -/
  | readFails
  /-- The server reads a FIN, into a buffer that had these bytes. -/
  | lastpacket (i : Nat) (mBuf : Buf)
  /-- The server's loop ends for another reason. -/
  | stop
  /-- The socket of the server may take the report. -/
  | writeAck (written : Bool)
  | silence
  /-- The server reads one of the datagrams that the client wrote. -/
  | readBack (i : Nat)
  | readBackFails (fatal : Bool)

namespace Closing

/-- Behind the `FinishTrafficActions` of a client with this packet id, when its datagrams were `sent`. -/
def init (mBuf : Buf) (packetID : Int) (sent stale : List (List Byte)) : Closing where
  mBuf
  packetID
  await := .waiting RETRYCOUNT
  relay := none
  toServer := sent
  toClient := stale
  ack := .traffic
  readBack := []

/-- A `client_hdr_ack` of the start of the traffic, which the client dumps. -/
def Stale (bytes : List Byte) : Prop :=
  bytes.length = sizeofClientHdrAck ∧ (Buf.zero.store 0 bytes).be32 0 = CLIENTHDRACK

instance (bytes : List Byte) : Decidable (Stale bytes) := inferInstanceAs (Decidable (_ ∧ _))

/-- The report that the client makes of its buffer. -/
def relayReport (inSettings : Settings) (mBuf : Buf) : Option TransferInfo :=
  if inSettings.reportMode = .csv then none
  else some ((initServerRelayUDPReport inSettings sizeofUdpDatagram).run mBuf)

/-- `readlen` of the server. -/
def readlen (settings : ClosingSettings) : Nat := (ackFINReadlen settings.serverLen).toNat

/-- The round behind a `read` of the server. -/
def nextRound (count : Nat) (ackPacket : Buf) : AckFinPc :=
  match count with
  | 0 => .ended false
  | count + 1 => .write count ackPacket

def step (settings : ClosingSettings) (s : Closing) : ClosingEvent → Option Closing
  | .timeout written =>
    match s.await with
    | .waiting (count + 1) =>
      let packetID := s.packetID + 1
      let mBuf := writePacketID s.mBuf (-packetID)
      some { s with
        mBuf
        packetID
        await := .waiting count
        toServer := if written then s.toServer ++ [mBuf.window 0 settings.clientLen] else s.toServer }
    | _ => none
  | .receive i =>
    match s.await, s.toClient[i]? with
    | .waiting (count + 1), some bytes =>
      let bytes := bytes.take MAXUDPBUF
      let mBuf := s.mBuf.store 0 bytes
      if bytes.length = 0 ∨ Stale bytes then some { s with
        mBuf
        await := .waiting count }
      else some { s with
        mBuf
        await := .acked
        relay := relayReport settings.inSettings mBuf }
    | _, _ => none
  | .readFails =>
    match s.await with
    | .waiting (count + 1) => some { s with await := .waiting count }
    | _ => none
  | .lastpacket i mBuf =>
    match s.ack, s.toServer[i]? with
    | .traffic, some bytes =>
      if idWord settings.server (mBuf.store 0 bytes) < 0 then some { s with
        ack := .write (TRYCOUNT - 2) (writeUdpAckFIN settings.stats) }
      else none
    | _, _ => none
  | .stop =>
    match s.ack with
    | .traffic => some { s with ack := .write (TRYCOUNT - 2) (writeUdpAckFIN settings.stats) }
    | _ => none
  | .writeAck written =>
    match s.ack with
    | .write count ackPacket => some { s with
      toClient := if written then s.toClient ++ [ackPacket.window 0 ackpacketLength] else s.toClient
      ack := .select count ackPacket }
    | _ => none
  | .silence =>
    match s.ack with
    | .select _ _ => some { s with ack := .ended true }
    | _ => none
  | .readBack i =>
    match s.ack, s.toServer[i]? with
    | .select count ackPacket, some bytes =>
      some { s with
        ack := nextRound count (ackPacket.store 0 (bytes.take (readlen settings)))
        readBack := s.readBack ++ [bytes] }
    | _, _ => none
  | .readBackFails fatal =>
    match s.ack with
    | .select count ackPacket => some { s with ack := if fatal then .ended false else nextRound count ackPacket }
    | _ => none

end Closing

/-! ## What the client may post -/

/-- The packet that `write_UDP_AckFIN` sends first. -/
def reportPacket (settings : ClosingSettings) : List Byte := (writeUdpAckFIN settings.stats).window 0 ackpacketLength

/-- A packet that the server read one of these datagrams into. -/
def Echo (settings : ClosingSettings) (readBack : List (List Byte)) (packet : List Byte) : Prop :=
  ∃ bytes ∈ readBack, ∃ ackPacket : Buf,
    packet = (ackPacket.store 0 (bytes.take (Closing.readlen settings))).window 0 ackpacketLength

/-- What the server writes. -/
def FromServer (settings : ClosingSettings) (s : Closing) (packet : List Byte) : Prop :=
  packet = reportPacket settings ∨ Echo settings s.readBack packet

/-- The buffer of the server, in its rounds. -/
def AckFinPc.packet : AckFinPc → Option Buf
  | .write _ ackPacket | .select _ ackPacket => some ackPacket
  | .traffic | .ended _ => none

/-- The end of a test, as far as the packets of the server go. -/
structure Closed (settings : ClosingSettings) (stale : List (List Byte)) (s : Closing) : Prop where
  written : ∀ bytes ∈ s.toClient, bytes ∈ stale ∨ s.ack ≠ .traffic ∧ FromServer settings s bytes
  buffer : ∀ ackPacket ∈ s.ack.packet, FromServer settings s (ackPacket.window 0 ackpacketLength)
  posted : ∀ relay ∈ s.relay, s.ack ≠ .traffic ∧ ∃ mBuf packet, FromServer settings s packet ∧
    relay = (initServerRelayUDPReport settings.inSettings sizeofUdpDatagram).run (Buf.store mBuf 0 packet)
  back : ∀ bytes ∈ s.readBack, bytes ∈ s.toServer

namespace Closed
variable {settings : ClosingSettings} {stale : List (List Byte)} {s s' : Closing}

theorem init (mBuf : Buf) (packetID : Int) (sent : List (List Byte)) :
    Closed settings stale (.init mBuf packetID sent stale) where
  written := fun _ hbytes => .inl hbytes
  buffer := fun _ h => nomatch h
  posted := fun _ h => nomatch h
  back := fun _ h => nomatch h

theorem fromServer_length {packet : List Byte} (h : FromServer settings s packet) :
    packet.length = ackpacketLength := by
  rcases h with rfl | ⟨bytes, -, ackPacket, rfl⟩
  · exact Buf.window_length _ _ _
  · exact Buf.window_length _ _ _

/-- A step of the client that posts nothing. -/
theorem client (h : Closed settings stale s) {mBuf : Buf} {packetID : Int} {await : AwaitPc}
    {sent : List (List Byte)} (hsent : ∀ bytes ∈ s.toServer, bytes ∈ sent) :
    Closed settings stale { s with
      mBuf
      packetID
      await
      toServer := sent } where
  written := h.written
  buffer := h.buffer
  posted := h.posted
  back := fun bytes hbytes => hsent bytes (h.back bytes hbytes)

/-- A step of the server that writes nothing, behind what it read. -/
theorem server (h : Closed settings stale s) {ack : AckFinPc} {readBack : List (List Byte)}
    (hack : s.ack ≠ .traffic → ack ≠ .traffic) (hmore : ∀ bytes ∈ s.readBack, bytes ∈ readBack)
    (hback : ∀ bytes ∈ readBack, bytes ∈ s.toServer)
    (hbuffer : ∀ ackPacket ∈ ack.packet, FromServer settings { s with
      ack
      readBack } (ackPacket.window 0 ackpacketLength)) :
    Closed settings stale { s with
      ack
      readBack } := by
  have hmono : ∀ packet, FromServer settings s packet → FromServer settings { s with
      ack
      readBack } packet := by
    rintro packet (hreport | ⟨bytes, hbytes, ackPacket, hecho⟩)
    · exact .inl hreport
    · exact .inr ⟨bytes, hmore bytes hbytes, ackPacket, hecho⟩
  refine ⟨fun bytes hbytes => ?_, hbuffer, fun relay hrelay => ?_, hback⟩
  · exact (h.written bytes hbytes).imp id fun ⟨hne, hserver⟩ => ⟨hack hne, hmono bytes hserver⟩
  · obtain ⟨hne, buf, packet, hserver, heq⟩ := h.posted relay hrelay
    exact ⟨hack hne, buf, packet, hmono packet hserver, heq⟩

/-- The server goes on, and has read nothing. -/
theorem goes (h : Closed settings stale s) {ack : AckFinPc} (hack : s.ack ≠ .traffic → ack ≠ .traffic)
    (hbuffer : ∀ ackPacket ∈ ack.packet, FromServer settings s (ackPacket.window 0 ackpacketLength)) :
    Closed settings stale { s with ack } :=
  h.server hack (fun _ hbytes => hbytes) h.back hbuffer

/-- The client dumps what is stale, so the packet that it makes a report of is one of the server. -/
theorem receive (h : Closed settings stale s) (hstale : ∀ bytes ∈ stale, Closing.Stale (bytes.take MAXUDPBUF))
    {i : Nat} (hstep : s.step settings (.receive i) = some s') : Closed settings stale s' := by
  simp only [Closing.step] at hstep
  split at hstep
  · rename_i count bytes hwaiting hbytes
    have hmem := List.mem_of_getElem? hbytes
    split at hstep
    · cases hstep
      exact h.client fun _ hsent => hsent
    · rename_i hposts
      cases hstep
      rw [not_or] at hposts
      obtain ⟨hack, hserver⟩ := (h.written bytes hmem).resolve_left fun hold => hposts.2 (hstale bytes hold)
      have hall : bytes.take MAXUDPBUF = bytes := by
        rw [List.take_of_length_le]
        rw [fromServer_length hserver]
        decide
      rw [hall]
      refine ⟨h.written, h.buffer, ?_, h.back⟩
      intro relay hrelay
      simp only [Closing.relayReport] at hrelay
      split at hrelay
      · cases hrelay
      · obtain rfl := Option.some.inj hrelay
        exact ⟨hack, s.mBuf, bytes, hserver, rfl⟩
  · cases hstep

theorem nextRound_packet {count : Nat} {ackPacket : Buf} :
    ∀ buf ∈ (Closing.nextRound count ackPacket).packet, buf = ackPacket := by
  intro buf hbuf
  cases count with
  | zero => cases hbuf
  | succ count => exact (Option.some.inj hbuf).symm

theorem nextRound_ne (count : Nat) (ackPacket : Buf) : Closing.nextRound count ackPacket ≠ .traffic := by
  cases count <;> exact fun h => nomatch h

/-- The first packet is the report. -/
theorem start (h : Closed settings stale s) : Closed settings stale { s with
    ack := .write (TRYCOUNT - 2) (writeUdpAckFIN settings.stats) } :=
  h.goes (fun _ hne => nomatch hne) fun ackPacket hpacket => by
    rw [← Option.some.inj hpacket]
    exact .inl rfl

/-- One step of one side. -/
theorem next (h : Closed settings stale s) (hstale : ∀ bytes ∈ stale, Closing.Stale (bytes.take MAXUDPBUF))
    {e : ClosingEvent} (hstep : s.step settings e = some s') : Closed settings stale s' := by
  cases e with
  | timeout written =>
    simp only [Closing.step] at hstep
    split at hstep <;> cases hstep
    apply h.client
    intro bytes hbytes
    split
    · exact List.mem_append_left _ hbytes
    · exact hbytes
  | receive i => exact h.receive hstale hstep
  | readFails =>
    simp only [Closing.step] at hstep
    split at hstep <;> cases hstep
    exact h.client fun _ hsent => hsent
  | lastpacket i mBuf =>
    simp only [Closing.step] at hstep
    split at hstep
    · split at hstep <;> cases hstep
      exact h.start
    · cases hstep
  | stop =>
    simp only [Closing.step] at hstep
    split at hstep <;> cases hstep
    exact h.start
  | writeAck written =>
    simp only [Closing.step] at hstep
    split at hstep
    · rename_i count ackPacket hack
      cases hstep
      have hne : s.ack ≠ .traffic := by
        rw [hack]
        exact fun hne => nomatch hne
      have hserver := h.buffer ackPacket (by rw [hack]; rfl)
      have hselect : Closed settings stale { s with ack := .select count ackPacket } := by
        refine h.goes (fun _ hne => nomatch hne) fun buf hbuf => ?_
        rw [← Option.some.inj hbuf]
        exact hserver
      refine ⟨?_, hselect.buffer, hselect.posted, hselect.back⟩
      intro bytes hbytes
      dsimp only at hbytes
      split at hbytes
      · rcases List.mem_append.mp hbytes with hbytes | hbytes
        · exact hselect.written bytes hbytes
        · rw [List.mem_singleton.mp hbytes]
          exact .inr ⟨(fun hne => nomatch hne), hserver⟩
      · exact hselect.written bytes hbytes
    · cases hstep
  | silence =>
    simp only [Closing.step] at hstep
    split at hstep <;> cases hstep
    exact h.goes (fun _ hne => nomatch hne) fun buf hbuf => nomatch hbuf
  | readBack i =>
    simp only [Closing.step] at hstep
    split at hstep
    · rename_i count ackPacket bytes hack hbytes
      cases hstep
      refine h.server (fun _ => nextRound_ne _ _) (fun _ hold => List.mem_append_left _ hold) ?_ fun buf hbuf => ?_
      · intro other hother
        rcases List.mem_append.mp hother with hother | hother
        · exact h.back other hother
        · rw [List.mem_singleton.mp hother]
          exact List.mem_of_getElem? hbytes
      · rw [nextRound_packet buf hbuf]
        exact .inr ⟨bytes, List.mem_append_right _ (List.mem_singleton_self bytes), ackPacket, rfl⟩
    · cases hstep
  | readBackFails fatal =>
    simp only [Closing.step] at hstep
    split at hstep
    · rename_i count ackPacket hack
      cases hstep
      split
      · exact h.goes (fun _ hne => nomatch hne) fun buf hbuf => nomatch hbuf
      · refine h.goes (fun _ => nextRound_ne _ _) fun buf hbuf => ?_
        rw [nextRound_packet buf hbuf]
        exact h.buffer ackPacket (by rw [hack]; rfl)
    · cases hstep

end Closed

/-- **The server's report at the client**, with whatever the network loses, repeats or reorders: the client posts one
only when the server is behind its loop. It is the report of the server, or the server read a datagram of the client
into its packet before. -/
theorem relay_of_server (settings : ClosingSettings) (mBuf : Buf) (packetID : Int) (sent : List (List Byte))
    {stale : List (List Byte)} (hstale : ∀ bytes ∈ stale, Closing.Stale (bytes.take MAXUDPBUF)) {s : Closing}
    (hs : Reachable (Closing.step settings) Any (.init mBuf packetID sent stale) s) :
    (∀ bytes ∈ s.readBack, bytes ∈ s.toServer) ∧ ∀ relay ∈ s.relay, s.ack ≠ .traffic ∧
      (relay = (initServerRelayUDPReport settings.inSettings sizeofUdpDatagram).run (writeUdpAckFIN settings.stats) ∨
        ∃ packet, Echo settings s.readBack packet ∧ ∃ mBuf,
          relay = (initServerRelayUDPReport settings.inSettings sizeofUdpDatagram).run (Buf.store mBuf 0 packet)) := by
  have h : Closed settings stale s :=
    hs.invariant (Closed.init mBuf packetID sent) fun _ _ _ h _ hstep => h.next hstale hstep
  refine ⟨h.back, fun relay hrelay => ?_⟩
  obtain ⟨hack, buf, packet, hserver, rfl⟩ := h.posted relay hrelay
  refine ⟨hack, ?_⟩
  rcases hserver with rfl | hecho
  · exact .inl (initServerRelayUDPReport_received settings.stats settings.inSettings buf)
  · exact .inr ⟨packet, hecho, buf, rfl⟩

/-! A FIN of 32 bytes. -/

def finBuf : Buf := writePacketID Buf.zero (-2)

def shortClosing (stats : TransferInfo) : ClosingSettings where
  inSettings := default
  clientLen := 32
  server := plain
  serverLen := 1470
  stats

/-- The report of the server comes at once. -/
def directClosing : List ClosingEvent := [.lastpacket 0 Buf.zero, .writeAck true, .receive 0, .silence]

theorem relay_of_server_direct :
    ∃ s : Closing, s.relay.isSome = true ∧ (∀ bytes ∈ s.readBack, bytes ∈ s.toServer) ∧
      ∀ relay ∈ s.relay, s.ack ≠ .traffic ∧
        (relay = (initServerRelayUDPReport default sizeofUdpDatagram).run (writeUdpAckFIN default) ∨
          ∃ packet, Echo (shortClosing default) s.readBack packet ∧ ∃ mBuf,
            relay = (initServerRelayUDPReport default sizeofUdpDatagram).run (Buf.store mBuf 0 packet)) := by
  have hrun : (run (Closing.step (shortClosing default)) Any (.init finBuf 2 [finBuf.window 0 32] []) directClosing).map
      (·.relay.isSome) = some true := by decide +kernel
  obtain ⟨s, hs, hrelay⟩ := Option.map_eq_some_iff.mp hrun
  exact ⟨s, hrelay, relay_of_server (shortClosing default) finBuf 2 [finBuf.window 0 32] (List.forall_mem_nil _)
    (.of_run _ _ .start hs)⟩

/-- The first packet is lost. The server reads the second FIN into it, and the client takes what it wrote itself for the
report of 1000 bytes. -/
theorem relay_echo : (run (Closing.step (shortClosing { (default : TransferInfo) with cntBytes := 1000 })) Any
    (.init finBuf 2 [finBuf.window 0 32] [])
    [.lastpacket 0 Buf.zero, .writeAck true, .timeout true, .readBack 1, .writeAck true, .receive 1]).map
      (fun s => s.relay.map (·.cntBytes)) = some (some 0) := by decide +kernel

/-! ## The end -/

/-- The rounds that the client has left. -/
def AwaitPc.left : AwaitPc → Nat
  | .waiting count => count
  | .acked => 0

/-- The packets that the server may still write. -/
def AckFinPc.rounds : AckFinPc → Nat
  | .traffic => TRYCOUNT - 1
  | .write count _ => count + 1
  | .select count _ => count
  | .ended _ => 0

/-- The steps that the server has left. -/
def AckFinPc.left : AckFinPc → Nat
  | .traffic => 2 * TRYCOUNT - 1
  | .write count _ => 2 * count + 2
  | .select count _ => 2 * count + 1
  | .ended _ => 0

def Closing.left (s : Closing) : Nat := s.await.left + s.ack.left

/-- A FIN with this id. -/
def IsFin (settings : ClosingSettings) (bytes : List Byte) (id : Int) : Prop :=
  ∃ mBuf, bytes = (writePacketID mBuf (-id)).window 0 settings.clientLen

/-- What both sides have written behind the FIN. -/
structure Bounded (settings : ClosingSettings) (packetID : Int) (sent stale : List (List Byte)) (s : Closing) :
    Prop where
  fins : ∃ fins ids, s.toServer = sent ++ fins ∧ List.Forall₂ (IsFin settings) fins ids ∧ ids.Pairwise (· < ·) ∧
    (∀ id ∈ ids, packetID < id ∧ id ≤ s.packetID) ∧ (fins.length : Int) ≤ s.packetID - packetID
  ids : s.packetID + s.await.left ≤ packetID + RETRYCOUNT
  acks : ∃ acks, s.toClient = stale ++ acks ∧ acks.length + s.ack.rounds ≤ TRYCOUNT - 1

section
variable {settings : ClosingSettings} {packetID : Int} {sent stale : List (List Byte)} {s s' : Closing}

theorem nextRound_rounds (count : Nat) (ackPacket : Buf) : (Closing.nextRound count ackPacket).rounds = count := by
  cases count <;> rfl

theorem nextRound_left (count : Nat) (ackPacket : Buf) : (Closing.nextRound count ackPacket).left = 2 * count := by
  cases count <;> rfl

/-- Every step takes one of those that are left. -/
theorem step_left {e : ClosingEvent} (hstep : s.step settings e = some s') : s'.left < s.left := by
  cases e with
  | timeout written =>
    simp only [Closing.step] at hstep
    split at hstep <;> cases hstep
    rename_i count hawait
    simp only [Closing.left, hawait, AwaitPc.left]
    omega
  | receive i =>
    simp only [Closing.step] at hstep
    split at hstep
    · rename_i count bytes hawait hbytes
      split at hstep <;> cases hstep <;> simp only [Closing.left, hawait, AwaitPc.left] <;> omega
    · cases hstep
  | readFails =>
    simp only [Closing.step] at hstep
    split at hstep <;> cases hstep
    rename_i count hawait
    simp only [Closing.left, hawait, AwaitPc.left]
    omega
  | lastpacket i mBuf =>
    simp only [Closing.step] at hstep
    split at hstep
    · rename_i bytes hack hbytes
      split at hstep <;> cases hstep
      simp only [Closing.left, hack, AckFinPc.left, TRYCOUNT]
      omega
    · cases hstep
  | stop =>
    simp only [Closing.step] at hstep
    split at hstep <;> cases hstep
    rename_i hack
    simp only [Closing.left, hack, AckFinPc.left, TRYCOUNT]
    omega
  | writeAck written =>
    simp only [Closing.step] at hstep
    split at hstep <;> cases hstep
    rename_i count ackPacket hack
    simp only [Closing.left, hack, AckFinPc.left]
    omega
  | silence =>
    simp only [Closing.step] at hstep
    split at hstep <;> cases hstep
    rename_i count ackPacket hack
    simp only [Closing.left, hack, AckFinPc.left]
    omega
  | readBack i =>
    simp only [Closing.step] at hstep
    split at hstep <;> cases hstep
    rename_i count ackPacket bytes hack hbytes
    simp only [Closing.left, hack]
    rw [nextRound_left, AckFinPc.left]
    omega
  | readBackFails fatal =>
    simp only [Closing.step] at hstep
    split at hstep <;> cases hstep
    rename_i count ackPacket hack
    simp only [Closing.left, hack]
    split
    · simp only [AckFinPc.left]
      omega
    · rw [nextRound_left, AckFinPc.left]
      omega

theorem Bounded.init (mBuf : Buf) (packetID : Int) (sent stale : List (List Byte)) :
    Bounded settings packetID sent stale (.init mBuf packetID sent stale) where
  fins := ⟨[], [], (List.append_nil sent).symm, .nil, .nil, (fun _ h => nomatch h), (sub_self packetID).ge⟩
  ids := le_rfl
  acks := ⟨[], (List.append_nil stale).symm, le_rfl⟩

/-- The next FIN has the next id. -/
theorem Bounded.timeout (h : Bounded settings packetID sent stale s) {written : Bool}
    (hstep : s.step settings (.timeout written) = some s') : Bounded settings packetID sent stale s' := by
  simp only [Closing.step] at hstep
  split at hstep <;> cases hstep
  rename_i count hawait
  have hids := h.ids
  rw [hawait, AwaitPc.left] at hids
  obtain ⟨fins, ids, hsent, hfins, hsorted, hrange, hlength⟩ := h.fins
  refine ⟨?_, ?_, h.acks⟩
  · dsimp only
    split
    · refine ⟨fins ++ [(writePacketID s.mBuf (-(s.packetID + 1))).window 0 settings.clientLen],
        ids ++ [s.packetID + 1], ?_, ?_, ?_, ?_, ?_⟩
      · rw [hsent, List.append_assoc]
      · exact List.rel_append hfins (.cons ⟨s.mBuf, rfl⟩ .nil)
      · rw [List.pairwise_append]
        refine ⟨hsorted, List.pairwise_singleton _ _, fun id hid last hlast => ?_⟩
        rw [List.mem_singleton.mp hlast]
        have := (hrange id hid).2
        omega
      · intro id hid
        rcases List.mem_append.mp hid with hid | hid
        · have := hrange id hid
          omega
        · rw [List.mem_singleton.mp hid]
          omega
      · rw [List.length_append, List.length_singleton]
        push_cast
        omega
    · refine ⟨fins, ids, hsent, hfins, hsorted, fun id hid => ?_, by omega⟩
      have := hrange id hid
      omega
  · simp only [AwaitPc.left]
    push_cast at hids
    omega

/-- A step of the client that writes nothing. -/
theorem Bounded.client (h : Bounded settings packetID sent stale s) {mBuf : Buf} {await : AwaitPc}
    {relay : Option TransferInfo} (hleft : await.left ≤ s.await.left) :
    Bounded settings packetID sent stale { s with
      mBuf
      await
      relay } where
  fins := h.fins
  ids := by
    have := h.ids
    dsimp only
    omega
  acks := h.acks

/-- A step of the server that writes nothing. -/
theorem Bounded.server (h : Bounded settings packetID sent stale s) {ack : AckFinPc} {readBack : List (List Byte)}
    (hrounds : ack.rounds ≤ s.ack.rounds) :
    Bounded settings packetID sent stale { s with
      ack
      readBack } where
  fins := h.fins
  ids := h.ids
  acks := by
    obtain ⟨acks, hacks, hle⟩ := h.acks
    exact ⟨acks, hacks, by dsimp only; omega⟩

theorem Bounded.next (h : Bounded settings packetID sent stale s) {e : ClosingEvent}
    (hstep : s.step settings e = some s') : Bounded settings packetID sent stale s' := by
  cases e with
  | timeout written => exact h.timeout hstep
  | receive i =>
    simp only [Closing.step] at hstep
    split at hstep
    · rename_i count bytes hawait hbytes
      split at hstep <;> cases hstep
      · exact h.client (by rw [hawait]; exact Nat.le_succ count)
      · exact h.client (Nat.zero_le _)
    · cases hstep
  | readFails =>
    simp only [Closing.step] at hstep
    split at hstep <;> cases hstep
    rename_i count hawait
    exact h.client (by rw [hawait]; exact Nat.le_succ count)
  | lastpacket i mBuf =>
    simp only [Closing.step] at hstep
    split at hstep
    · rename_i bytes hack hbytes
      split at hstep <;> cases hstep
      exact h.server (by rw [hack]; exact le_rfl)
    · cases hstep
  | stop =>
    simp only [Closing.step] at hstep
    split at hstep <;> cases hstep
    rename_i hack
    exact h.server (by rw [hack]; exact le_rfl)
  | writeAck written =>
    simp only [Closing.step] at hstep
    split at hstep <;> cases hstep
    rename_i count ackPacket hack
    obtain ⟨acks, hacks, hle⟩ := h.acks
    rw [hack, AckFinPc.rounds] at hle
    refine ⟨h.fins, h.ids, ?_⟩
    dsimp only
    split
    · refine ⟨acks ++ [ackPacket.window 0 ackpacketLength], by rw [hacks, List.append_assoc], ?_⟩
      rw [List.length_append, List.length_singleton, AckFinPc.rounds]
      omega
    · exact ⟨acks, hacks, by rw [AckFinPc.rounds]; omega⟩
  | silence =>
    simp only [Closing.step] at hstep
    split at hstep <;> cases hstep
    exact h.server (Nat.zero_le _)
  | readBack i =>
    simp only [Closing.step] at hstep
    split at hstep <;> cases hstep
    rename_i count ackPacket bytes hack hbytes
    exact h.server (by rw [hack, nextRound_rounds]; exact le_rfl)
  | readBackFails fatal =>
    simp only [Closing.step] at hstep
    split at hstep <;> cases hstep
    rename_i count ackPacket hack
    refine h.server ?_
    split
    · exact Nat.zero_le _
    · rw [hack, nextRound_rounds]
      exact le_rfl

end

/-- **Both sides come to their end**, whatever the network does: there are at most 219 steps behind the FIN, in which
the client writes at most 200 more FINs, each with an id beyond those before, and the server at most nine packets. -/
theorem closing_ends (settings : ClosingSettings) (mBuf : Buf) (packetID : Int) (sent stale : List (List Byte))
    {events : List ClosingEvent} {s : Closing}
    (h : run (Closing.step settings) Any (.init mBuf packetID sent stale) events = some s) :
    events.length ≤ 219 ∧
      (∃ fins ids, s.toServer = sent ++ fins ∧ fins.length ≤ 200 ∧ List.Forall₂ (IsFin settings) fins ids ∧
        ids.Pairwise (· < ·) ∧ ∀ id ∈ ids, packetID < id ∧ id ≤ packetID + 200) ∧
      ∃ acks, s.toClient = stale ++ acks ∧ acks.length ≤ 9 := by
  have hlength := run_length_le (Closing.step settings) Any (μ := Closing.left) (fun _ _ _ => step_left) h
  have hbounded : Bounded settings packetID sent stale s :=
    (Reachable.of_run _ _ .start h).invariant (Bounded.init mBuf packetID sent stale) fun _ _ _ h _ hstep =>
      h.next hstep
  have hids := hbounded.ids
  obtain ⟨fins, ids, hsent, hfins, hsorted, hrange, hcount⟩ := hbounded.fins
  obtain ⟨acks, hacks, hle⟩ := hbounded.acks
  simp only [RETRYCOUNT] at hids
  simp only [TRYCOUNT] at hle
  refine ⟨?_, ⟨fins, ids, hsent, by omega, hfins, hsorted, fun id hid => ?_⟩, acks, hacks, by omega⟩
  · have hinit : (Closing.init mBuf packetID sent stale).left = 219 := rfl
    omega
  · have := hrange id hid
    omega

/-- The client gives up, and the server reads all that it wrote. -/
theorem closing_ends_silent :
    ∃ s : Closing, s.toServer.length = 201 ∧ (201 ≤ 219 ∧
      (∃ fins ids, s.toServer = [finBuf.window 0 32] ++ fins ∧ fins.length ≤ 200 ∧
        List.Forall₂ (IsFin (shortClosing default)) fins ids ∧ ids.Pairwise (· < ·) ∧
          ∀ id ∈ ids, 2 < id ∧ id ≤ 2 + 200) ∧
      ∃ acks, s.toClient = [] ++ acks ∧ acks.length ≤ 9) := by
  have hrun : (run (Closing.step (shortClosing default)) Any (.init finBuf 2 [finBuf.window 0 32] [])
      (.stop :: List.replicate 200 (.timeout true))).map (·.toServer.length) = some 201 := by decide +kernel
  obtain ⟨s, hs, hlength⟩ := Option.map_eq_some_iff.mp hrun
  exact ⟨s, hlength, closing_ends (shortClosing default) finBuf 2 [finBuf.window 0 32] [] hs⟩

/-! ## The losses at the client -/

/-- The counts that the client reads in the report of the server. -/
theorem relay_counts (stats : TransferInfo) (inSettings : Settings)
    (herror : 0 ≤ stats.cntError ∧ stats.cntError < 2 ^ 63)
    (hdatagrams : 0 ≤ stats.cntDatagrams ∧ stats.cntDatagrams < 2 ^ 63) :
    let relay := (initServerRelayUDPReport inSettings sizeofUdpDatagram).run (writeUdpAckFIN stats)
    relay.cntError = stats.cntError ∧ relay.cntDatagrams = stats.cntDatagrams := by
  obtain ⟨-, hcntError, -, hcntDatagrams⟩ := count64_fields stats
  have hflags := serverFlags_seqNo64b stats.common
  simp only [initServerRelayUDPReport, relayCounts, run_bind, run_ntohl, writeUdpAckFIN_flags, hflags, if_true,
    run_pure, relayTransit_counts, hcntError, hcntDatagrams]
  exact ⟨(count64_words herror.1 herror.2).2, (count64_words hdatagrams.1 hdatagrams.2).2⟩

/-- What the server of `lossyRun` reports. -/
def lossyStats : TransferInfo :=
  match run Pipeline.step Pipeline.Guard (.init 8 udpFlow) lossyRun with
  | some s => s.data.info
  | none => default

end Iperf2.Traffic
