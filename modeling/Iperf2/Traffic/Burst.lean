import Iperf2.Lib.Bytes
import Iperf2.Lib.Framing
import Iperf2.Lib.Transition
import Iperf2.Report.Types

/-!
# TCP bursts

`Client::RunTCP` writes a `TCP_burst_payload` at the start of every burst, into the buffer that it also sends as
payload, and counts down what is left of the burst. `Server::RunTCP` reads a header when its own count is zero. What
the socket takes or gives with one system call, the errors and the clock are inputs. The stream is reliable.

* `TcpSender.step`, `TcpReceiver.step` : one system call of a side; the lists `headers` and the byte counts `sent` and
  `received` record what the sides did, no function of the source has them;
* `Synced` : both sides are aligned over the bytes on the way;
* `tcp_burst_framing` : the headers that the server reads are a prefix of those that the client wrote.
-/

namespace Iperf2.Traffic
open Report Transition Framing

/-- `sizeof(struct TCP_burst_payload)` -/
def sizeofTcpBurstPayload : Nat := 92

/-- A `TCP_burst_payload` in the stream: where it starts, its bytes, and two of its fields. -/
structure BurstHeader where
  offset : Nat
  bytes : List Byte
  burstSize : BitVec 32
  burstId : BitVec 32
  deriving DecidableEq

/-- The `errno` of a call: `EWOULDBLOCK` is `EAGAIN`. -/
inductive TcpErrno
  | eintr
  | eagain
  | other
  deriving DecidableEq

/-- `FATALTCPWRITERR` and `FATALTCPREADERR` -/
def TcpErrno.fatal : TcpErrno → Bool
  | .other => true
  | _ => false

/-! ## The client -/

/-- A `writen` under way: its `inLen` and `nleft`. -/
structure Writen where
  inLen : Nat
  nleft : Nat

/-- The state of `Client::RunTCP`. -/
structure TcpSender where
  mBuf : Buf
  burstRemaining : Int
  burstId : BitVec 32
  packetID : Int
  writen : Option Writen
  ended : Bool
  sent : Nat
  headers : List BurstHeader

structure TcpSettings where
  mBufLen : Nat
  startTime : Timeval

/-- What happens to the client: `InProgress` reads the next block of a file or is false, a burst starts with the size
that its settings give and the id of its tick, a write takes bytes or fails. -/
inductive SendEvent
  | fill (mBuf : Buf)
  | stop
  | burst (size : BitVec 32) (tick : Option (BitVec 32)) (now : Timeval)
  | took (n : Nat)
  | error (errno : TcpErrno)

/-- The fields that `Client::WriteTcpTxHdr` stores. -/
def storeTcpTxHdr (mBuf : Buf) (startTime packetTime : Timeval) (packetID : Int) (burstSize burstId : BitVec 32) :
    Buf :=
  let id := BitVec.ofInt 64 packetID
  let mBuf := (mBuf.store32 12 (BitVec.ofInt 32 startTime.sec)).store32 16 (BitVec.ofInt 32 startTime.usec)
  let mBuf := (mBuf.store32 52 (id.extractLsb' 0 32)).store32 56 (id.extractLsb' 32 32)
  let mBuf := (mBuf.store32 20 (BitVec.ofInt 32 packetTime.sec)).store32 24 (BitVec.ofInt 32 packetTime.usec)
  let mBuf := (mBuf.store32 44 burstId).store32 48 burstSize
  (mBuf.store32 36 0).store32 40 0

/-- `Client::WriteTcpTxHdr` -/
def TcpSender.writeTcpTxHdr (settings : TcpSettings) (s : TcpSender) (now : Timeval) (burstSize : Int)
    (burstId : BitVec 32) : TcpSender :=
  let packetID := s.packetID + burstSize
  let mBuf := storeTcpTxHdr s.mBuf settings.startTime now packetID (BitVec.ofInt 32 burstSize) burstId
  { s with
    packetID
    mBuf
    headers := s.headers ++ [{
      offset := s.sent
      bytes := mBuf.window 0 sizeofTcpBurstPayload
      burstSize := BitVec.ofInt 32 burstSize
      burstId }] }

/-- The start of a burst, up to the call of `writen`. -/
def TcpSender.startBurst (settings : TcpSettings) (s : TcpSender) (size : BitVec 32) (tick : Option (BitVec 32))
    (now : Timeval) : TcpSender :=
  -- check for TCP minimum payload
  let burstRemaining := if size.toInt < sizeofTcpBurstPayload then (sizeofTcpBurstPayload : Int) else size.toInt
  let burstId := tick.getD s.burstId
  let s := s.writeTcpTxHdr settings now burstRemaining burstId
  let writelen := min settings.mBufLen burstRemaining.toNat
  { s with
    burstRemaining
    burstId := burstId + 1
    writen := some ⟨writelen, writelen⟩ }

/-- What `RunTCP` does with the result of `writen`: the full header must succeed. -/
def TcpSender.written (s : TcpSender) (packetLen : Nat) : TcpSender :=
  if packetLen < sizeofTcpBurstPayload then { s with ended := true }
  else { s with
    writen := none
    burstRemaining := s.burstRemaining - packetLen }

/-- One event of the client, and the bytes that the socket takes. -/
def TcpSender.step (settings : TcpSettings) (s : TcpSender) (e : SendEvent) : Option (TcpSender × List Byte) :=
  if s.ended then none
  else match s.writen with
  | none =>
    match e with
    | .fill mBuf => some ({ s with mBuf }, [])
    | .stop => some ({ s with ended := true }, [])
    | .burst size tick now => if s.burstRemaining > 0 then none else some (s.startBurst settings size tick now, [])
    | .took n =>
      if s.burstRemaining > 0 ∧ n ≤ min settings.mBufLen s.burstRemaining.toNat then
        -- nothing taken: the peer is closed
        if n = 0 then some ({ s with ended := true }, [])
        else some ({ s with
          burstRemaining := s.burstRemaining - n
          sent := s.sent + n }, s.mBuf.window 0 n)
      else none
    | .error errno =>
      if s.burstRemaining > 0 then some (if errno.fatal then { s with ended := true } else s, []) else none
  | some w =>
    match e with
    | .took n =>
      if n ≤ w.nleft then
        let data := s.mBuf.window (w.inLen - w.nleft) n
        let s := { s with
          writen := some { w with nleft := w.nleft - n }
          sent := s.sent + n }
        some (if w.nleft - n = 0 then s.written w.inLen else s, data)
      else none
    | .error errno => some (if errno = .eintr then s else s.written (w.inLen - w.nleft), [])
    | _ => none

/-! ## The server -/

/-- The state of `Server::RunTCP`; `got` is what the `recvn` under way has so far. -/
structure TcpReceiver where
  burstInfo : Buf
  got : List Byte
  burstNleft : Int
  ended : Bool
  received : Nat
  headers : List BurstHeader

/-- What happens to the server: `InProgress` is false, a read gives bytes, the end of the stream or an error. -/
inductive ReadEvent
  | stop
  | took (n : Nat)
  | eof
  | error (errno : TcpErrno)

/-- How many bytes the next read asks for. -/
def TcpReceiver.readLen (mBufLen : Nat) (s : TcpReceiver) : Nat :=
  if s.burstNleft = 0 then sizeofTcpBurstPayload - s.got.length
  else if s.burstNleft > 0 then min mBufLen s.burstNleft.toNat
  else mBufLen

/-- `recvn` returned the whole header. -/
def TcpReceiver.readHeader (s : TcpReceiver) (got : List Byte) : TcpReceiver :=
  let burstInfo := s.burstInfo.store 0 got
  let burstSize := burstInfo.be32 48
  { s with
    burstInfo
    got := []
    burstNleft := (burstSize - BitVec.ofNat 32 sizeofTcpBurstPayload).toInt
    -- `assert(burst_info.burst_size > 0)`
    ended := burstSize = 0
    headers := s.headers ++ [{
      offset := s.received - sizeofTcpBurstPayload
      bytes := got
      burstSize
      burstId := burstInfo.be32 44 }] }

/-- A read that got bytes. -/
def TcpReceiver.receive (s : TcpReceiver) (bytes : List Byte) : TcpReceiver :=
  let s := { s with received := s.received + bytes.length }
  if s.burstNleft = 0 then
    let got := s.got ++ bytes
    if got.length = sizeofTcpBurstPayload then s.readHeader got else { s with got }
  else { s with burstNleft := s.burstNleft - bytes.length }

/-- One event of the server, and what it leaves of the bytes on the way. -/
def TcpReceiver.step (mBufLen : Nat) (s : TcpReceiver) (inFlight : List Byte) (e : ReadEvent) :
    Option (TcpReceiver × List Byte) :=
  if s.ended then none
  else match e with
  | .stop => if s.got = [] then some ({ s with ended := true }, inFlight) else none
  | .took n =>
    if 0 < n ∧ n ≤ s.readLen mBufLen ∧ n ≤ inFlight.length then
      some (s.receive (inFlight.take n), inFlight.drop n)
    else none
  | .eof => some ({ s with ended := true }, inFlight)
  | .error errno => some (if errno.fatal then { s with ended := true } else s, inFlight)

/-! ## The connection -/

/-- A client, the bytes on the way, a server. -/
structure BurstStream where
  client : TcpSender
  inFlight : List Byte
  server : TcpReceiver

inductive BurstEvent
  | client (e : SendEvent)
  | server (e : ReadEvent)

def BurstStream.step (settings : TcpSettings) (mBufLen : Nat) (s : BurstStream) : BurstEvent → Option BurstStream
  | .client e => (s.client.step settings e).map fun (client, bytes) => { s with
      client
      inFlight := s.inFlight ++ bytes }
  | .server e => (s.server.step mBufLen s.inFlight e).map fun (server, inFlight) => { s with
      server
      inFlight }

/-- Both sides at the start of `RunTCP`, with the buffers and the packet id that the first payload left. -/
def BurstStream.init (mBuf burstInfo : Buf) (packetID : Int) : BurstStream where
  client := {
    mBuf
    burstRemaining := 0
    burstId := 1
    packetID
    writen := none
    ended := false
    sent := 0
    headers := [] }
  inFlight := []
  server := {
    burstInfo
    got := []
    burstNleft := 0
    ended := false
    received := 0
    headers := [] }

/-! ## Headers -/

/-- The `burst_size` of a header, as the `int` that both sides count with. -/
def burstSizeOf (bytes : List Byte) : Nat := ((Buf.zero.store 0 bytes).be32 48).toInt.toNat

def BurstHeader.mark (e : BurstHeader) : Mark Byte := ⟨e.offset, e.bytes⟩

/-- The header with the fields that its bytes have. -/
def BurstHeader.ofMark (m : Mark Byte) : BurstHeader where
  offset := m.offset
  bytes := m.header
  burstSize := (Buf.zero.store 0 m.header).be32 48
  burstId := (Buf.zero.store 0 m.header).be32 44

/-- Headers whose fields are those of their bytes are as many as their marks. -/
theorem headers_prefix {seen written : List BurstHeader} (hseen : ∀ e ∈ seen, .ofMark e.mark = e)
    (hwritten : ∀ e ∈ written, .ofMark e.mark = e) (h : seen.map (·.mark) <+: written.map (·.mark)) :
    seen <+: written := by
  have hmap : ∀ es : List BurstHeader, (∀ e ∈ es, .ofMark e.mark = e) →
      (es.map (·.mark)).map BurstHeader.ofMark = es := fun es hes => by
    rw [List.map_map]
    exact (List.map_congr_left hes).trans (List.map_id es)
  have hprefix := h.map BurstHeader.ofMark
  rwa [hmap seen hseen, hmap written hwritten] at hprefix

theorem storeTcpTxHdr_fields (mBuf : Buf) (startTime packetTime : Timeval) (packetID : Int)
    (burstSize burstId : BitVec 32) :
    (storeTcpTxHdr mBuf startTime packetTime packetID burstSize burstId).be32 48 = burstSize ∧
      (storeTcpTxHdr mBuf startTime packetTime packetID burstSize burstId).be32 44 = burstId := by
  unfold storeTcpTxHdr
  refine ⟨?_, ?_⟩
  · rw [Buf.store32, Buf.be32_store_of_disjoint (.inr (by decide)), Buf.store32,
      Buf.be32_store_of_disjoint (.inr (by decide))]
    exact Buf.be32_store ..
  · rw [Buf.store32, Buf.be32_store_of_disjoint (.inr (by decide)), Buf.store32,
      Buf.be32_store_of_disjoint (.inr (by decide)), Buf.store32, Buf.be32_store_of_disjoint (.inl (by decide))]
    exact Buf.be32_store ..

/-- The fields of the first bytes of a buffer are those of the buffer. -/
theorem fields_window (mBuf : Buf) :
    (Buf.zero.store 0 (mBuf.window 0 sizeofTcpBurstPayload)).be32 48 = mBuf.be32 48 ∧
      (Buf.zero.store 0 (mBuf.window 0 sizeofTcpBurstPayload)).be32 44 = mBuf.be32 44 :=
  ⟨(Agree.window Buf.zero mBuf sizeofTcpBurstPayload).be32 (by decide),
    (Agree.window Buf.zero mBuf sizeofTcpBurstPayload).be32 (by decide)⟩

/-- Headers are read alike into any buffer. -/
theorem fields_store (burstInfo : Buf) {bytes : List Byte} (hlen : bytes.length = sizeofTcpBurstPayload) :
    (burstInfo.store 0 bytes).be32 48 = (Buf.zero.store 0 bytes).be32 48 ∧
      (burstInfo.store 0 bytes).be32 44 = (Buf.zero.store 0 bytes).be32 44 := by
  have hagree := Agree.store burstInfo Buf.zero bytes
  rw [hlen] at hagree
  exact ⟨hagree.be32 (by decide), hagree.be32 (by decide)⟩

/-! ## What a client step does to the stream -/

namespace TcpSender

/-- What is still to be sent of a header. -/
def unsent (s : TcpSender) : List Byte :=
  match s.writen with
  | none => []
  | some w => (s.mBuf.window 0 sizeofTcpBurstPayload).drop (w.inLen - w.nleft)

/-- What is still to be sent of the payload of a burst. -/
def left (s : TcpSender) : Nat :=
  match s.writen with
  | none => s.burstRemaining.toNat
  | some w => s.burstRemaining.toNat - max sizeofTcpBurstPayload (w.inLen - w.nleft)

section
variable {s : TcpSender}

theorem unsent_none (h : s.writen = none) : s.unsent = [] := by
  unfold unsent
  rw [h]

theorem unsent_some {w : Writen} (h : s.writen = some w) :
    s.unsent = (s.mBuf.window 0 sizeofTcpBurstPayload).drop (w.inLen - w.nleft) := by
  unfold unsent
  rw [h]

theorem left_none (h : s.writen = none) : s.left = s.burstRemaining.toNat := by
  unfold left
  rw [h]

theorem left_some {w : Writen} (h : s.writen = some w) :
    s.left = s.burstRemaining.toNat - max sizeofTcpBurstPayload (w.inLen - w.nleft) := by
  unfold left
  rw [h]

end

/-- A `writen` stays within its burst. -/
def Valid (s : TcpSender) : Prop :=
  ∀ w, s.writen = some w → sizeofTcpBurstPayload ≤ s.burstRemaining.toNat ∧ w.nleft ≤ w.inLen ∧
    w.inLen ≤ s.burstRemaining.toNat

/-- The step sends what is left of the header and then payload of the burst. -/
structure Sends (s : TcpSender) (data : List Byte) (s' : TcpSender) : Prop where
  valid : s'.Valid
  sent : s'.sent = s.sent + data.length
  headers : s'.headers = s.headers
  data : ∃ extra, data ++ s'.unsent = s.unsent ++ extra ∧ extra.length ≤ s.left ∧ s'.left = s.left - extra.length

/-- The step starts a burst with this header. -/
structure Starts (s : TcpSender) (e : BurstHeader) (s' : TcpSender) : Prop where
  valid : s'.Valid
  sent : s'.sent = s.sent
  headers : s'.headers = s.headers ++ [e]
  unsent : s.unsent = []
  left : s.left = 0
  offset : e.offset = s.sent
  length : e.bytes.length = sizeofTcpBurstPayload
  size : sizeofTcpBurstPayload ≤ burstSizeOf e.bytes
  fields : .ofMark e.mark = e
  unsent' : s'.unsent = e.bytes
  left' : s'.left = burstSizeOf e.bytes - sizeofTcpBurstPayload

theorem Sends.refl {s s' : TcpSender} (valid : s'.Valid) (sent : s'.sent = s.sent) (headers : s'.headers = s.headers)
    (unsent : s'.unsent = s.unsent) (left : s'.left = s.left) : Sends s [] s' where
  valid := valid
  sent := sent
  headers := headers
  data := ⟨[], by rw [unsent, List.nil_append, List.append_nil], Nat.zero_le _, left⟩

/-- Between writes. -/
theorem Sends.idle {s s' : TcpSender} (hwriten : s.writen = none) (hwriten' : s'.writen = none)
    (sent : s'.sent = s.sent) (headers : s'.headers = s.headers) (remaining : s'.burstRemaining = s.burstRemaining) :
    Sends s [] s' := by
  refine .refl ?_ sent headers ?_ ?_
  · intro w hw
    rw [hwriten'] at hw
    cases hw
  · rw [unsent_none hwriten', unsent_none hwriten]
  · rw [left_none hwriten', left_none hwriten, remaining]

theorem Sends.after {s s' s'' : TcpSender} {data : List Byte} (first : Sends s data s') (next : Sends s' [] s'') :
    Sends s data s'' := by
  obtain ⟨extra, hdata, hextra, hleft⟩ := first.data
  obtain ⟨extra', hdata', hextra', hleft'⟩ := next.data
  rw [List.nil_append] at hdata'
  exact {
    valid := next.valid
    sent := next.sent.trans first.sent
    headers := next.headers.trans first.headers
    data := by
      refine ⟨extra ++ extra', ?_, ?_, ?_⟩
      · rw [hdata', ← List.append_assoc, hdata, List.append_assoc]
      · rw [List.length_append]
        omega
      · rw [List.length_append, hleft', hleft]
        omega }

/-- The size of a burst, not below the minimum. -/
theorem burstSize_bounds (size : BitVec 32) :
    let r := if size.toInt < sizeofTcpBurstPayload then (sizeofTcpBurstPayload : Int) else size.toInt
    (sizeofTcpBurstPayload : Int) ≤ r ∧ (BitVec.ofInt 32 r).toInt = r := by
  intro r
  have hlt : size.toInt < 2147483648 := BitVec.toInt_lt
  have hr : (sizeofTcpBurstPayload : Int) ≤ r ∧ r < 2147483648 := by
    unfold r sizeofTcpBurstPayload
    split <;> omega
  refine ⟨hr.1, ?_⟩
  rw [BitVec.toInt_ofInt]
  unfold sizeofTcpBurstPayload at hr
  exact Int.bmod_eq_of_le (by omega) (by omega)

theorem startBurst_starts (settings : TcpSettings) {s : TcpSender} (hwriten : s.writen = none)
    (hremaining : ¬ s.burstRemaining > 0) (size : BitVec 32) (tick : Option (BitVec 32)) (now : Timeval) :
    ∃ e, Starts s e (s.startBurst settings size tick now) := by
  obtain ⟨hmin, hint⟩ := burstSize_bounds size
  generalize hr : (if size.toInt < sizeofTcpBurstPayload then (sizeofTcpBurstPayload : Int) else size.toInt) = r
    at hmin hint
  have hstart : s.startBurst settings size tick now = { s.writeTcpTxHdr settings now r (tick.getD s.burstId) with
      burstRemaining := r
      burstId := tick.getD s.burstId + 1
      writen := some ⟨min settings.mBufLen r.toNat, min settings.mBufLen r.toNat⟩ } := by
    unfold startBurst
    rw [hr]
  obtain ⟨hsize, hid⟩ := storeTcpTxHdr_fields s.mBuf settings.startTime now (s.packetID + r) (BitVec.ofInt 32 r)
    (tick.getD s.burstId)
  generalize hmBuf : storeTcpTxHdr s.mBuf settings.startTime now (s.packetID + r) (BitVec.ofInt 32 r)
    (tick.getD s.burstId) = mBuf at hsize hid
  obtain ⟨hsize', hid'⟩ := fields_window mBuf
  have hburst : burstSizeOf (mBuf.window 0 sizeofTcpBurstPayload) = r.toNat := by
    rw [burstSizeOf, hsize', hsize, hint]
  refine ⟨⟨s.sent, mBuf.window 0 sizeofTcpBurstPayload, BitVec.ofInt 32 r, tick.getD s.burstId⟩, ?_⟩
  rw [hstart]
  exact {
    valid := by
      intro w hw
      cases hw
      refine ⟨?_, le_rfl, Nat.min_le_right ..⟩
      show sizeofTcpBurstPayload ≤ r.toNat
      omega
    sent := rfl
    headers := by
      subst hmBuf
      rfl
    unsent := unsent_none hwriten
    left := by
      rw [left_none hwriten]
      omega
    offset := rfl
    length := Buf.window_length ..
    size := by
      rw [hburst]
      omega
    fields := by
      unfold BurstHeader.ofMark BurstHeader.mark
      rw [hsize', hid', hsize, hid]
    unsent' := by
      subst hmBuf
      rw [unsent_some rfl, Nat.sub_self]
      rfl
    left' := by
      rw [left_some rfl, hburst, Nat.sub_self, Nat.max_eq_left (Nat.zero_le _)] }

/-- The result of a `writen`, whether or not it ends the client. -/
theorem written_sends {s : TcpSender} {w : Writen} (hwriten : s.writen = some w) (valid : s.Valid) :
    Sends s [] (s.written (w.inLen - w.nleft)) := by
  obtain ⟨hsize, hnleft, hinLen⟩ := valid w hwriten
  unfold written
  split
  · exact .refl valid rfl rfl rfl rfl
  · rename_i hfull
    refine .refl ?_ rfl rfl ?_ ?_
    · intro w' hw'
      cases hw'
    · rw [unsent_none rfl, unsent_some hwriten]
      refine (List.drop_eq_nil_of_le ?_).symm
      rw [Buf.window_length]
      omega
    · rw [left_none rfl, left_some hwriten, Nat.max_eq_right (by omega)]
      dsimp only
      omega

/-- Bytes of the buffer: first what is left of the header, then payload. -/
theorem window_split (mBuf : Buf) (k n : Nat) :
    mBuf.window k n ++ (mBuf.window 0 sizeofTcpBurstPayload).drop (k + n) =
      (mBuf.window 0 sizeofTcpBurstPayload).drop k ++ (mBuf.window k n).drop (sizeofTcpBurstPayload - k) := by
  by_cases hall : k + n ≤ sizeofTcpBurstPayload
  · -- the write ends within the header
    obtain ⟨m, hm⟩ := Nat.exists_eq_add_of_le hall
    have hrest : (mBuf.window k n).drop (sizeofTcpBurstPayload - k) = [] :=
      List.drop_eq_nil_of_le (by rw [Buf.window_length]; omega)
    rw [hrest, List.append_nil, hm, Buf.window_drop, Nat.zero_add, Nat.add_assoc, Buf.window_drop, Nat.zero_add,
      Buf.window_append]
  · have hrest : (mBuf.window 0 sizeofTcpBurstPayload).drop (k + n) = [] :=
      List.drop_eq_nil_of_le (by rw [Buf.window_length]; omega)
    rw [hrest, List.append_nil]
    by_cases hk : k ≤ sizeofTcpBurstPayload
    · -- it goes beyond the end of the header
      obtain ⟨m, hm⟩ := Nat.exists_eq_add_of_le hk
      obtain ⟨l, hl⟩ : ∃ l, n = m + l := Nat.exists_eq_add_of_le (by omega)
      rw [hm, Nat.add_sub_cancel_left, Buf.window_drop, Nat.zero_add, hl, Buf.window_drop, Buf.window_append]
    · rw [List.drop_eq_nil_of_le (by rw [Buf.window_length]; omega), Nat.sub_eq_zero_of_le (by omega)]
      rfl

/-- A write of `writen` sends what is left of the header first. -/
theorem writen_sends {s : TcpSender} {w : Writen} (hwriten : s.writen = some w) (valid : s.Valid) {n : Nat}
    (hn : n ≤ w.nleft) :
    Sends s (s.mBuf.window (w.inLen - w.nleft) n) { s with
      writen := some { w with nleft := w.nleft - n }
      sent := s.sent + n } := by
  obtain ⟨hsize, hnleft, hinLen⟩ := valid w hwriten
  refine {
    valid := ?_
    sent := by rw [Buf.window_length]
    headers := rfl
    data := ?_ }
  · intro w' hw'
    cases hw'
    exact ⟨hsize, by dsimp only; omega, hinLen⟩
  · have hdone : w.inLen - (w.nleft - n) = w.inLen - w.nleft + n := by omega
    rw [unsent_some rfl, unsent_some hwriten, left_some hwriten, left_some rfl]
    dsimp only
    rw [hdone]
    generalize hk : w.inLen - w.nleft = k
    refine ⟨(s.mBuf.window k n).drop (sizeofTcpBurstPayload - k), window_split s.mBuf k n, ?_, ?_⟩
    · rw [List.length_drop, Buf.window_length]
      omega
    · rw [List.length_drop, Buf.window_length]
      omega

/-- A write in the middle of a burst. -/
theorem payload_sends {s : TcpSender} (hwriten : s.writen = none) {n : Nat} (hn : n ≤ s.burstRemaining.toNat) :
    Sends s (s.mBuf.window 0 n) { s with
      burstRemaining := s.burstRemaining - n
      sent := s.sent + n } := by
  refine {
    valid := ?_
    sent := by rw [Buf.window_length]
    headers := rfl
    data := ?_ }
  · intro w hw
    rw [hwriten] at hw
    cases hw
  · have hwriten' : { s with
      burstRemaining := s.burstRemaining - n
      sent := s.sent + n }.writen = none := hwriten
    refine ⟨s.mBuf.window 0 n, ?_, ?_, ?_⟩
    · rw [unsent_none hwriten', unsent_none hwriten, List.append_nil, List.nil_append]
    · rwa [Buf.window_length, left_none hwriten]
    · rw [Buf.window_length, left_none hwriten', left_none hwriten]
      dsimp only
      omega

/-- One event of the client either starts a burst or sends what comes next of it. -/
theorem step_spec {settings : TcpSettings} {s s' : TcpSender} {e : SendEvent} {data : List Byte} (valid : s.Valid)
    (h : s.step settings e = some (s', data)) : Sends s data s' ∨ data = [] ∧ ∃ e, Starts s e s' := by
  unfold step at h
  split at h
  · cases h
  · split at h
    · rename_i hwriten
      cases e with
      | fill mBuf =>
        cases h
        exact .inl (.idle hwriten hwriten rfl rfl rfl)
      | stop =>
        cases h
        exact .inl (.idle hwriten hwriten rfl rfl rfl)
      | burst size tick now =>
        dsimp only at h
        split at h
        · cases h
        · rename_i hremaining
          cases h
          exact .inr ⟨rfl, startBurst_starts settings hwriten hremaining size tick now⟩
      | took n =>
        dsimp only at h
        split at h
        · rename_i hcond
          left
          split at h
          · cases h
            exact .idle hwriten hwriten rfl rfl rfl
          · cases h
            exact payload_sends hwriten (by omega)
        · cases h
      | error errno =>
        dsimp only at h
        split at h
        · left
          cases h
          split
          · exact .idle hwriten hwriten rfl rfl rfl
          · exact .idle hwriten hwriten rfl rfl rfl
        · cases h
    · rename_i w hwriten
      cases e with
      | fill mBuf => cases h
      | stop => cases h
      | burst size tick now => cases h
      | took n =>
        dsimp only at h
        split at h
        · rename_i hn
          left
          cases h
          have hsends := writen_sends hwriten valid hn
          split
          · rename_i hdone
            refine hsends.after ?_
            have hwritten := written_sends rfl hsends.valid
            have hlen : w.inLen - (w.nleft - n) = w.inLen := by omega
            dsimp only at hwritten
            rwa [hlen] at hwritten
          · exact hsends
        · cases h
      | error errno =>
        left
        cases h
        split
        · exact .refl valid rfl rfl rfl rfl
        · exact written_sends hwriten valid

end TcpSender

/-! ## What a server step does to the stream -/

/-- The count after a header, without wrap. -/
theorem burstNleft_toInt {burstSize : BitVec 32} (hsize : sizeofTcpBurstPayload ≤ burstSize.toInt.toNat) :
    (burstSize - BitVec.ofNat 32 sizeofTcpBurstPayload).toInt = burstSize.toInt - sizeofTcpBurstPayload := by
  unfold sizeofTcpBurstPayload at *
  have hlt : burstSize.toInt < 2147483648 := BitVec.toInt_lt
  rw [BitVec.toInt_sub]
  exact Int.bmod_eq_of_le (by simp; omega) (by simp; omega)

/-- One event of the server takes bytes or none. -/
theorem TcpReceiver.step_spec {mBufLen : Nat} {s s' : TcpReceiver} {inFlight inFlight' : List Byte} {e : ReadEvent}
    (h : s.step mBufLen inFlight e = some (s', inFlight')) :
    (∃ ended, s' = { s with ended } ∧ inFlight' = inFlight) ∨
      ∃ bytes, inFlight = bytes ++ inFlight' ∧ bytes.length ≤ s.readLen mBufLen ∧ s' = s.receive bytes := by
  unfold step at h
  split at h
  · cases h
  · cases e with
    | stop =>
      dsimp only at h
      split at h
      · cases h
        exact .inl ⟨true, rfl, rfl⟩
      · cases h
    | took n =>
      dsimp only at h
      split at h
      · rename_i hn
        cases h
        refine .inr ⟨inFlight.take n, (List.take_append_drop n inFlight).symm, ?_, rfl⟩
        rw [List.length_take]
        omega
      · cases h
    | eof =>
      cases h
      exact .inl ⟨true, rfl, rfl⟩
    | error errno =>
      left
      cases h
      split
      · exact ⟨true, rfl, rfl⟩
      · exact ⟨s.ended, rfl, rfl⟩

/-! ## Both sides -/

/-- Client and server are at the same places of the same frames. -/
structure Synced (s : BurstStream) : Prop where
  valid : s.client.Valid
  written : ∀ e ∈ s.client.headers, .ofMark e.mark = e
  seen : ∀ e ∈ s.server.headers, .ofMark e.mark = e
  sent : s.client.sent = s.server.received + s.inFlight.length
  got : s.server.got.length < sizeofTcpBurstPayload ∧ s.server.got.length ≤ s.server.received
  reading : s.server.got = [] ∨ s.server.burstNleft = 0
  nonneg : 0 ≤ s.server.burstNleft
  aligned : Aligned sizeofTcpBurstPayload burstSizeOf (s.client.headers.map (·.mark)) (s.server.headers.map (·.mark))
    (s.server.received - s.server.got.length) s.server.burstNleft.toNat
    (s.server.got ++ (s.inFlight ++ s.client.unsent)) s.client.left

theorem synced_init (mBuf burstInfo : Buf) (packetID : Int) : Synced (.init mBuf burstInfo packetID) where
  valid := fun w hw => by cases hw
  written := fun e he => by cases he
  seen := fun e he => by cases he
  sent := rfl
  got := ⟨show 0 < sizeofTcpBurstPayload by decide, le_rfl⟩
  reading := .inl rfl
  nonneg := le_rfl
  aligned := .start

section
variable {s : BurstStream} (synced : Synced s)
include synced

/-- The client sends bytes of its frame. -/
theorem Synced.sends {client : TcpSender} {data : List Byte} (sends : s.client.Sends data client) :
    Synced { s with
      client
      inFlight := s.inFlight ++ data } := by
  obtain ⟨extra, hdata, hextra, hleft⟩ := sends.data
  exact {
    valid := sends.valid
    written := by
      rw [sends.headers]
      exact synced.written
    seen := synced.seen
    sent := by
      rw [sends.sent, synced.sent, List.length_append]
      dsimp only
      omega
    got := synced.got
    reading := synced.reading
    nonneg := synced.nonneg
    aligned := by
      have haligned := synced.aligned.put hextra
      rw [List.append_assoc, List.append_assoc, ← hdata] at haligned
      rw [sends.headers, hleft]
      dsimp only
      rw [List.append_assoc]
      exact haligned }

/-- The client starts a frame. -/
theorem Synced.starts {client : TcpSender} {e : BurstHeader} (starts : s.client.Starts e client) :
    Synced { s with
      client
      inFlight := s.inFlight ++ [] } where
  valid := starts.valid
  written := by
    rw [starts.headers]
    intro e' he'
    rcases List.mem_append.mp he' with he' | he'
    · exact synced.written e' he'
    · rw [List.mem_singleton.mp he']
      exact starts.fields
  seen := synced.seen
  sent := by
    rw [starts.sent, synced.sent, List.append_nil]
  got := synced.got
  reading := synced.reading
  nonneg := synced.nonneg
  aligned := by
    have haligned := synced.aligned
    rw [starts.unsent, starts.left] at haligned
    have hframe := haligned.frame starts.length starts.size
    -- the header starts behind all bytes that were sent
    have hoffset : s.server.received - s.server.got.length + (s.server.got ++ (s.inFlight ++ [])).length = e.offset := by
      have hgot := synced.got.2
      rw [starts.offset, synced.sent, List.length_append, List.append_nil]
      omega
    rw [hoffset, List.append_assoc, List.append_assoc, List.nil_append] at hframe
    rw [starts.headers, List.map_append, starts.left', starts.unsent', List.append_nil]
    exact hframe

/-- The server takes the last bytes of a header. -/
theorem Synced.header {bytes inFlight : List Byte} (hbytes : s.inFlight = bytes ++ inFlight)
    (hnleft : s.server.burstNleft = 0) (hlen : (s.server.got ++ bytes).length = sizeofTcpBurstPayload) :
    Synced { s with
      server := { s.server with received := s.server.received + bytes.length }.readHeader (s.server.got ++ bytes)
      inFlight } := by
  obtain ⟨hsize, hid⟩ := fields_store s.server.burstInfo hlen
  have hlen' : s.server.got.length + bytes.length = sizeofTcpBurstPayload := by rw [← hlen, List.length_append]
  have hgot := synced.got.2
  have haligned := synced.aligned
  rw [hnleft, hbytes, List.append_assoc, ← List.append_assoc s.server.got] at haligned
  obtain ⟨hmin, haligned⟩ := haligned.header (by decide) hlen
  have hcount := burstNleft_toInt hmin
  have hoffset : s.server.received + bytes.length - sizeofTcpBurstPayload = s.server.received - s.server.got.length := by
    omega
  have hpos : s.server.received - s.server.got.length + sizeofTcpBurstPayload = s.server.received + bytes.length := by
    omega
  exact {
    valid := synced.valid
    written := synced.written
    seen := by
      intro e he
      rcases List.mem_append.mp he with he | he
      · exact synced.seen e he
      · rw [List.mem_singleton.mp he]
        unfold BurstHeader.ofMark BurstHeader.mark
        dsimp only
        rw [hsize, hid]
    sent := by
      have hsent := synced.sent
      rw [hbytes, List.length_append] at hsent
      rw [hsent]
      show _ = s.server.received + bytes.length + inFlight.length
      omega
    got := ⟨show 0 < sizeofTcpBurstPayload by decide, Nat.zero_le _⟩
    reading := .inl rfl
    nonneg := by
      show 0 ≤ ((s.server.burstInfo.store 0 (s.server.got ++ bytes)).be32 48 - _).toInt
      rw [hsize, hcount]
      unfold burstSizeOf sizeofTcpBurstPayload at *
      omega
    aligned := by
      show Aligned _ _ _ (List.map _ (s.server.headers ++ [_])) _ (BitVec.toInt _).toNat _ _
      rw [hsize, hcount, List.map_append]
      have hleft : (((Buf.zero.store 0 (s.server.got ++ bytes)).be32 48).toInt - (sizeofTcpBurstPayload : Int)).toNat =
          burstSizeOf (s.server.got ++ bytes) - sizeofTcpBurstPayload := by
        unfold burstSizeOf
        omega
      rw [hleft]
      rw [hpos, ← hoffset] at haligned
      exact haligned }

/-- The server takes more bytes of a header. -/
theorem Synced.more {bytes inFlight : List Byte} (hbytes : s.inFlight = bytes ++ inFlight)
    (hnleft : s.server.burstNleft = 0) (hlen : (s.server.got ++ bytes).length < sizeofTcpBurstPayload) :
    Synced { s with
      server := { s.server with
        received := s.server.received + bytes.length
        got := s.server.got ++ bytes }
      inFlight } where
  valid := synced.valid
  written := synced.written
  seen := synced.seen
  sent := by
    have hsent := synced.sent
    rw [hbytes, List.length_append] at hsent
    rw [hsent]
    dsimp only
    omega
  got := by
    have hgot := synced.got.2
    refine ⟨hlen, ?_⟩
    rw [List.length_append]
    dsimp only
    omega
  reading := .inr hnleft
  nonneg := synced.nonneg
  aligned := by
    have haligned := synced.aligned
    rw [hbytes, List.append_assoc, ← List.append_assoc s.server.got] at haligned
    have hpos : s.server.received + bytes.length - (s.server.got ++ bytes).length =
        s.server.received - s.server.got.length := by
      rw [List.length_append]
      omega
    dsimp only
    rw [hpos]
    exact haligned

/-- The server takes payload. -/
theorem Synced.payload {bytes inFlight : List Byte} (hbytes : s.inFlight = bytes ++ inFlight)
    (hnleft : s.server.burstNleft ≠ 0) (hlen : bytes.length ≤ s.server.burstNleft.toNat) :
    Synced { s with
      server := { s.server with
        received := s.server.received + bytes.length
        burstNleft := s.server.burstNleft - bytes.length }
      inFlight } := by
  have hgot : s.server.got = [] := synced.reading.resolve_right hnleft
  have hnonneg := synced.nonneg
  exact {
    valid := synced.valid
    written := synced.written
    seen := synced.seen
    sent := by
      have hsent := synced.sent
      rw [hbytes, List.length_append] at hsent
      rw [hsent]
      dsimp only
      omega
    got := by
      dsimp only
      rw [hgot]
      exact ⟨by decide, Nat.zero_le _⟩
    reading := .inl hgot
    nonneg := by
      dsimp only
      omega
    aligned := by
      have haligned := synced.aligned
      rw [hgot, List.nil_append, hbytes, List.append_assoc] at haligned
      have htake := haligned.take hlen
      have hleft : (s.server.burstNleft - bytes.length).toNat = s.server.burstNleft.toNat - bytes.length := by omega
      dsimp only
      rw [hgot, hleft]
      exact htake }

/-- The server takes bytes. -/
theorem Synced.receive {bytes inFlight : List Byte} {mBufLen : Nat} (hbytes : s.inFlight = bytes ++ inFlight)
    (hlen : bytes.length ≤ s.server.readLen mBufLen) :
    Synced { s with
      server := s.server.receive bytes
      inFlight } := by
  have hgot := synced.got.1
  unfold TcpReceiver.receive
  unfold TcpReceiver.readLen at hlen
  by_cases hnleft : s.server.burstNleft = 0
  · rw [if_pos hnleft] at hlen
    dsimp only
    rw [if_pos hnleft]
    split
    · rename_i hfull
      exact synced.header hbytes hnleft hfull
    · rename_i hpart
      refine synced.more hbytes hnleft ?_
      rw [List.length_append] at hpart ⊢
      omega
  · have hpos : s.server.burstNleft > 0 := by
      have := synced.nonneg
      omega
    rw [if_neg hnleft, if_pos hpos] at hlen
    dsimp only
    rw [if_neg hnleft]
    exact synced.payload hbytes hnleft (hlen.trans (Nat.min_le_right ..))

/-- The server ends. -/
theorem Synced.ends (ended : Bool) : Synced { s with server := { s.server with ended } } where
  valid := synced.valid
  written := synced.written
  seen := synced.seen
  sent := synced.sent
  got := synced.got
  reading := synced.reading
  nonneg := synced.nonneg
  aligned := synced.aligned

end

theorem Synced.step {settings : TcpSettings} {mBufLen : Nat} {s s' : BurstStream} {a : BurstEvent} (synced : Synced s)
    (h : s.step settings mBufLen a = some s') : Synced s' := by
  cases a with
  | client e =>
    obtain ⟨⟨client, data⟩, hstep, rfl⟩ := Option.map_eq_some_iff.mp h
    rcases TcpSender.step_spec synced.valid hstep with sends | ⟨rfl, e, starts⟩
    · exact synced.sends sends
    · exact synced.starts starts
  | server e =>
    obtain ⟨⟨server, inFlight⟩, hstep, rfl⟩ := Option.map_eq_some_iff.mp h
    rcases TcpReceiver.step_spec hstep with ⟨ended, rfl, rfl⟩ | ⟨bytes, hbytes, hlen, rfl⟩
    · exact synced.ends ended
    · exact synced.receive hbytes hlen

/-- **Burst framing.** For every sequence of burst sizes, every pattern of short, failed and interrupted writes and
reads, and every order of the steps of both sides: the headers that the server has read, with their offsets in the
stream, their bytes, sizes and ids, are a prefix of those that the client wrote. -/
theorem tcp_burst_framing (settings : TcpSettings) (mBufLen : Nat) (mBuf burstInfo : Buf) (packetID : Int)
    {s : BurstStream} (reachable : Reachable (BurstStream.step settings mBufLen) Any (.init mBuf burstInfo packetID) s) :
    s.server.headers <+: s.client.headers := by
  have synced := reachable.invariant (synced_init mBuf burstInfo packetID) fun s a s' synced _ h => synced.step h
  exact headers_prefix synced.seen synced.written synced.aligned.prefix

/-! Two bursts, with short writes and reads; the second header is not yet complete when the first burst is read. -/

def burstSettings : TcpSettings where
  mBufLen := 96
  startTime := ⟨1, 0⟩

def twoBursts : List BurstEvent :=
  [.client (.burst 100 none ⟨1, 0⟩), .client (.took 95), .client (.error .eintr), .server (.took 40),
    .client (.took 1), .server (.took 52), .client (.took 4), .client (.burst 50 none ⟨2, 0⟩), .client (.took 90),
    .server (.error .eagain), .server (.took 8), .client (.took 2), .server (.took 92)]

theorem tcp_burst_framing_two :
    ∃ s, run (BurstStream.step burstSettings 1000) Any (.init Buf.zero Buf.zero 0) twoBursts = some s ∧
      s.server.headers.map (·.burstSize) = [100, 92] ∧ s.server.headers <+: s.client.headers := by
  have hsizes : (run (BurstStream.step burstSettings 1000) Any (.init Buf.zero Buf.zero 0) twoBursts).map
      (fun s => s.server.headers.map (·.burstSize)) = some [100, 92] := by decide +kernel
  obtain ⟨s, hs, hsizes⟩ := Option.map_eq_some_iff.mp hsizes
  exact ⟨s, hs, hsizes, tcp_burst_framing burstSettings 1000 Buf.zero Buf.zero 0 (.of_run _ _ .start hs)⟩

end Iperf2.Traffic
