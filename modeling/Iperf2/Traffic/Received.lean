import Iperf2.Report.Handlers
import Iperf2.Traffic.Burst

/-!
# Bytes of a TCP server

A round of `Server::RunTCP` reads a header, if it is at the start of a burst, and then data. The bytes of both are added
to `totLen` and go to the reporter as one `packetLen`. The result of a `recv` that fails is -1, and with an error that is
not fatal it is added, too. A `recvn` that ends within a header leaves what it got to nobody.

* `ByteServer.step` : one system call; `received`, `nonFatal` and `behindHeader` record what happened, no function of
  the source has them;
* `ByteServer.Reports` : what the reporter adds to the total bytes;
* `ByteServer.Tallied` : the bytes of the round under way; `Tallied.next`;
* `tcp_server_bytes` : which bytes each of the two counts misses.
-/

namespace Iperf2.Traffic
open Report Transition

/-- What the loop reads of the settings. With `isReverse` and without `isModeTime` it stops at an amount. -/
structure ReadSettings where
  mBufLen : Int
  isburst : Bool
  amountLimit : Option Nat

/-- The state of `Server::RunTCP`: `headerLen` is what the `recvn` of the round returned, `packetLens` what went to the
reporter. -/
structure ByteServer where
  receiver : TcpReceiver
  headerLen : Nat
  totLen : Int
  packetLens : List Int
  ended : Bool
  nonFatal : Nat
  behindHeader : Nat

/-- What happens to the server: `InProgress` is false, a system call gives bytes, the end of the stream or an error. -/
inductive RecvEvent
  | stop
  | took (bytes : List Byte)
  | eof
  | error (errno : TcpErrno)

namespace ByteServer

/-- The start of the loop: `InitTrafficLoop` has reported the first payload. -/
def init (burstInfo : Buf) (firstreadbytes : Nat) : ByteServer where
  receiver := (BurstStream.init burstInfo burstInfo 0).server
  headerLen := 0
  totLen := 0
  packetLens := if 0 < firstreadbytes then [(firstreadbytes : Int)] else []
  ended := false
  nonFatal := 0
  behindHeader := 0

/-- The next system call is a `recv` of the `recvn` of a header. -/
def readsHeader (settings : ReadSettings) (s : ByteServer) : Bool :=
  settings.isburst && s.receiver.burstNleft == 0

/-- How many bytes the `recv` of data asks for. -/
def readLen (settings : ReadSettings) (s : ByteServer) : Int :=
  if s.headerLen ≠ 0 ∨ s.receiver.burstNleft > 0 then min settings.mBufLen s.receiver.burstNleft else settings.mBufLen

/-- The end of a round whose `recv` counts `n`. -/
def report (settings : ReadSettings) (s : ByteServer) (n : Int) : ByteServer :=
  let currLen := s.headerLen + n
  let totLen := s.totLen + currLen
  { s with
    headerLen := 0
    totLen
    packetLens := s.packetLens ++ [currLen]
    -- the server stops after receiving the expected byte count
    ended := s.ended || (match settings.amountLimit with
      | some mAmount => decide (totLen ≥ mAmount)
      | none => false) }

/-- Bytes of a header. Behind a whole one the round goes on with data, if the burst has any. -/
def tookHeader (settings : ReadSettings) (s : ByteServer) (bytes : List Byte) : ByteServer :=
  let receiver := s.receiver.receive bytes
  if receiver.got = [] then
    let s := { s with
      receiver
      headerLen := sizeofTcpBurstPayload }
    if receiver.burstNleft = 0 then s.report settings 0 else s
  else { s with receiver }

/-- Bytes of data. -/
def tookData (settings : ReadSettings) (s : ByteServer) (bytes : List Byte) : ByteServer :=
  let receiver := if settings.isburst then s.receiver.receive bytes
    else { s.receiver with received := s.receiver.received + bytes.length }
  { s with receiver }.report settings bytes.length

/-- A `recv` of data that fails with an error that is not fatal. -/
def failed (settings : ReadSettings) (s : ByteServer) : ByteServer :=
  { s with
    nonFatal := s.nonFatal + 1
    behindHeader := if s.headerLen = 0 then s.behindHeader else s.behindHeader + 1 }.report settings (-1)

/-- One event of the server. A length is a `size_t` for `recv`. -/
def step (settings : ReadSettings) (s : ByteServer) (e : RecvEvent) : Option ByteServer :=
  if s.ended ∨ s.receiver.ended then none
  else match e with
  | .stop => if s.headerLen = 0 ∧ s.receiver.got = [] then some { s with ended := true } else none
  | .took bytes =>
    if s.readsHeader settings then
      if 0 < bytes.length ∧ bytes.length ≤ sizeofTcpBurstPayload - s.receiver.got.length then
        some (s.tookHeader settings bytes)
      else none
    else if 0 < bytes.length ∧ bytes.length ≤ (BitVec.ofInt 64 (s.readLen settings)).toNat then
      some (s.tookData settings bytes)
    else none
  | .eof =>
    some (if s.readsHeader settings then { s with ended := true } else { s with ended := true }.report settings 0)
  | .error errno =>
    some (if s.readsHeader settings then if errno.fatal then { s with ended := true } else s
      else if errno.fatal then { s with ended := true }.report settings 0 else s.failed settings)

/-- No `recv` of data fails with an error that is not fatal, and no `recvn` ends within a header. -/
def Clean (settings : ReadSettings) (s : ByteServer) : RecvEvent → Prop
  | .eof => s.readsHeader settings → s.receiver.got = []
  | .error errno => if s.readsHeader settings then errno.fatal → s.receiver.got = [] else errno.fatal
  | _ => True

instance decidableClean (settings : ReadSettings) (s : ByteServer) : (e : RecvEvent) → Decidable (s.Clean settings e)
  | .stop => .isTrue trivial
  | .took _ => .isTrue trivial
  | .eof => inferInstanceAs (Decidable (s.readsHeader settings → s.receiver.got = []))
  | .error errno => inferInstanceAs
    (Decidable (if s.readsHeader settings then errno.fatal → s.receiver.got = [] else errno.fatal))

/-- Between two rounds, or at the end. -/
def Between (s : ByteServer) : Prop := s.headerLen = 0 ∧ (s.ended = false → s.receiver.got = [])

/-- The reporter adds this to the total bytes, whatever else is in the records. -/
def Reports (s : ByteServer) (bytes : Int) : Prop :=
  ∀ (stats : TransferInfo) (packets : List ReportStruct), packets.map (·.packetLen) = s.packetLens →
    (packets.foldl reporterHandlePacketServerTcp stats).total.Bytes.current = stats.total.Bytes.current + bytes

/-! ## What a system call does to the counts -/

section
variable (settings : ReadSettings) (s : ByteServer) (n : Int)

/-- The positive packet lengths. -/
def positive (packetLens : List Int) : Int := (packetLens.map (max · 0)).sum

@[simp] theorem report_receiver : (s.report settings n).receiver = s.receiver := rfl
@[simp] theorem report_headerLen : (s.report settings n).headerLen = 0 := rfl
@[simp] theorem report_totLen : (s.report settings n).totLen = s.totLen + (s.headerLen + n) := rfl
@[simp] theorem report_nonFatal : (s.report settings n).nonFatal = s.nonFatal := rfl
@[simp] theorem report_behindHeader : (s.report settings n).behindHeader = s.behindHeader := rfl

@[simp] theorem report_positive :
    positive (s.report settings n).packetLens = positive s.packetLens + max (s.headerLen + n) 0 := by
  show positive (s.packetLens ++ [(s.headerLen + n : Int)]) = _
  unfold positive
  rw [List.map_append, List.sum_append, List.map_singleton, List.sum_singleton]

end

/-- A header, or the next bytes of one. -/
theorem receive_header {r : TcpReceiver} (bytes : List Byte) (hnleft : r.burstNleft = 0) :
    (r.receive bytes).received = r.received + bytes.length ∧
      ((r.receive bytes).got = [] ∧ r.got.length + bytes.length = sizeofTcpBurstPayload ∨
        (r.receive bytes).got = r.got ++ bytes ∧ (r.receive bytes).burstNleft = 0 ∧
          r.got.length + bytes.length ≠ sizeofTcpBurstPayload) := by
  unfold TcpReceiver.receive
  dsimp only
  rw [if_pos hnleft]
  split
  · rename_i hall
    rw [List.length_append] at hall
    exact ⟨rfl, .inl ⟨rfl, hall⟩⟩
  · rename_i hpart
    rw [List.length_append] at hpart
    exact ⟨rfl, .inr ⟨rfl, hnleft, hpart⟩⟩

theorem receive_data {r : TcpReceiver} (bytes : List Byte) (hnleft : r.burstNleft ≠ 0) :
    (r.receive bytes).received = r.received + bytes.length ∧ (r.receive bytes).got = r.got := by
  unfold TcpReceiver.receive
  dsimp only
  rw [if_neg hnleft]
  exact ⟨rfl, rfl⟩

/-- Every byte is in a count, in the round under way, in a header that is not whole, or made good by an error that counted
as one byte less. -/
structure Tallied (settings : ReadSettings) (firstreadbytes : Nat) (s : ByteServer) : Prop where
  totLen : s.totLen + s.headerLen + s.receiver.got.length + s.nonFatal = s.receiver.received
  bytes : positive s.packetLens + s.headerLen + s.receiver.got.length + s.behindHeader =
    firstreadbytes + s.receiver.received
  got : s.receiver.got.length < sizeofTcpBurstPayload
  round : s.readsHeader settings = true → s.headerLen = 0
  data : s.readsHeader settings = false → s.receiver.got = []
  le : s.behindHeader ≤ s.nonFatal

section
variable {settings : ReadSettings} {firstreadbytes : Nat} {s s' : ByteServer} {e : RecvEvent}

theorem Tallied.start (burstInfo : Buf) (firstreadbytes : Nat) :
    Tallied settings firstreadbytes (init burstInfo firstreadbytes) where
  totLen := rfl
  bytes := by
    show positive (if 0 < firstreadbytes then [(firstreadbytes : Int)] else []) + 0 + 0 + 0 = firstreadbytes + 0
    unfold positive
    split
    · simp
    · simp only [List.map_nil, List.sum_nil]
      omega
  got := by
    show 0 < sizeofTcpBurstPayload
    decide
  round := fun _ => rfl
  data := fun _ => rfl
  le := le_rfl

/-- A round ends: its bytes are counted now. -/
theorem Tallied.report {n : Int} (hgot : s.receiver.got = []) (hnonneg : 0 ≤ n)
    (totLen : s.totLen + s.headerLen + n + s.nonFatal = s.receiver.received)
    (bytes : positive s.packetLens + s.headerLen + n + s.behindHeader = firstreadbytes + s.receiver.received)
    (le : s.behindHeader ≤ s.nonFatal) : Tallied settings firstreadbytes (s.report settings n) where
  totLen := by
    simp only [report_totLen, report_headerLen, report_receiver, report_nonFatal, hgot, List.length_nil]
    omega
  bytes := by
    simp only [report_positive, report_headerLen, report_receiver, report_behindHeader, hgot, List.length_nil]
    omega
  got := by
    rw [report_receiver, hgot]
    decide
  round := fun _ => rfl
  data := fun _ => hgot
  le := le

theorem Tallied.tookHeader (h : Tallied settings firstreadbytes s) (hreads : s.readsHeader settings = true)
    {bytes : List Byte} (hpos : 0 < bytes.length) (hlen : bytes.length ≤ sizeofTcpBurstPayload - s.receiver.got.length) :
    Tallied settings firstreadbytes (s.tookHeader settings bytes) := by
  have hround := h.round hreads
  have htotLen := h.totLen
  have hbytes := h.bytes
  have hnleft : s.receiver.burstNleft = 0 := by
    unfold readsHeader at hreads
    simpa using (Bool.and_eq_true_iff.mp hreads).2
  obtain ⟨hreceived, hgot⟩ := receive_header bytes hnleft
  unfold ByteServer.tookHeader
  rcases hgot with ⟨hgot, hall⟩ | ⟨hgot, hstill, hpart⟩
  · -- the header is whole
    rw [if_pos hgot]
    split
    · apply Tallied.report hgot le_rfl
      · dsimp only
        omega
      · dsimp only
        omega
      · exact h.le
    · rename_i hmore
      refine ⟨?_, ?_, ?_, fun hreads' => ?_, fun _ => hgot, h.le⟩
      · dsimp only
        rw [hgot, List.length_nil]
        omega
      · dsimp only
        rw [hgot, List.length_nil]
        omega
      · rw [hgot]
        decide
      · unfold readsHeader at hreads'
        exact absurd (by simpa using (Bool.and_eq_true_iff.mp hreads').2) hmore
  · have hne : (s.receiver.receive bytes).got ≠ [] := by
      rw [hgot]
      exact List.append_ne_nil_of_right_ne_nil _ (List.ne_nil_of_length_pos hpos)
    have hlength : (s.receiver.receive bytes).got.length = s.receiver.got.length + bytes.length := by
      rw [hgot, List.length_append]
    rw [if_neg hne]
    refine ⟨?_, ?_, ?_, fun _ => hround, fun hdata => ?_, h.le⟩
    · dsimp only
      omega
    · dsimp only
      omega
    · dsimp only
      omega
    · have hburst := (Bool.and_eq_true_iff.mp hreads).1
      unfold readsHeader at hdata
      rw [hburst, hstill] at hdata
      cases hdata

theorem tookData_receiver (bytes : List Byte) (hdata : s.readsHeader settings = false) :
    (s.tookData settings bytes).receiver.received = s.receiver.received + bytes.length ∧
      (s.tookData settings bytes).receiver.got = s.receiver.got := by
  unfold ByteServer.tookData
  unfold readsHeader at hdata
  rw [report_receiver]
  dsimp only
  split
  · rename_i hburst
    rw [hburst, Bool.true_and] at hdata
    exact receive_data bytes (by simpa using hdata)
  · exact ⟨rfl, rfl⟩

theorem Tallied.tookData (h : Tallied settings firstreadbytes s) (hdata : s.readsHeader settings = false)
    (bytes : List Byte) : Tallied settings firstreadbytes (s.tookData settings bytes) := by
  have htotLen := h.totLen
  have hbytes := h.bytes
  have hgot := h.data hdata
  obtain ⟨hreceived, hsame⟩ := tookData_receiver bytes hdata
  unfold ByteServer.tookData at hreceived hsame ⊢
  rw [report_receiver] at hreceived hsame
  rw [hgot, List.length_nil] at htotLen hbytes
  apply Tallied.report
  · rw [hsame]
    exact hgot
  · exact Int.natCast_nonneg _
  · rw [hreceived]
    push_cast
    omega
  · rw [hreceived]
    push_cast
    omega
  · exact h.le

/-- The error counts as -1, but the reporter leaves a negative length out. -/
theorem Tallied.failed (h : Tallied settings firstreadbytes s) (hdata : s.readsHeader settings = false) :
    Tallied settings firstreadbytes (s.failed settings) := by
  have htotLen := h.totLen
  have hbytes := h.bytes
  have hgot := h.data hdata
  have hle := h.le
  rw [hgot, List.length_nil] at htotLen hbytes
  unfold ByteServer.failed
  refine ⟨?_, ?_, ?_, fun _ => rfl, fun _ => hgot, ?_⟩
  · simp only [report_totLen, report_headerLen, report_receiver, report_nonFatal, hgot, List.length_nil]
    push_cast
    omega
  · simp only [report_positive, report_headerLen, report_receiver, report_behindHeader, hgot, List.length_nil]
    split
    · omega
    · push_cast
      omega
  · rw [report_receiver, hgot]
    decide
  · simp only [report_behindHeader, report_nonFatal]
    split <;> omega

/-- **One system call keeps the tally.** -/
theorem Tallied.next (h : Tallied settings firstreadbytes s) (hstep : s.step settings e = some s') :
    Tallied settings firstreadbytes s' := by
  have hends : Tallied settings firstreadbytes { s with ended := true } := ⟨h.totLen, h.bytes, h.got, h.round, h.data, h.le⟩
  have hclosed : s.readsHeader settings = false →
      Tallied settings firstreadbytes ({ s with ended := true }.report settings 0) := fun hdata => by
    have htotLen := h.totLen
    have hbytes := h.bytes
    have hgot := h.data hdata
    rw [hgot, List.length_nil] at htotLen hbytes
    exact .report (s := { s with ended := true }) hgot le_rfl htotLen hbytes h.le
  unfold step at hstep
  split at hstep
  · cases hstep
  · cases e with
    | stop =>
      obtain ⟨-, hstop⟩ := Option.ite_none_right_eq_some.mp hstep
      cases hstop
      exact hends
    | took bytes =>
      dsimp only at hstep
      split at hstep
      · rename_i hreads
        obtain ⟨⟨hpos, hlen⟩, htook⟩ := Option.ite_none_right_eq_some.mp hstep
        cases htook
        exact h.tookHeader hreads hpos hlen
      · rename_i hdata
        obtain ⟨-, htook⟩ := Option.ite_none_right_eq_some.mp hstep
        cases htook
        exact h.tookData (Bool.not_eq_true _ ▸ hdata) bytes
    | eof =>
      cases hstep
      split
      · exact hends
      · rename_i hdata
        exact hclosed (Bool.not_eq_true _ ▸ hdata)
    | error errno =>
      cases hstep
      split
      · split
        · exact hends
        · exact h
      · rename_i hdata
        split
        · exact hclosed (Bool.not_eq_true _ ▸ hdata)
        · exact h.failed (Bool.not_eq_true _ ▸ hdata)

/-- Without such errors the counts miss nothing, but for the part of a header. -/
structure Unharmed (settings : ReadSettings) (s : ByteServer) : Prop where
  nonFatal : s.nonFatal = 0
  header : s.ended = true → s.receiver.got = []

/-- A clean system call does no harm. -/
theorem Unharmed.next (h : Unharmed settings s) (htally : Tallied settings firstreadbytes s) (hclean : s.Clean settings e)
    (hstep : s.step settings e = some s') : Unharmed settings s' := by
  unfold step at hstep
  split at hstep
  · cases hstep
  · rename_i hruns
    rw [not_or, Bool.not_eq_true] at hruns
    cases e with
    | stop =>
      obtain ⟨⟨-, hgot⟩, hstop⟩ := Option.ite_none_right_eq_some.mp hstep
      cases hstop
      exact ⟨h.nonFatal, fun _ => hgot⟩
    | took bytes =>
      dsimp only at hstep
      split at hstep
      · obtain ⟨-, htook⟩ := Option.ite_none_right_eq_some.mp hstep
        cases htook
        unfold ByteServer.tookHeader
        dsimp only
        split
        · rename_i hgot
          split
          · exact ⟨h.nonFatal, fun _ => hgot⟩
          · exact ⟨h.nonFatal, fun _ => hgot⟩
        · refine ⟨h.nonFatal, fun hended => ?_⟩
          rw [hruns.1] at hended
          cases hended
      · rename_i hdata
        rw [Bool.not_eq_true] at hdata
        obtain ⟨-, htook⟩ := Option.ite_none_right_eq_some.mp hstep
        cases htook
        refine ⟨h.nonFatal, fun _ => ?_⟩
        rw [(tookData_receiver bytes hdata).2]
        exact htally.data hdata
    | eof =>
      cases hstep
      split
      · rename_i hreads
        exact ⟨h.nonFatal, fun _ => hclean hreads⟩
      · rename_i hdata
        exact ⟨h.nonFatal, fun _ => htally.data (Bool.not_eq_true _ ▸ hdata)⟩
    | error errno =>
      cases hstep
      simp only [Clean] at hclean
      split
      · rename_i hreads
        rw [if_pos hreads] at hclean
        split
        · rename_i hfatal
          exact ⟨h.nonFatal, fun _ => hclean hfatal⟩
        · exact h
      · rename_i hdata
        rw [if_neg hdata] at hclean
        rw [if_pos hclean]
        exact ⟨h.nonFatal, fun _ => htally.data (Bool.not_eq_true _ ▸ hdata)⟩

end

/-! ## What the reporter adds -/

theorem serverTcp_bytes (stats : TransferInfo) (packet : ReportStruct) :
    (reporterHandlePacketServerTcp stats packet).total.Bytes.current =
      stats.total.Bytes.current + max packet.packetLen 0 := by
  unfold reporterHandlePacketServerTcp
  split
  · rename_i hpos
    rw [max_eq_left (le_of_lt hpos)]
    dsimp only
    split
    · rw [(burstTcpServer_keeps _ packet).2.1]
      rfl
    · rfl
  · rename_i hneg
    rw [max_eq_right (not_lt.mp hneg), add_zero]

theorem foldl_serverTcp_bytes (packets : List ReportStruct) (stats : TransferInfo) :
    (packets.foldl reporterHandlePacketServerTcp stats).total.Bytes.current =
      stats.total.Bytes.current + positive (packets.map (·.packetLen)) := by
  induction packets generalizing stats with
  | nil => exact (add_zero _).symm
  | cons packet packets ih =>
    rw [List.foldl_cons, ih, serverTcp_bytes, List.map_cons, add_assoc]
    rfl

/-- The reporter adds the positive packet lengths. -/
theorem reports_iff (s : ByteServer) (bytes : Int) : s.Reports bytes ↔ bytes = positive s.packetLens := by
  refine ⟨fun h => ?_, fun h stats packets hpackets => ?_⟩
  · let packets : List ReportStruct := s.packetLens.map fun packetLen => { (default : ReportStruct) with packetLen }
    have hpackets : packets.map (·.packetLen) = s.packetLens := by
      rw [List.map_map]
      exact List.map_id _
    have hadded := h default packets hpackets
    rw [foldl_serverTcp_bytes, hpackets] at hadded
    omega
  · rw [foldl_serverTcp_bytes, hpackets, h]

/-- What each count misses. -/
theorem Tallied.counts {settings : ReadSettings} {firstreadbytes : Nat} {s : ByteServer}
    (h : Tallied settings firstreadbytes s) (hbetween : s.Between) :
    (s.Reports (firstreadbytes + s.receiver.received) ↔ s.behindHeader = 0 ∧ s.receiver.got = []) ∧
      (s.totLen = s.receiver.received ↔ s.nonFatal = 0 ∧ s.receiver.got = []) := by
  have htotLen := h.totLen
  have hbytes := h.bytes
  rw [hbetween.1] at htotLen hbytes
  rw [reports_iff, ← List.length_eq_zero_iff]
  omega

end ByteServer

open ByteServer

/-- **The bytes of a TCP server.** Between its rounds and at the end: the total bytes of the reporter are what the socket gave
just if no data read behind the header of its round failed with an error that is not fatal, and no header is partial; and
`totLen` is, just if no data read at all failed so. In clean runs both are. -/
theorem tcp_server_bytes (settings : ReadSettings) (burstInfo : Buf) (firstreadbytes : Nat) :
    (∀ s, Reachable (ByteServer.step settings) Any (.init burstInfo firstreadbytes) s → s.Between →
        (s.Reports (firstreadbytes + s.receiver.received) ↔ s.behindHeader = 0 ∧ s.receiver.got = []) ∧
          (s.totLen = s.receiver.received ↔ s.nonFatal = 0 ∧ s.receiver.got = [])) ∧
      ∀ s, Reachable (ByteServer.step settings) (ByteServer.Clean settings) (.init burstInfo firstreadbytes) s → s.Between →
        s.Reports (firstreadbytes + s.receiver.received) ∧ s.totLen = s.receiver.received := by
  have hstart : Tallied settings firstreadbytes (.init burstInfo firstreadbytes) := .start burstInfo firstreadbytes
  refine ⟨fun s hs hbetween => ?_, fun s hs hbetween => ?_⟩
  · have htally : Tallied settings firstreadbytes s := hs.invariant hstart fun _ _ _ h _ hstep => h.next hstep
    exact htally.counts hbetween
  · obtain ⟨htally, hunharmed⟩ := hs.invariant
      (I := fun s => Tallied settings firstreadbytes s ∧ Unharmed settings s) ⟨hstart, rfl, fun _ => rfl⟩
      fun _ _ _ h hclean hstep => ⟨h.1.next hstep, h.2.next h.1 hclean hstep⟩
    have hgot : s.receiver.got = [] := by
      cases hended : s.ended with
      | true => exact hunharmed.header hended
      | false => exact hbetween.2 hended
    have hbehind : s.behindHeader = 0 := Nat.le_zero.mp (hunharmed.nonFatal ▸ htally.le)
    obtain ⟨hbytes, htotLen⟩ := htally.counts hbetween
    exact ⟨hbytes.mpr ⟨hbehind, hgot⟩, htotLen.mpr ⟨hunharmed.nonFatal, hgot⟩⟩

/-! A server with bursts of 200 bytes, behind a first payload of 60. -/

def burstServer : ReadSettings where
  mBufLen := 131072
  isburst := true
  amountLimit := none

/-- The server behind a run of which the counts are known. -/
theorem run_values {ok : ByteServer → RecvEvent → Prop} [∀ s e, Decidable (ok s e)] {settings : ReadSettings}
    {start : ByteServer} {events : List RecvEvent} {packetLens : List Int} {totLen : Int} {headerLen received : Nat}
    {got : List Byte}
    (h : (run (ByteServer.step settings) ok start events).map
      (fun s => (s.packetLens, s.totLen, s.headerLen, s.receiver.got, s.receiver.received)) =
      some (packetLens, totLen, headerLen, got, received)) :
    ∃ s, run (ByteServer.step settings) ok start events = some s ∧ s.packetLens = packetLens ∧ s.totLen = totLen ∧
      s.headerLen = headerLen ∧ s.receiver.got = got ∧ s.receiver.received = received := by
  obtain ⟨s, hs, hvalues⟩ := Option.map_eq_some_iff.mp h
  simp only [Prod.mk.injEq] at hvalues
  exact ⟨s, hs, hvalues⟩

/-- The header of a burst of 200 bytes. -/
def headerOf200 : List Byte :=
  (storeTcpTxHdr .zero ⟨1, 0⟩ ⟨1, 0⟩ 200 200 1).window 0 sizeofTcpBurstPayload

/-- The burst comes in four reads, with a timeout within its header. -/
theorem tcp_server_bytes_burst :
    ∃ s, run (ByteServer.step burstServer) (ByteServer.Clean burstServer) (.init .zero 60)
        [.took (headerOf200.take 40), .error .eagain, .took (headerOf200.drop 40), .took (List.replicate 100 0),
          .took (List.replicate 8 0), .eof] = some s ∧
      (s.packetLens, s.totLen) = ([60, 192, 8], 200) ∧ s.Reports (60 + 200) ∧ s.totLen = s.receiver.received := by
  have hrun : (run (ByteServer.step burstServer) (ByteServer.Clean burstServer) (.init .zero 60)
      [.took (headerOf200.take 40), .error .eagain, .took (headerOf200.drop 40), .took (List.replicate 100 0),
        .took (List.replicate 8 0), .eof]).map
      (fun s => (s.packetLens, s.totLen, s.headerLen, s.receiver.got, s.receiver.received)) =
      some ([60, 192, 8], 200, 0, [], 200) := by decide +kernel
  obtain ⟨s, hs, hpackets, htotLen, hround, hgot, hreceived⟩ := run_values hrun
  have hcounts := (tcp_server_bytes burstServer .zero 60).2 s (.of_run _ _ .start hs) ⟨hround, fun _ => hgot⟩
  rw [hreceived] at hcounts
  exact ⟨s, hs, Prod.ext hpackets htotLen, hcounts.1, hcounts.2.trans (congrArg _ hreceived.symm)⟩

/-- A timeout between the header and its data: 92 bytes came, and both counts have 91. -/
theorem tcp_server_bytes_fails :
    ∃ s, Reachable (ByteServer.step burstServer) Any (.init .zero 60) s ∧ s.Between ∧ s.receiver.received = 92 ∧
      s.packetLens = [60, 91] ∧ ¬ s.Reports (60 + 92) ∧ s.totLen = 91 := by
  have hrun : (run (ByteServer.step burstServer) Any (.init .zero 60) [.took headerOf200, .error .eagain]).map
      (fun s => (s.packetLens, s.totLen, s.headerLen, s.receiver.got, s.receiver.received)) =
      some ([60, 91], 91, 0, [], 92) := by decide +kernel
  obtain ⟨s, hs, hpackets, htotLen, hround, hgot, hreceived⟩ := run_values hrun
  refine ⟨s, .of_run _ _ .start hs, ⟨hround, fun _ => hgot⟩, hreceived, hpackets, fun hreports => ?_, htotLen⟩
  rw [reports_iff, hpackets] at hreports
  exact absurd hreports (by decide)

end Iperf2.Traffic
