import Iperf2.Traffic.Burst

/-!
# Paced TCP bursts

`Client::RunNearCongestionTCP` and, with `--trip-times`, `Client::RunRateLimitedTCP` send bursts of `mBufLen` bytes
that start with a `TCP_burst_payload`. The first hands the whole burst to one `write`; the second sends the header with
a `writen` and then goes on with `write`. Every `write` takes its bytes from the start of the buffer. What a system
call takes, the errors, the clock, the tokens and the blocks of an input file are inputs.

* `PacedSender.step` : one system call of a loop; `sent` and `headers` record what was written, no function of the
  source has them;
* `Framed` : what was written is the start of whole bursts, and the `write` under way has no negative length;
* `HeaderKept` : no `write` takes bytes of the buffer's start in place of the rest of a header, and a `writen` takes no
  more than the loop has for header and payload;
* `InFrame` : where the loop stands in its burst;
* `paced_burst_framing` : runs that keep their headers are framed, and no others.
-/

namespace Iperf2.Traffic
open Report Transition Framing

/-- What the loops read of the settings. `mBufLen` is an `int`. -/
structure PacedSettings where
  mBufLen : Int
  mBufLen_lt : mBufLen < 2 ^ 31
  modeAmount : Bool
  fileInput : Bool
  startTime : Timeval

/-- The two loops. -/
inductive PacedLoop
  | nearCongestion
  | rateLimited

/-- The system call that a loop is in. -/
inductive PacedCall
  | none
  /-- The `writen` of a header, and the `packetLen` of the loop. -/
  | writen (w : Writen) (packetLen : Int)
  /-- A `write`, after `n` bytes from a `writen`. -/
  | write (len : Int) (n : Nat)

/-- The state of both loops. -/
structure PacedSender where
  mBuf : Buf
  mAmount : Nat
  burstRemaining : Int
  burstId : BitVec 32
  packetID : Int
  call : PacedCall
  ended : Bool
  sent : List Byte
  headers : List BurstHeader

/-- What happens to a loop: `InProgress` reads the next block of a file or is false, the next iteration reaches its
first system call, a system call takes bytes or fails. -/
inductive PacedEvent
  | fill (mBuf : Buf)
  | stop
  | next (now : Timeval)
  | took (n : Nat)
  | error (errno : TcpErrno)

namespace PacedSender

/-- At the start of a loop, with the buffer, the amount and the packet id that `InitTrafficLoop` left. -/
def init (mBuf : Buf) (mAmount : Nat) (packetID : Int) : PacedSender where
  mBuf
  mAmount
  burstRemaining := 0
  burstId := 1
  packetID
  call := .none
  ended := false
  sent := []
  headers := []

/-- `Client::InProgress`, but for the clock, the interrupt and the peer's close. -/
def inProgress (settings : PacedSettings) (s : PacedSender) : Bool :=
  settings.fileInput || !(settings.modeAmount && s.mAmount == 0)

/-- The bytes that an iteration may write. -/
def packetLen (settings : PacedSettings) (s : PacedSender) : Int :=
  if settings.modeAmount then
    if s.mAmount < (settings.mBufLen % 2 ^ 32).toNat then s.mAmount else settings.mBufLen
  else settings.mBufLen

/-- `Client::WriteTcpTxHdr` -/
def writeTcpTxHdr (settings : PacedSettings) (s : PacedSender) (now : Timeval) (burstSize : Int)
    (burstId : BitVec 32) : PacedSender :=
  let packetID := s.packetID + burstSize
  let mBuf := storeTcpTxHdr s.mBuf settings.startTime now packetID (BitVec.ofInt 32 burstSize) burstId
  { s with
    packetID
    mBuf
    headers := s.headers ++ [{
      offset := s.sent.length
      bytes := mBuf.window 0 sizeofTcpBurstPayload
      burstSize := BitVec.ofInt 32 burstSize
      burstId }] }

/-- An iteration of `Client::RunNearCongestionTCP`, up to its `write`. -/
def runNearCongestionTCP (settings : PacedSettings) (s : PacedSender) (now : Timeval) : PacedSender :=
  if s.burstRemaining = 0 then
    let burstRemaining := settings.mBufLen
    let writelen := if settings.mBufLen > burstRemaining then burstRemaining else settings.mBufLen
    { s.writeTcpTxHdr settings now burstRemaining s.burstId with
      burstRemaining
      burstId := s.burstId + 1
      call := .write writelen 0 }
  else { s with call := .write (min (s.packetLen settings) s.burstRemaining) 0 }

/-- An iteration of `Client::RunRateLimitedTCP` with `--trip-times`, up to its first system call. -/
def runRateLimitedTCP (settings : PacedSettings) (s : PacedSender) (now : Timeval) : PacedSender :=
  let burstSize := settings.mBufLen
  if s.burstRemaining = 0 then
    { s.writeTcpTxHdr settings now burstSize s.burstId with
      burstRemaining := burstSize
      burstId := s.burstId + 1
      call := .writen ⟨sizeofTcpBurstPayload, sizeofTcpBurstPayload⟩ (s.packetLen settings) }
  else { s with call := .write (min (s.packetLen settings) s.burstRemaining) 0 }

/-- `writen` returned `n`: a short header is only warned about, and the `write` follows. -/
def written (s : PacedSender) (n : Nat) (packetLen : Int) : PacedSender :=
  { s with
    burstRemaining := s.burstRemaining - n
    call := .write (packetLen - n) n }

/-- A `write` took `len` bytes, or failed with none: the end of an iteration. -/
def account (settings : PacedSettings) (s : PacedSender) (len n : Nat) : PacedSender :=
  { s with
    burstRemaining := s.burstRemaining - len
    -- `mAmount` may be unsigned, so don't let it underflow
    mAmount := if settings.modeAmount then s.mAmount - (len + n) else s.mAmount
    call := .none }

/-- One event of a loop. No system call takes bytes of a negative length. -/
def step (loop : PacedLoop) (settings : PacedSettings) (s : PacedSender) (e : PacedEvent) : Option PacedSender :=
  if s.ended then none
  else match s.call with
  | .none =>
    match e with
    | .fill mBuf => if settings.fileInput then some { s with mBuf } else none
    | .stop => some { s with ended := true }
    | .next now =>
      if s.inProgress settings then
        some (match loop with
          | .nearCongestion => s.runNearCongestionTCP settings now
          | .rateLimited => s.runRateLimitedTCP settings now)
      else none
    | _ => none
  | .writen w packetLen =>
    match e with
    | .took n =>
      if n ≤ w.nleft then
        let s := { s with
          sent := s.sent ++ s.mBuf.window (w.inLen - w.nleft) n
          call := .writen { w with nleft := w.nleft - n } packetLen }
        some (if w.nleft - n = 0 then s.written w.inLen packetLen else s)
      else none
    | .error errno => some (if errno = .eintr then s else s.written (w.inLen - w.nleft) packetLen)
    | _ => none
  | .write len n =>
    match e with
    | .took k =>
      if k ≤ len then some ({ s with sent := s.sent ++ s.mBuf.window 0 k }.account settings k n) else none
    | .error errno => some (if errno.fatal then { s with ended := true } else s.account settings 0 n)
    | _ => none

/-! ## The burst under way -/

/-- The last header that was stored. -/
def header (s : PacedSender) : List Byte := (s.headers.getLast?.map (·.bytes)).getD []

/-- How much of the burst has been sent. -/
def burstSent (settings : PacedSettings) (s : PacedSender) : Nat :=
  (settings.mBufLen - s.burstRemaining).toNat +
    match s.call with
    | .writen w _ => w.inLen - w.nleft
    | _ => 0

/-- The bytes that were written are the start of a stream of whole bursts with the headers that were stored, and no
`write` has a negative length. -/
structure Framed (s : PacedSender) : Prop where
  framePrefix : FramePrefix sizeofTcpBurstPayload burstSizeOf (s.headers.map (·.mark)) s.sent
  nonneg : ∀ len n, s.call = .write len n → 0 ≤ len

/-- A `write` takes its bytes from the start of the buffer: before the header of the burst has been sent they have to be
what is left of it. A `writen` takes no more than the loop has for header and payload. -/
def MayTake (settings : PacedSettings) (s : PacedSender) (n : Nat) : PacedCall → Prop
  | .none => True
  | .writen w packetLen => (w.inLen - w.nleft + n : Nat) ≤ packetLen
  | .write .. => Continues sizeofTcpBurstPayload s.header (s.burstSent settings) (s.mBuf.window 0 n)

instance (settings : PacedSettings) (s : PacedSender) (n : Nat) : (call : PacedCall) →
    Decidable (s.MayTake settings n call)
  | .none => .isTrue trivial
  | .writen w packetLen => inferInstanceAs (Decidable ((w.inLen - w.nleft + n : Nat) ≤ packetLen))
  | .write .. => inferInstanceAs
    (Decidable (Continues sizeofTcpBurstPayload s.header (s.burstSent settings) (s.mBuf.window 0 n)))

/-- The guard of the runs. -/
def HeaderKept (settings : PacedSettings) (s : PacedSender) : PacedEvent → Prop
  | .took n => s.MayTake settings n s.call
  | _ => True

instance (settings : PacedSettings) (s : PacedSender) : (e : PacedEvent) → Decidable (s.HeaderKept settings e)
  | .took n => inferInstanceAs (Decidable (s.MayTake settings n s.call))
  | .fill _ => .isTrue trivial
  | .stop => .isTrue trivial
  | .next _ => .isTrue trivial
  | .error _ => .isTrue trivial

section
variable {settings : PacedSettings} {s : PacedSender}

theorem burstSent_none (hcall : s.call = .none) :
    s.burstSent settings = (settings.mBufLen - s.burstRemaining).toNat := by
  unfold burstSent
  rw [hcall]
  exact Nat.add_zero _

theorem burstSent_write {len : Int} {n : Nat} (hcall : s.call = .write len n) :
    s.burstSent settings = (settings.mBufLen - s.burstRemaining).toNat := by
  unfold burstSent
  rw [hcall]
  exact Nat.add_zero _

theorem burstSent_writen {w : Writen} {packetLen : Int} (hcall : s.call = .writen w packetLen) :
    s.burstSent settings = (settings.mBufLen - s.burstRemaining).toNat + (w.inLen - w.nleft) := by
  unfold burstSent
  rw [hcall]

/-- An iteration may write at most `mBufLen` bytes, and no negative number. -/
theorem packetLen_bounds (hnonneg : 0 ≤ settings.mBufLen) :
    0 ≤ s.packetLen settings ∧ s.packetLen settings ≤ settings.mBufLen := by
  have hlt := settings.mBufLen_lt
  have hunsigned : settings.mBufLen % 2 ^ 32 = settings.mBufLen := by
    apply Int.emod_eq_of_lt <;> omega
  unfold packetLen
  rw [hunsigned]
  split
  · split <;> omega
  · omega

end

/-- The buffer goes on with the header at its start. -/
theorem continues_window (mBuf : Buf) (d n : Nat) :
    Continues sizeofTcpBurstPayload (mBuf.window 0 sizeofTcpBurstPayload) d (mBuf.window d n) := by
  by_cases hd : sizeofTcpBurstPayload ≤ d
  · exact continues_of_le hd
  · obtain ⟨m, hm⟩ := Nat.exists_eq_add_of_le (not_le.mp hd).le
    unfold Continues
    rw [hm, Nat.add_sub_cancel_left, Buf.window_drop, Nat.zero_add]
    apply List.prefix_of_prefix_length_le
    · exact (List.take_prefix m _).trans ⟨_, (Buf.window_append mBuf d n m).symm⟩
    · rw [Nat.add_comm n m]
      exact ⟨_, (Buf.window_append mBuf d m n).symm⟩
    · rw [List.length_take, Buf.window_length, Buf.window_length]
      exact Nat.min_le_left m n

/-- Where a loop stands in its burst: what is left to count of it, the system call that it is in, and the stream with
the rest of the header and of the burst still to come. -/
structure InFrame (settings : PacedSettings) (s : PacedSender) : Prop where
  remaining : 0 ≤ s.burstRemaining ∧ s.burstRemaining ≤ settings.mBufLen
  header : s.headers = [] ∧ s.burstRemaining = 0 ∨
    s.header.length = sizeofTcpBurstPayload ∧ burstSizeOf s.header = settings.mBufLen.toNat
  writen : ∀ w packetLen, s.call = .writen w packetLen →
    w.inLen = sizeofTcpBurstPayload ∧ w.nleft ≤ w.inLen ∧ s.burstRemaining = settings.mBufLen ∧
      (w.inLen - w.nleft : Nat) ≤ packetLen ∧ packetLen ≤ settings.mBufLen ∧
      s.mBuf.window 0 sizeofTcpBurstPayload = s.header
  write : ∀ len n, s.call = .write len n → 0 ≤ len ∧ len ≤ s.burstRemaining
  stream : Between sizeofTcpBurstPayload burstSizeOf 0 0 (s.headers.map (·.mark))
    (s.sent ++ s.header.drop (s.burstSent settings))
    (settings.mBufLen.toNat - max sizeofTcpBurstPayload (s.burstSent settings))

theorem inFrame_init {settings : PacedSettings} (hlen : (sizeofTcpBurstPayload : Int) ≤ settings.mBufLen) (mBuf : Buf)
    (mAmount : Nat) (packetID : Int) : InFrame settings (init mBuf mAmount packetID) where
  remaining := ⟨le_rfl, by show (0 : Int) ≤ _; omega⟩
  header := .inl ⟨rfl, rfl⟩
  writen := fun w packetLen hcall => by cases hcall
  write := fun len n hcall => by cases hcall
  stream := by
    have hburst : (init mBuf mAmount packetID).burstSent settings = settings.mBufLen.toNat := by
      rw [burstSent_none rfl]
      show (settings.mBufLen - 0).toNat = _
      omega
    have hleft : settings.mBufLen.toNat - max sizeofTcpBurstPayload settings.mBufLen.toNat = 0 := by omega
    rw [hburst, hleft]
    show Between _ _ _ _ _ ([] ++ [].drop _) _
    rw [List.drop_nil]
    exact .start

section
variable {settings : PacedSettings} {s : PacedSender} (inFrame : InFrame settings s)
include inFrame

omit inFrame in
theorem header_congr {s' : PacedSender} (headers : s'.headers = s.headers) : s'.header = s.header := by
  unfold PacedSender.header
  rw [headers]

theorem InFrame.header_le : s.header.length ≤ sizeofTcpBurstPayload := by
  rcases inFrame.header with ⟨hnone, -⟩ | ⟨hlength, -⟩
  · unfold PacedSender.header
    rw [hnone]
    exact Nat.zero_le _
  · exact hlength.le

/-- The loop sends `data`: what is left of the header, then payload of the burst. -/
theorem InFrame.put {s' : PacedSender} (data : List Byte) (headers : s'.headers = s.headers)
    (sent : s'.sent = s.sent ++ data) (burst : s'.burstSent settings = s.burstSent settings + data.length)
    (fits : s.burstSent settings + data.length ≤ settings.mBufLen.toNat)
    (hdata : Continues sizeofTcpBurstPayload s.header (s.burstSent settings) data) :
    Between sizeofTcpBurstPayload burstSizeOf 0 0 (s'.headers.map (·.mark))
      (s'.sent ++ s'.header.drop (s'.burstSent settings))
      (settings.mBufLen.toNat - max sizeofTcpBurstPayload (s'.burstSent settings)) := by
  have hextra : (data.drop (sizeofTcpBurstPayload - s.burstSent settings)).length =
      data.length - (sizeofTcpBurstPayload - s.burstSent settings) := List.length_drop
  have hroom : (data.drop (sizeofTcpBurstPayload - s.burstSent settings)).length ≤
      settings.mBufLen.toNat - max sizeofTcpBurstPayload (s.burstSent settings) := by omega
  have hput := inFrame.stream.put hroom
  rw [List.append_assoc, ← hdata.append_drop inFrame.header_le, ← List.append_assoc, hextra] at hput
  have hleft : settings.mBufLen.toNat - max sizeofTcpBurstPayload (s.burstSent settings) -
      (data.length - (sizeofTcpBurstPayload - s.burstSent settings)) =
        settings.mBufLen.toNat - max sizeofTcpBurstPayload (s.burstSent settings + data.length) := by omega
  rw [headers, header_congr headers, sent, burst, ← hleft]
  exact hput

/-- Nothing is sent, and the loop stands where it stood in its burst. -/
theorem InFrame.idle {s' : PacedSender} (hlen : s.burstSent settings ≤ settings.mBufLen.toNat)
    (headers : s'.headers = s.headers) (sent : s'.sent = s.sent) (burst : s'.burstSent settings = s.burstSent settings) :
    Between sizeofTcpBurstPayload burstSizeOf 0 0 (s'.headers.map (·.mark))
      (s'.sent ++ s'.header.drop (s'.burstSent settings))
      (settings.mBufLen.toNat - max sizeofTcpBurstPayload (s'.burstSent settings)) := by
  apply inFrame.put [] headers
  · rw [sent, List.append_nil]
  · exact burst
  · exact hlen
  · exact continues_nil

/-- The next block of a file. -/
theorem InFrame.fill (hcall : s.call = .none) (mBuf : Buf) : InFrame settings { s with mBuf } where
  remaining := inFrame.remaining
  header := inFrame.header
  writen := fun w packetLen hcall' => by
    rw [hcall] at hcall'
    cases hcall'
  write := inFrame.write
  stream := inFrame.stream

theorem InFrame.ends (ended : Bool) : InFrame settings { s with ended } where
  remaining := inFrame.remaining
  header := inFrame.header
  writen := inFrame.writen
  write := inFrame.write
  stream := inFrame.stream

omit inFrame in
/-- The header that `WriteTcpTxHdr` stores is at the start of the buffer and has the size of the burst. -/
theorem writeTcpTxHdr_header (hnonneg : 0 ≤ settings.mBufLen) (now : Timeval) (burstId : BitVec 32) :
    let s' := s.writeTcpTxHdr settings now settings.mBufLen burstId
    s'.header = s'.mBuf.window 0 sizeofTcpBurstPayload ∧ burstSizeOf s'.header = settings.mBufLen.toNat := by
  intro s'
  have hlt := settings.mBufLen_lt
  have hheader : s'.header = s'.mBuf.window 0 sizeofTcpBurstPayload := by
    unfold PacedSender.header
    show (Option.map _ (List.getLast? (s.headers ++ [_]))).getD [] = _
    rw [List.getLast?_concat]
    rfl
  have hsize : s'.mBuf.be32 48 = BitVec.ofInt 32 settings.mBufLen := (storeTcpTxHdr_fields ..).1
  refine ⟨hheader, ?_⟩
  rw [hheader, burstSizeOf, (fields_window s'.mBuf).1, hsize, BitVec.toInt_ofInt]
  rw [Int.bmod_eq_of_le (by omega) (by omega)]

/-- The start of a burst, with the system call that follows. -/
theorem InFrame.starts (hlen : (sizeofTcpBurstPayload : Int) ≤ settings.mBufLen) (hcall : s.call = .none)
    (hzero : s.burstRemaining = 0) (now : Timeval) {call : PacedCall}
    (hwriten : ∀ w packetLen, call = .writen w packetLen →
      w = ⟨sizeofTcpBurstPayload, sizeofTcpBurstPayload⟩ ∧ 0 ≤ packetLen ∧ packetLen ≤ settings.mBufLen)
    (hwrite : ∀ len n, call = .write len n → 0 ≤ len ∧ len ≤ settings.mBufLen) :
    InFrame settings { s.writeTcpTxHdr settings now settings.mBufLen s.burstId with
      burstRemaining := settings.mBufLen
      burstId := s.burstId + 1
      call } := by
  obtain ⟨hheader, hsize⟩ := @writeTcpTxHdr_header settings s (by omega) now s.burstId
  generalize hstored : s.writeTcpTxHdr settings now settings.mBufLen s.burstId = stored at hheader hsize
  have hlength : stored.header.length = sizeofTcpBurstPayload := by rw [hheader, Buf.window_length]
  have hsent : stored.sent = s.sent := by
    rw [← hstored]
    rfl
  have hmarks : stored.headers.map (·.mark) = s.headers.map (·.mark) ++ [⟨s.sent.length, stored.header⟩] := by
    rw [hheader, ← hstored]
    exact List.map_append
  let s' : PacedSender := { stored with
    burstRemaining := settings.mBufLen
    burstId := s.burstId + 1
    call }
  have hburst : s'.burstSent settings = 0 := by
    unfold burstSent
    show (settings.mBufLen - settings.mBufLen).toNat + _ = 0
    rw [Int.sub_self]
    cases call with
    | none => rfl
    | write len n => rfl
    | writen w packetLen =>
      obtain ⟨rfl, -⟩ := hwriten w packetLen rfl
      rfl
  have hstream : Between sizeofTcpBurstPayload burstSizeOf 0 0 (stored.headers.map (·.mark))
      (s.sent ++ stored.header) (settings.mBufLen.toNat - sizeofTcpBurstPayload) := by
    have hbefore := inFrame.stream
    -- the burst before this one is whole
    have hdone : s.burstSent settings = settings.mBufLen.toNat := by
      rw [burstSent_none hcall, hzero, Int.sub_zero]
    have hnone : s.header.drop (s.burstSent settings) = [] :=
      List.drop_eq_nil_of_le (inFrame.header_le.trans (by omega))
    have hleft : settings.mBufLen.toNat - max sizeofTcpBurstPayload settings.mBufLen.toNat = 0 := by omega
    rw [hnone, List.append_nil, hdone, hleft] at hbefore
    have hframe := hbefore.frame hlength (by omega)
    rw [Nat.zero_add, hsize] at hframe
    rw [hmarks]
    exact hframe
  exact {
    remaining := ⟨by show 0 ≤ settings.mBufLen; omega, le_rfl⟩
    header := .inr ⟨hlength, hsize⟩
    writen := fun w packetLen h => by
      obtain ⟨rfl, hpos, hle⟩ := hwriten w packetLen h
      exact ⟨rfl, le_rfl, rfl, by simpa using hpos, hle, hheader.symm⟩
    write := hwrite
    stream := by
      rw [hburst, Nat.max_eq_left (Nat.zero_le _)]
      show Between _ _ _ _ _ (stored.sent ++ stored.header) _
      rw [hsent]
      exact hstream }

/-- An iteration up to its first system call. -/
theorem InFrame.iterates (hlen : (sizeofTcpBurstPayload : Int) ≤ settings.mBufLen) (hcall : s.call = .none)
    (loop : PacedLoop) (now : Timeval) :
    InFrame settings (match loop with
      | .nearCongestion => s.runNearCongestionTCP settings now
      | .rateLimited => s.runRateLimitedTCP settings now) := by
  have hnonneg : 0 ≤ settings.mBufLen := by omega
  have hbounds := packetLen_bounds (s := s) hnonneg
  have hremaining := inFrame.remaining
  -- the `write` of payload, the same in both loops
  have hpayload : InFrame settings { s with call := .write (min (s.packetLen settings) s.burstRemaining) 0 } := {
    remaining := hremaining
    header := inFrame.header
    writen := fun w packetLen h => by cases h
    write := fun len n h => by
      cases h
      exact ⟨le_min hbounds.1 hremaining.1, min_le_right _ _⟩
    stream := by
      apply inFrame.idle
      · rw [burstSent_none hcall]
        omega
      · rfl
      · rfl
      · rw [burstSent_write rfl, burstSent_none hcall] }
  cases loop with
  | nearCongestion =>
    show InFrame settings (s.runNearCongestionTCP settings now)
    unfold runNearCongestionTCP
    split
    · rename_i hzero
      apply inFrame.starts hlen hcall hzero now
      · intro w packetLen h
        cases h
      · intro len n h
        cases h
        rw [ite_self]
        omega
    · exact hpayload
  | rateLimited =>
    show InFrame settings (s.runRateLimitedTCP settings now)
    unfold runRateLimitedTCP
    split
    · rename_i hzero
      apply inFrame.starts hlen hcall hzero now
      · intro w packetLen h
        cases h
        exact ⟨rfl, hbounds⟩
      · intro len n h
        cases h
    · exact hpayload

/-- A `writen` takes bytes of the header. -/
theorem InFrame.sendsHeader (hlen : (sizeofTcpBurstPayload : Int) ≤ settings.mBufLen) {w : Writen} {packetLen : Int}
    (hcall : s.call = .writen w packetLen) {n : Nat} (hn : n ≤ w.nleft)
    (hkept : (w.inLen - w.nleft + n : Nat) ≤ packetLen) :
    InFrame settings { s with
      sent := s.sent ++ s.mBuf.window (w.inLen - w.nleft) n
      call := .writen { w with nleft := w.nleft - n } packetLen } := by
  obtain ⟨hinLen, hnleft, hremaining, hle, hpacketLen, hmBuf⟩ := inFrame.writen w packetLen hcall
  have hburst : s.burstSent settings = w.inLen - w.nleft := by
    rw [burstSent_writen hcall]
    omega
  exact {
    remaining := inFrame.remaining
    header := inFrame.header
    writen := fun w' packetLen' h => by
      cases h
      refine ⟨hinLen, (Nat.sub_le ..).trans hnleft, hremaining, ?_, hpacketLen, hmBuf⟩
      dsimp only
      omega
    write := fun len n h => by cases h
    stream := by
      apply inFrame.put (s.mBuf.window (w.inLen - w.nleft) n)
      · rfl
      · rfl
      · rw [burstSent_writen rfl, hburst, Buf.window_length]
        dsimp only
        omega
      · rw [hburst, Buf.window_length]
        omega
      · rw [hburst, ← hmBuf]
        exact continues_window _ _ _ }

/-- `writen` returns. -/
theorem InFrame.written (hlen : (sizeofTcpBurstPayload : Int) ≤ settings.mBufLen) {w : Writen} {packetLen : Int}
    (hcall : s.call = .writen w packetLen) : InFrame settings (s.written (w.inLen - w.nleft) packetLen) := by
  obtain ⟨hinLen, hnleft, hremaining, hle, hpacketLen, hmBuf⟩ := inFrame.writen w packetLen hcall
  have hnonneg := inFrame.remaining.1
  exact {
    remaining := by
      show 0 ≤ s.burstRemaining - (w.inLen - w.nleft : Nat) ∧ s.burstRemaining - (w.inLen - w.nleft : Nat) ≤ _
      omega
    header := by
      refine .inr (inFrame.header.resolve_left fun hnone => ?_)
      have hpos : (0 : Int) < sizeofTcpBurstPayload := by decide
      omega
    writen := fun w packetLen h => by cases h
    write := fun len n h => by
      cases h
      show _ ∧ _ ≤ s.burstRemaining - (w.inLen - w.nleft : Nat)
      omega
    stream := by
      apply inFrame.idle
      · rw [burstSent_writen hcall]
        omega
      · rfl
      · rfl
      · rw [burstSent_write rfl, burstSent_writen hcall]
        show (settings.mBufLen - (s.burstRemaining - (w.inLen - w.nleft : Nat))).toNat = _
        omega }

/-- A `write` takes bytes. -/
theorem InFrame.sends {len : Int} {n : Nat} (hcall : s.call = .write len n) {k : Nat} (hk : k ≤ len)
    (hkept : Continues sizeofTcpBurstPayload s.header (s.burstSent settings) (s.mBuf.window 0 k)) :
    InFrame settings ({ s with sent := s.sent ++ s.mBuf.window 0 k }.account settings k n) := by
  obtain ⟨hnonneg, hle⟩ := inFrame.write len n hcall
  have hremaining := inFrame.remaining
  have hburst : s.burstSent settings = (settings.mBufLen - s.burstRemaining).toNat := burstSent_write hcall
  exact {
    remaining := by
      show 0 ≤ s.burstRemaining - (k : Int) ∧ s.burstRemaining - (k : Int) ≤ _
      omega
    header := inFrame.header.imp_left fun ⟨hnone, hzero⟩ => ⟨hnone, by
      show s.burstRemaining - (k : Int) = 0
      omega⟩
    writen := fun w packetLen h => by cases h
    write := fun len n h => by cases h
    stream := by
      apply inFrame.put (s.mBuf.window 0 k)
      · rfl
      · rfl
      · rw [burstSent_none rfl, hburst, Buf.window_length]
        show (settings.mBufLen - (s.burstRemaining - (k : Int))).toNat = _
        omega
      · rw [hburst, Buf.window_length]
        omega
      · exact hkept }

/-- A `write` fails with an error that is not fatal. -/
theorem InFrame.fails {len : Int} {n : Nat} (hcall : s.call = .write len n) :
    InFrame settings (s.account settings 0 n) := by
  have hsends := inFrame.sends hcall (inFrame.write len n hcall).1 continues_nil
  rw [show s.mBuf.window 0 0 = [] from rfl, List.append_nil] at hsends
  exact hsends

/-- Bytes that do not go on with the header are no part of it. -/
theorem InFrame.breaks (hlen : (sizeofTcpBurstPayload : Int) ≤ settings.mBufLen) {len : Int} {n : Nat}
    (hcall : s.call = .write len n) {data : List Byte}
    (hnot : ¬ Continues sizeofTcpBurstPayload s.header (s.burstSent settings) data) :
    ¬ FramePrefix sizeofTcpBurstPayload burstSizeOf (s.headers.map (·.mark)) (s.sent ++ data) := by
  intro framePrefix
  have hsent : s.burstSent settings < sizeofTcpBurstPayload := by
    by_contra hsent
    exact hnot (continues_of_le (not_lt.mp hsent))
  rcases inFrame.header with ⟨-, hzero⟩ | ⟨hlength, hsize⟩
  · rw [burstSent_write hcall, hzero] at hsent
    omega
  · -- the burst under way is the last one
    obtain ⟨front, e, hheaders⟩ : ∃ front e, s.headers = front ++ [e] := by
      rcases List.eq_nil_or_concat' s.headers with hnone | hsome
      · unfold PacedSender.header at hlength
        rw [hnone] at hlength
        cases hlength
      · exact hsome
    have hheader : s.header = e.mark.header := by
      unfold PacedSender.header
      rw [hheaders, List.getLast?_concat]
      rfl
    have hstream := inFrame.stream
    rw [Nat.max_eq_left hsent.le, ← hsize] at hstream
    rw [hheaders, List.map_append] at hstream framePrefix
    rw [hheader] at hstream hlength hnot
    exact hnot (framePrefix.continues hstream hlength hsent.le)

end

/-- One event keeps the loop in its frame. -/
theorem InFrame.step {loop : PacedLoop} {settings : PacedSettings}
    (hlen : (sizeofTcpBurstPayload : Int) ≤ settings.mBufLen) {s s' : PacedSender} {e : PacedEvent}
    (inFrame : InFrame settings s) (kept : s.HeaderKept settings e) (h : s.step loop settings e = some s') :
    InFrame settings s' := by
  unfold PacedSender.step at h
  split at h
  · cases h
  · split at h
    · rename_i hcall
      cases e with
      | fill mBuf =>
        dsimp only at h
        split at h
        · cases h
          exact inFrame.fill hcall mBuf
        · cases h
      | stop =>
        cases h
        exact inFrame.ends true
      | next now =>
        dsimp only at h
        split at h
        · cases h
          exact inFrame.iterates hlen hcall loop now
        · cases h
      | took n => cases h
      | error errno => cases h
    · rename_i w packetLen hcall
      cases e with
      | took n =>
        unfold HeaderKept at kept
        rw [hcall] at kept
        dsimp only at h
        split at h
        · rename_i hn
          cases h
          have hsends := inFrame.sendsHeader hlen hcall hn kept
          split
          · -- the last byte of the header
            have hwritten := hsends.written hlen rfl
            have hall : w.inLen - (w.nleft - n) = w.inLen := by omega
            dsimp only at hwritten
            rwa [hall] at hwritten
          · exact hsends
        · cases h
      | error errno =>
        cases h
        split
        · exact inFrame
        · exact inFrame.written hlen hcall
      | fill mBuf => cases h
      | stop => cases h
      | next now => cases h
    · rename_i len n hcall
      cases e with
      | took k =>
        unfold HeaderKept at kept
        rw [hcall] at kept
        dsimp only at h
        split at h
        · rename_i hk
          cases h
          exact inFrame.sends hcall hk kept
        · cases h
      | error errno =>
        cases h
        split
        · exact inFrame.ends true
        · exact inFrame.fails hcall
      | fill mBuf => cases h
      | stop => cases h
      | next now => cases h

end PacedSender

/-- A `writen` that takes more than the loop has for the burst leaves a negative length to the `write` after it. -/
theorem PacedSender.overruns {loop : PacedLoop} {settings : PacedSettings} {s s' : PacedSender} {w : Writen}
    {packetLen : Int} {n : Nat} (hcall : s.call = .writen w packetLen) (hnleft : w.nleft ≤ w.inLen)
    (hmore : ¬ ((w.inLen - w.nleft + n : Nat) : Int) ≤ packetLen) (h : s.step loop settings (.took n) = some s') :
    ∃ s'', Reachable (PacedSender.step loop settings) Any s' s'' ∧ ¬ s''.Framed := by
  unfold PacedSender.step at h
  split at h
  · cases h
  · rename_i hrunning
    rw [hcall] at h
    dsimp only at h
    split at h
    · rename_i hn
      obtain rfl := Option.some.inj h
      split
      · -- the header is out
        refine ⟨_, .start, fun framed => ?_⟩
        have hnonneg := framed.nonneg _ _ rfl
        omega
      · -- `writen` fails then
        refine ⟨_, Reachable.start.next (.error .other) trivial (if_neg hrunning), fun framed => ?_⟩
        have hnonneg := framed.nonneg _ _ rfl
        dsimp only at hnonneg
        omega
    · cases h

/-- **Paced bursts.** With room for a header in a burst: every run of either loop that keeps its headers writes the start
of a stream of whole bursts, and no `write` of it has a negative length; where one step does not keep them, this is no
longer so then, or when the `writen` under way returns. -/
theorem paced_burst_framing (loop : PacedLoop) (settings : PacedSettings)
    (hlen : (sizeofTcpBurstPayload : Int) ≤ settings.mBufLen) (mBuf : Buf) (mAmount : Nat) (packetID : Int) :
    (∀ s, Reachable (PacedSender.step loop settings) (PacedSender.HeaderKept settings) (.init mBuf mAmount packetID) s →
        s.Framed) ∧
      ∀ s e s', Reachable (PacedSender.step loop settings) (PacedSender.HeaderKept settings)
          (.init mBuf mAmount packetID) s → ¬ s.HeaderKept settings e → s.step loop settings e = some s' →
        ∃ s'', Reachable (PacedSender.step loop settings) Any s' s'' ∧ ¬ s''.Framed := by
  have hframe : ∀ s, Reachable (PacedSender.step loop settings) (PacedSender.HeaderKept settings)
      (.init mBuf mAmount packetID) s → PacedSender.InFrame settings s := fun s reachable =>
    reachable.invariant (PacedSender.inFrame_init hlen mBuf mAmount packetID) fun _ _ _ inFrame kept h =>
      inFrame.step hlen kept h
  refine ⟨fun s reachable => ?_, fun s e s' reachable hnot h => ?_⟩
  · have inFrame := hframe s reachable
    exact ⟨inFrame.stream.framePrefix, fun len n hcall => (inFrame.write len n hcall).1⟩
  · have inFrame := hframe s reachable
    cases e with
    | took k =>
      unfold PacedSender.HeaderKept at hnot
      cases hcall : s.call with
      | none =>
        rw [hcall] at hnot
        exact absurd trivial hnot
      | writen w packetLen =>
        rw [hcall] at hnot
        exact PacedSender.overruns hcall (inFrame.writen w packetLen hcall).2.1 hnot h
      | write len n =>
        rw [hcall] at hnot
        have hbreaks := inFrame.breaks hlen hcall hnot
        unfold PacedSender.step at h
        split at h
        · cases h
        · rw [hcall] at h
          obtain ⟨-, hsome⟩ := Option.ite_none_right_eq_some.mp h
          obtain rfl := Option.some.inj hsome
          exact ⟨_, .start, fun framed => hbreaks framed.framePrefix⟩
    | _ => exact absurd trivial hnot

/-! Bursts of 128 Kbyte, and of 100 bytes until an amount is sent; the buffer has the pattern of the client. -/

def pacedSettings : PacedSettings where
  mBufLen := 131072
  mBufLen_lt := by decide
  modeAmount := false
  fileInput := false
  startTime := ⟨1, 0⟩

def pacedAmount : PacedSettings where
  mBufLen := 100
  mBufLen_lt := by decide
  modeAmount := true
  fileInput := false
  startTime := ⟨1, 0⟩

/-- `pattern` -/
def patternBuf : Buf := fun i => BitVec.ofNat 8 (i % 10 + 48)

/-- The first burst in two calls, the second header with a short `writen`, and the end of the amount. -/
def keptHeaders : List PacedEvent :=
  [.next ⟨1, 0⟩, .took 92, .error .eagain, .next ⟨2, 0⟩, .took 8, .next ⟨3, 0⟩, .took 40, .error .eintr, .took 52,
    .took 3, .next ⟨4, 0⟩, .took 5, .stop]

theorem paced_burst_framing_two :
    ∃ s, run (PacedSender.step .rateLimited pacedAmount) (PacedSender.HeaderKept pacedAmount)
        (.init patternBuf 200 1) keptHeaders = some s ∧
      (s.sent.length, s.mAmount, s.headers.map (·.offset)) = (200, 0, [0, 100]) ∧
      s.Framed := by
  have hrun : (run (PacedSender.step .rateLimited pacedAmount) (PacedSender.HeaderKept pacedAmount)
      (.init patternBuf 200 1) keptHeaders).map (fun s => (s.sent.length, s.mAmount, s.headers.map (·.offset))) =
        some (200, 0, [0, 100]) := by decide +kernel
  obtain ⟨s, hs, hsent⟩ := Option.map_eq_some_iff.mp hrun
  exact ⟨s, hs, hsent,
    (paced_burst_framing .rateLimited pacedAmount (by decide) patternBuf 200 1).1 s (.of_run _ _ .start hs)⟩

/-- A `write` of the near congestion loop takes 12 bytes of the header, the next one starts it again. -/
def restartedHeader : List PacedEvent := [.next ⟨1, 0⟩, .took 12, .next ⟨2, 0⟩, .took 100]

/-- The same with a `writen` that fails behind 12 bytes. -/
def restartedPayload : List PacedEvent := [.next ⟨1, 0⟩, .took 12, .error .eagain, .took 100]

/-- A header, with an amount for half of it. -/
def wholeHeader : List PacedEvent := [.next ⟨1, 0⟩, .took 92]

/-- Bytes whose first header has a `burst_size` of 0 are no bursts. -/
theorem not_framePrefix {xs : List Byte} (hlen : sizeofTcpBurstPayload ≤ xs.length)
    (hsize : burstSizeOf (xs.take sizeofTcpBurstPayload) = 0) (marks : List (Mark Byte)) :
    ¬ FramePrefix sizeofTcpBurstPayload burstSizeOf marks xs := by
  intro framePrefix
  have hle := framePrefix.size_le (by decide) hlen
  rw [hsize] at hle
  exact absurd hle (by decide)

/-- A run whose bytes are no bursts, by their number and by the size in the first header. -/
theorem not_framePrefix_run {loop : PacedLoop} {settings : PacedSettings} {s₀ : PacedSender} {events : List PacedEvent}
    {n : Nat} (hn : sizeofTcpBurstPayload ≤ n)
    (hrun : (run (PacedSender.step loop settings) Any s₀ events).map
      (fun s => (s.sent.length, burstSizeOf (s.sent.take sizeofTcpBurstPayload))) = some (n, 0)) :
    ∃ s, run (PacedSender.step loop settings) Any s₀ events = some s ∧
      ∀ marks, ¬ FramePrefix sizeofTcpBurstPayload burstSizeOf marks s.sent := by
  obtain ⟨s, hs, hsent⟩ := Option.map_eq_some_iff.mp hrun
  obtain ⟨hlen, hsize⟩ := Prod.mk.inj hsent
  exact ⟨s, hs, not_framePrefix (by rw [hlen]; exact hn) hsize⟩

/-- Runs whose bytes are no bursts: both loops go on from the start of the buffer after a part of the header, and a
header may leave less than nothing for the `write` that follows. -/
theorem paced_burst_framing_fails :
    (∃ s, run (PacedSender.step .nearCongestion pacedSettings) Any (.init patternBuf 0 1) restartedHeader = some s ∧
      ∀ marks, ¬ FramePrefix sizeofTcpBurstPayload burstSizeOf marks s.sent) ∧
    (∃ s, run (PacedSender.step .rateLimited pacedSettings) Any (.init patternBuf 0 1) restartedPayload = some s ∧
      ∀ marks, ¬ FramePrefix sizeofTcpBurstPayload burstSizeOf marks s.sent) ∧
    ∃ s, run (PacedSender.step .rateLimited pacedAmount) Any (.init patternBuf 46 1) wholeHeader = some s ∧
      s.call = .write (-46) 92 := by
  refine ⟨?_, ?_, ?_⟩
  · have hrun : (run (PacedSender.step .nearCongestion pacedSettings) Any (.init patternBuf 0 1) restartedHeader).map
        (fun s => (s.sent.length, burstSizeOf (s.sent.take sizeofTcpBurstPayload))) = some (112, 0) := by decide +kernel
    exact not_framePrefix_run (by decide) hrun
  · have hrun : (run (PacedSender.step .rateLimited pacedSettings) Any (.init patternBuf 0 1) restartedPayload).map
        (fun s => (s.sent.length, burstSizeOf (s.sent.take sizeofTcpBurstPayload))) = some (112, 0) := by decide +kernel
    exact not_framePrefix_run (by decide) hrun
  · have hrun : (run (PacedSender.step .rateLimited pacedAmount) Any (.init patternBuf 46 1) wholeHeader).map (·.call) =
        some (.write (-46) 92) := by rfl
    exact Option.map_eq_some_iff.mp hrun

end Iperf2.Traffic
