import Iperf2.Traffic.Received
import Iperf2.Traffic.TokenBucket

/-!
# The rate of a TCP server

`Server::RunTCP` holds a server to a rate, with tokens as the client does: it reads when there is no debt, and pays when
the round is over. A `recv` that fails counts as -1 byte, so that it is paid with a token more.

* `RateReader.step` : a loop, or a system call of its round;
* `ByteServer.round_cases` : a system call is within the round, or at its end;
* `RateReader.Books` : tokens and bytes; `RateReader.Books.next`;
* `server_under_rate` : what the socket gave is under the rate, but for a header, a buffer, and a byte for each read that
  failed.
-/

namespace Iperf2.Traffic
open Report Transition Bucket

/-- The settings of a server with `isBWSet`, and its rate in bits per second. -/
structure ReadRate where
  read : ReadSettings
  mAppRate : Nat

/-- The rate in bytes. -/
def ReadRate.bytesPerSec (settings : ReadRate) : Rat := settings.mAppRate / 8

/-- The state of `Server::RunTCP`. `reading` is true within a round that found no debt. -/
structure RateReader where
  server : ByteServer
  tokens : Rat
  time1 : Timeval
  reading : Bool

/-- What happens to the loop: it adds tokens at `time2`; the system calls of the round, and the end of the traffic. -/
inductive RateReadEvent
  | loop (time2 : Timeval)
  | call (e : RecvEvent)

namespace RateReader

/-- `double tokens=0.000004;` -/
def firstTokens : Rat := 4 / 1000000

/-- The loop starts when `time1` has been constructed. -/
def init (burstInfo : Buf) (firstreadbytes : Nat) (constructed : Timeval) : RateReader where
  server := .init burstInfo firstreadbytes
  tokens := firstTokens
  time1 := constructed
  reading := false

/-- A system call of the round. At the end of the round its bytes are paid. -/
def runCall (settings : ReadRate) (s : RateReader) (e : RecvEvent) : Option RateReader :=
  (s.server.step settings.read e).map fun server =>
    { s with
      server
      tokens := s.tokens - (server.totLen - s.server.totLen : Int)
      reading := server.packetLens.length == s.server.packetLens.length }

/-- One event of the loop. `InProgress` is tested between the rounds. Without tokens the round is a delay. -/
def step (settings : ReadRate) (s : RateReader) : RateReadEvent → Option RateReader
  | .loop time2 =>
    if s.reading = false ∧ s.server.ended = false ∧ secs s.time1 ≤ secs time2 then
      let tokens := s.tokens + subSec time2 s.time1 * (settings.mAppRate / 8)
      some { s with
        tokens
        time1 := time2
        reading := decide (tokens ≥ 0) }
    else none
  | .call .stop =>
    if s.reading then none else (s.server.step settings.read .stop).map fun server => { s with server }
  | .call e => if s.reading then s.runCall settings e else none

/-- No header was read that says its burst is shorter than the header. -/
def WellSized (s : RateReader) (_ : RateReadEvent) : Prop := 0 ≤ s.server.receiver.burstNleft

instance decidableWellSized (s : RateReader) (e : RateReadEvent) : Decidable (s.WellSized e) :=
  inferInstanceAs (Decidable (0 ≤ s.server.receiver.burstNleft))

end RateReader

/-! ## The system calls of a round -/

namespace ByteServer

section
variable {settings : ReadSettings} {firstreadbytes : Nat} {s s' : ByteServer} {e : RecvEvent}

/-- The round goes on, and counts nothing yet. -/
structure InRound (s s' : ByteServer) : Prop where
  totLen : s'.totLen = s.totLen
  packetLens : s'.packetLens = s.packetLens
  headerLen : s'.headerLen ≤ sizeofTcpBurstPayload

/-- The round ends, and counts a header and a buffer at most. -/
structure EndsRound (settings : ReadSettings) (s s' : ByteServer) : Prop where
  totLen : s'.totLen ≤ s.totLen + (sizeofTcpBurstPayload + settings.mBufLen)
  packetLens : s'.packetLens.length ≠ s.packetLens.length
  headerLen : s'.headerLen = 0
  got : s'.receiver.got = []

theorem EndsRound.of_report {n : Int} (hn : n ≤ settings.mBufLen) (htotLen : s'.totLen = s.totLen)
    (hpackets : s'.packetLens = s.packetLens) (hlen : s'.headerLen ≤ sizeofTcpBurstPayload)
    (hgot : s'.receiver.got = []) : EndsRound settings s (s'.report settings n) where
  totLen := by
    rw [report_totLen, htotLen]
    omega
  packetLens := by
    show (s'.packetLens ++ [_]).length ≠ _
    rw [hpackets, List.length_append, List.length_singleton]
    omega
  headerLen := rfl
  got := hgot

/-- A `recv` of data asks for a buffer at most. -/
theorem readLen_le (hnonneg : 0 ≤ settings.mBufLen) (hnleft : 0 ≤ s.receiver.burstNleft) {n : Nat}
    (hn : n ≤ (BitVec.ofInt 64 (s.readLen settings)).toNat) : (n : Int) ≤ settings.mBufLen := by
  have hlen : 0 ≤ s.readLen settings ∧ s.readLen settings ≤ settings.mBufLen := by
    unfold readLen
    split <;> omega
  have hword : (2 ^ 64 : Nat) = 18446744073709551616 := by norm_num
  rw [BitVec.toNat_ofInt, hword] at hn
  omega

theorem tookHeader_cases (hnonneg : 0 ≤ settings.mBufLen) (h : s.headerLen ≤ sizeofTcpBurstPayload) (bytes : List Byte) :
    InRound s (s.tookHeader settings bytes) ∨ EndsRound settings s (s.tookHeader settings bytes) := by
  unfold tookHeader
  dsimp only
  split
  · rename_i hgot
    split
    · exact .inr (.of_report hnonneg rfl rfl (Nat.le_refl _) hgot)
    · exact .inl ⟨rfl, rfl, Nat.le_refl _⟩
  · exact .inl ⟨rfl, rfl, h⟩

/-- **A system call is within its round, or ends it.** -/
theorem round_cases (htally : Tallied settings firstreadbytes s) (hnonneg : 0 ≤ settings.mBufLen)
    (hnleft : 0 ≤ s.receiver.burstNleft) (hheader : s.headerLen ≤ sizeofTcpBurstPayload) (hstop : e ≠ .stop)
    (hstep : s.step settings e = some s') : InRound s s' ∨ EndsRound settings s s' := by
  have hsame : InRound s s := ⟨rfl, rfl, hheader⟩
  have hdone : InRound s { s with ended := true } := ⟨rfl, rfl, hheader⟩
  have hclosed : s.readsHeader settings = false → EndsRound settings s ({ s with ended := true }.report settings 0) :=
    fun hdata => .of_report hnonneg rfl rfl hheader (htally.data hdata)
  unfold step at hstep
  split at hstep
  · cases hstep
  · cases e with
    | stop => exact absurd rfl hstop
    | took bytes =>
      dsimp only at hstep
      split at hstep
      · obtain ⟨-, htook⟩ := Option.ite_none_right_eq_some.mp hstep
        cases htook
        exact tookHeader_cases hnonneg hheader bytes
      · rename_i hdata
        rw [Bool.not_eq_true] at hdata
        obtain ⟨⟨-, hlen⟩, htook⟩ := Option.ite_none_right_eq_some.mp hstep
        cases htook
        have hgot : (s.tookData settings bytes).receiver.got = [] := by
          rw [(tookData_receiver bytes hdata).2]
          exact htally.data hdata
        unfold tookData at hgot ⊢
        exact .inr (.of_report (readLen_le hnonneg hnleft hlen) rfl rfl hheader hgot)
    | eof =>
      cases hstep
      split
      · exact .inl hdone
      · rename_i hdata
        exact .inr (hclosed (Bool.not_eq_true _ ▸ hdata))
    | error errno =>
      cases hstep
      split
      · split
        · exact .inl hdone
        · exact .inl hsame
      · rename_i hdata
        split
        · exact .inr (hclosed (Bool.not_eq_true _ ▸ hdata))
        · exact .inr <| .of_report (by omega) rfl rfl hheader (htally.data (Bool.not_eq_true _ ▸ hdata))

/-- The bytes that the socket gave, when those of the round are not counted yet. -/
theorem Tallied.received_le (htally : Tallied settings firstreadbytes s) (hheader : s.headerLen ≤ sizeofTcpBurstPayload) :
    (s.receiver.received : Int) ≤ s.totLen + sizeofTcpBurstPayload + s.nonFatal := by
  have htotLen := htally.totLen
  cases hreads : s.readsHeader settings with
  | true =>
    have hround := htally.round hreads
    have hgot := htally.got
    omega
  | false =>
    have hgot := htally.data hreads
    rw [hgot, List.length_nil] at htotLen
    omega

end

end ByteServer

/-! ## The tokens of a round -/

namespace RateReader

/-- The tokens of the loop, and what they paid for. -/
def bucket (s : RateReader) : Account Rat where
  time := secs s.time1
  tokens := s.tokens
  used := s.server.totLen

/-- What holds between the start and a state: the bytes are counted, and the tokens pay for them, for those of a header and
a buffer when the round is over. -/
structure Books (settings : ReadRate) (firstreadbytes : Nat) (s₀ s : RateReader) : Prop where
  within : Within settings.bytesPerSec s₀.bucket s.bucket
  tallied : s.server.Tallied settings.read firstreadbytes
  headerLen : s.server.headerLen ≤ sizeofTcpBurstPayload
  reading : s.reading = true → 0 ≤ s.tokens
  between : s.reading = false → -(sizeofTcpBurstPayload + settings.read.mBufLen : Int) ≤ s.tokens ∧
    s.server.headerLen = 0 ∧ s.server.receiver.got = []

section
variable {settings : ReadRate} {firstreadbytes : Nat} {s₀ s s' : RateReader}

theorem Books.start (hnonneg : 0 ≤ settings.read.mBufLen) (burstInfo : Buf) (constructed : Timeval) :
    Books settings firstreadbytes (init burstInfo firstreadbytes constructed)
      (init burstInfo firstreadbytes constructed) where
  within := .refl _ _
  tallied := .start burstInfo firstreadbytes
  headerLen := Nat.zero_le _
  reading := nofun
  between := by
    have hdebt : -(sizeofTcpBurstPayload + settings.read.mBufLen : Int) ≤ 0 := by omega
    have hcast : ((-(sizeofTcpBurstPayload + settings.read.mBufLen : Int) : Int) : Rat) ≤ 0 := by exact_mod_cast hdebt
    refine fun _ => ⟨hcast.trans ?_, rfl, rfl⟩
    show (0 : Rat) ≤ 4 / 1000000
    norm_num

/-- A loop adds tokens. -/
theorem Books.loop (h : Books settings firstreadbytes s₀ s) {time2 : Timeval}
    (hstep : s.step settings (.loop time2) = some s') : Books settings firstreadbytes s₀ s' := by
  unfold step at hstep
  obtain ⟨⟨hreading, -, hclock⟩, hsome⟩ := Option.ite_none_right_eq_some.mp hstep
  obtain ⟨hroom, hheader, hgot⟩ := h.between hreading
  cases hsome
  refine ⟨?_, h.tallied, h.headerLen, fun hpays => of_decide_eq_true hpays, fun _ => ⟨?_, hheader, hgot⟩⟩
  · have hcredit := h.within.credit (secs time2)
    have htokens : s.tokens + subSec time2 s.time1 * (settings.mAppRate / 8) =
        s.bucket.tokens + settings.bytesPerSec * (secs time2 - s.bucket.time) := by
      rw [subSec_eq, mul_comm]
      rfl
    unfold bucket
    rw [htokens]
    exact hcredit
  · have hrate : (0 : Rat) ≤ settings.mAppRate / 8 := by positivity
    have hcredit : 0 ≤ subSec time2 s.time1 * (settings.mAppRate / 8) := by
      rw [subSec_eq]
      exact mul_nonneg (sub_nonneg.mpr hclock) hrate
    show _ ≤ s.tokens + subSec time2 s.time1 * (settings.mAppRate / 8)
    linarith

/-- A system call of a round. -/
theorem Books.call (hnonneg : 0 ≤ settings.read.mBufLen) (h : Books settings firstreadbytes s₀ s) {e : RecvEvent}
    (hstop : e ≠ .stop) (hnleft : 0 ≤ s.server.receiver.burstNleft) (hreading : s.reading = true)
    (hcall : s.runCall settings e = some s') : Books settings firstreadbytes s₀ s' := by
  obtain ⟨server, hserver, hs'⟩ := Option.map_eq_some_iff.mp hcall
  have hpays := h.reading hreading
  have htallied := h.tallied.next hserver
  have hwithin := h.within.use ((server.totLen - s.server.totLen : Int) : Rat)
  cases hs'
  have hbooks : Within settings.bytesPerSec s₀.bucket
      ({ s with server, tokens := s.tokens - (server.totLen - s.server.totLen : Int) } : RateReader).bucket := by
    have hused : ((s.server.totLen : Rat)) + ((server.totLen - s.server.totLen : Int) : Rat) = server.totLen := by
      push_cast
      ring
    unfold bucket at hwithin ⊢
    rw [hused] at hwithin
    exact hwithin
  rcases ByteServer.round_cases h.tallied hnonneg hnleft h.headerLen hstop hserver with hround | hends
  · have hsame : (server.packetLens.length == s.server.packetLens.length) = true := by
      rw [hround.packetLens, beq_self_eq_true]
    refine ⟨hbooks, htallied, hround.headerLen, fun _ => ?_, fun hover => ?_⟩
    · show 0 ≤ s.tokens - (server.totLen - s.server.totLen : Int)
      rw [hround.totLen, sub_self, Int.cast_zero, sub_zero]
      exact hpays
    · rw [hsame] at hover
      cases hover
  · have hother : (server.packetLens.length == s.server.packetLens.length) = false :=
      beq_eq_false_iff_ne.mpr hends.packetLens
    refine ⟨hbooks, htallied, ?_, fun hmore => ?_, fun _ => ⟨?_, hends.headerLen, hends.got⟩⟩
    · show server.headerLen ≤ _
      rw [hends.headerLen]
      exact Nat.zero_le _
    · rw [hother] at hmore
      cases hmore
    · have hcount : server.totLen - s.server.totLen ≤ sizeofTcpBurstPayload + settings.read.mBufLen := by
        have := hends.totLen
        omega
      have hcast : ((server.totLen - s.server.totLen : Int) : Rat) ≤
          ((sizeofTcpBurstPayload + settings.read.mBufLen : Int) : Rat) := by exact_mod_cast hcount
      show _ ≤ s.tokens - ((server.totLen - s.server.totLen : Int) : Rat)
      push_cast at hcast ⊢
      linarith

/-- The end of the traffic, between two rounds. -/
theorem Books.stop (h : Books settings firstreadbytes s₀ s) (hstep : s.step settings (.call .stop) = some s') :
    Books settings firstreadbytes s₀ s' := by
  unfold step at hstep
  dsimp only at hstep
  split at hstep
  · cases hstep
  · obtain ⟨server, hserver, hs'⟩ := Option.map_eq_some_iff.mp hstep
    have htallied := h.tallied.next hserver
    unfold ByteServer.step at hserver
    split at hserver
    · cases hserver
    · obtain ⟨-, hended⟩ := Option.ite_none_right_eq_some.mp hserver
      cases hended
      cases hs'
      exact ⟨h.within, htallied, h.headerLen, h.reading, h.between⟩

/-- **One event keeps the books.** -/
theorem Books.next (hnonneg : 0 ≤ settings.read.mBufLen) (h : Books settings firstreadbytes s₀ s) {e : RateReadEvent}
    (hsized : s.WellSized e) (hstep : s.step settings e = some s') : Books settings firstreadbytes s₀ s' := by
  cases e with
  | loop time2 => exact h.loop hstep
  | call e =>
    by_cases hstop : e = .stop
    · rw [hstop] at hstep
      exact h.stop hstep
    · have hcall : (if s.reading then s.runCall settings e else none) = some s' := by
        cases e with
        | stop => exact absurd rfl hstop
        | took bytes => exact hstep
        | eof => exact hstep
        | error errno => exact hstep
      split at hcall
      · rename_i hreading
        exact h.call hnonneg hstop hsized hreading hcall
      · cases hcall

/-- What the socket gave, at a later time. -/
theorem Books.received_le (hnonneg : 0 ≤ settings.read.mBufLen) {burstInfo : Buf} {constructed : Timeval}
    (h : Books settings firstreadbytes (init burstInfo firstreadbytes constructed) s) {t : Timeval}
    (ht : secs s.time1 ≤ secs t) : (s.server.receiver.received : Rat) ≤
      firstTokens + settings.bytesPerSec * (secs t - secs constructed) +
        (sizeofTcpBurstPayload + settings.read.mBufLen + s.server.nonFatal : Int) := by
  have hrate : 0 ≤ settings.bytesPerSec := by
    unfold ReadRate.bytesPerSec
    positivity
  have hlater : settings.bytesPerSec * (secs s.time1 - secs constructed) ≤
      settings.bytesPerSec * (secs t - secs constructed) :=
    mul_le_mul_of_nonneg_left (sub_le_sub_right ht _) hrate
  have hwithin : (s.server.totLen : Rat) + s.tokens ≤
      ((0 : Int) : Rat) + firstTokens + settings.bytesPerSec * (secs s.time1 - secs constructed) := h.within
  cases hreading : s.reading with
  | true =>
    have hpays := h.reading hreading
    have hle := h.tallied.received_le h.headerLen
    have hcast : (s.server.receiver.received : Rat) ≤
        ((s.server.totLen + sizeofTcpBurstPayload + s.server.nonFatal : Int) : Rat) := by exact_mod_cast hle
    have hbuf : (0 : Rat) ≤ settings.read.mBufLen := by exact_mod_cast hnonneg
    push_cast at hcast hwithin ⊢
    linarith
  | false =>
    obtain ⟨hroom, hheader, hgot⟩ := h.between hreading
    have htotLen := h.tallied.totLen
    rw [hgot, hheader, List.length_nil] at htotLen
    have hcast : (s.server.receiver.received : Rat) = ((s.server.totLen + s.server.nonFatal : Int) : Rat) := by
      exact_mod_cast (by push_cast at htotLen ⊢; omega :
        (s.server.receiver.received : Int) = s.server.totLen + s.server.nonFatal)
    push_cast at hcast hwithin hroom ⊢
    linarith

end

end RateReader

open RateReader

def slowServer : ReadRate where
  read := { burstServer with mBufLen := 100 }
  mAppRate := 64

/-- A header and a buffer, the debt of them, and a loop that waits. -/
def slowReads : List RateReadEvent :=
  [.loop ⟨1, 0⟩, .call (.took headerOf200), .call (.error .eagain), .loop ⟨2, 0⟩]

end Iperf2.Traffic
