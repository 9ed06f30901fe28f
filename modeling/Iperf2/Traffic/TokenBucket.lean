import Iperf2.Lib.Bucket
import Iperf2.Traffic.Paced

/-!
# The rate of a TCP client

`Client::RunRateLimitedTCP` holds a TCP client to a rate. Every loop adds the tokens of the time since the one before, and
writes when there is no debt; a write that succeeds pays for its bytes. With `--trip-times` a header may go out in front
of it, by a call of its own. If the write behind the header fails, nobody pays for the header.

* `RateLimited.step` : a loop, or a system call of its iteration;
* `PacedSender.call_cases` : what a system call does;
* `RateLimited.Pays` : a header fits into the iteration, and the write behind it does not fail;
* `RateLimited.Books` : tokens and bytes, for each system call under way; `RateLimited.Books.next`;
* `RateLimited.UnderRate` : the bytes are counted, and no more than the tokens and a buffer;
* `token_bucket` : in the runs that pay for their headers, so in all runs without headers, the bytes stay under the rate.
-/

namespace Iperf2.Traffic
open Report Transition Bucket

/-- The settings of the loop, and its rate in bits per second. -/
structure RateSettings where
  paced : PacedSettings
  isTripTime : Bool
  mAppRate : Nat

/-- The rate in bytes. -/
def RateSettings.bytesPerSec (settings : RateSettings) : Rat := settings.mAppRate / 8

/-- The state of `Client::RunRateLimitedTCP`. `firstUpdate` is the time of the first token update. -/
structure RateLimited where
  sender : PacedSender
  tokens : Rat
  time1 : Timeval
  totLen : Int
  firstUpdate : Option Timeval

/-- What happens to the loop: it adds tokens at `time2` and, if it writes, stamps a header at `now`; the file, the end of
the traffic and the system calls. -/
inductive RateEvent
  | loop (time2 now : Timeval)
  | call (e : PacedEvent)

/-- `Timestamp::subSec` -/
def subSec (left right : Timeval) : Rat :=
  (left.sec - right.sec : Int) + (left.usec - right.usec : Int) / 1000000

/-- A time in seconds. -/
def secs (t : Timeval) : Rat := t.sec + t.usec / 1000000

theorem subSec_eq (left right : Timeval) : subSec left right = secs left - secs right := by
  unfold subSec secs
  push_cast
  ring

namespace RateLimited

/-- The loop starts when `time1` has been constructed. -/
def init (mBuf : Buf) (mAmount : Nat) (packetID : Int) (constructed : Timeval) : RateLimited where
  sender := .init mBuf mAmount packetID
  tokens := 0
  time1 := constructed
  totLen := 0
  firstUpdate := none

/-- The tokens of the time since the loop before. -/
def addTokens (settings : RateSettings) (s : RateLimited) (time2 : Timeval) : RateLimited :=
  { s with
    tokens := s.tokens + subSec time2 s.time1 * (settings.mAppRate / 8)
    time1 := time2
    firstUpdate := s.firstUpdate <|> some time2 }

/-- The iteration of the loop up to its first system call. -/
def startWrite (settings : RateSettings) (s : RateLimited) (now : Timeval) : PacedSender :=
  if settings.isTripTime then s.sender.runRateLimitedTCP settings.paced now
  else { s.sender with call := .write (s.sender.packetLen settings.paced) 0 }

/-- A system call, with the tokens and the total of a write that succeeds. -/
def runCall (settings : RateSettings) (s : RateLimited) (e : PacedEvent) : Option RateLimited :=
  (s.sender.step .rateLimited settings.paced e).map fun called =>
    let sender := { called with
      burstRemaining := if settings.isTripTime then called.burstRemaining else s.sender.burstRemaining }
    match s.sender.call, e with
    | .write _ n, .took len =>
      { s with
        sender
        tokens := s.tokens - (len + n : Nat)
        totLen := s.totLen + (len + n : Nat) }
    | _, _ => { s with sender }

/-- One event of the loop. Without a debt it writes, or else it waits for tokens. The clock does not go back. -/
def step (settings : RateSettings) (s : RateLimited) : RateEvent → Option RateLimited
  | .loop time2 now =>
    if s.sender.ended = false ∧ s.sender.call matches .none ∧ s.sender.inProgress settings.paced ∧
        secs s.time1 ≤ secs time2 then
      let s := s.addTokens settings time2
      some (if s.tokens ≥ 0 then { s with sender := s.startWrite settings now } else s)
    else none
  | .call (.next _) => none
  | .call e => s.runCall settings e

/-- The bytes that the socket accepted. -/
def accepted (s : RateLimited) : Nat := s.sender.sent.length

end RateLimited

/-! ## What a system call does -/

/-- An event of a loop that is not at the start of an iteration, by the system call that it is in. -/
inductive PacedSender.Called (s : PacedSender) : PacedEvent → PacedSender → Prop
  | idle {e s'} (hcall : s.call = .none) (hcall' : s'.call = .none) (sent : s'.sent = s.sent) : Called s e s'
  | tookHeader {w packetLen n s'} (hcall : s.call = .writen w packetLen) (hn : n ≤ w.nleft)
      (hcall' : s'.call = if w.nleft - n = 0 then .write (packetLen - w.inLen) w.inLen
        else .writen { w with nleft := w.nleft - n } packetLen)
      (sent : s'.sent.length = s.sent.length + n) (hruns : s'.ended = false) : Called s (.took n) s'
  | failedHeader {w packetLen errno s'} (hcall : s.call = .writen w packetLen)
      (hcall' : s'.call = s.call ∨ s'.call = .write (packetLen - (w.inLen - w.nleft : Nat)) (w.inLen - w.nleft))
      (sent : s'.sent = s.sent) (hruns : s'.ended = false) : Called s (.error errno) s'
  | took {len n} {k : Nat} {s'} (hcall : s.call = .write len n) (hk : k ≤ len) (hcall' : s'.call = .none)
      (sent : s'.sent.length = s.sent.length + k) : Called s (.took k) s'
  | failed {len n errno s'} (hcall : s.call = .write len n) (hcall' : s'.call = s.call ∨ s'.call = .none)
      (sent : s'.sent = s.sent) : Called s (.error errno) s'

theorem PacedSender.call_cases {loop : PacedLoop} {settings : PacedSettings} {s s' : PacedSender} {e : PacedEvent}
    (hnext : ∀ now, e ≠ .next now) (h : s.step loop settings e = some s') : s.Called e s' := by
  unfold PacedSender.step at h
  split at h
  · cases h
  · rename_i hruns
    rw [Bool.not_eq_true] at hruns
    split at h
    · rename_i hcall
      cases e with
      | fill mBuf =>
        obtain ⟨-, hfill⟩ := Option.ite_none_right_eq_some.mp h
        cases hfill
        exact .idle hcall hcall rfl
      | stop =>
        cases h
        exact .idle hcall hcall rfl
      | next now => exact absurd rfl (hnext now)
      | took n => cases h
      | error errno => cases h
    · rename_i w packetLen hcall
      cases e with
      | took n =>
        obtain ⟨hn, htook⟩ := Option.ite_none_right_eq_some.mp h
        cases htook
        refine .tookHeader hcall hn ?_ ?_ ?_ <;> split
        · rfl
        · rfl
        · simp [PacedSender.written, Buf.window_length]
        · simp [Buf.window_length]
        · exact hruns
        · exact hruns
      | error errno =>
        cases h
        split
        · exact .failedHeader hcall (.inl rfl) rfl hruns
        · exact .failedHeader hcall (.inr rfl) rfl hruns
      | fill mBuf => cases h
      | stop => cases h
      | next now => cases h
    · rename_i len n hcall
      cases e with
      | took k =>
        obtain ⟨hk, htook⟩ := Option.ite_none_right_eq_some.mp h
        cases htook
        refine .took hcall hk rfl ?_
        simp [PacedSender.account, Buf.window_length]
      | error errno =>
        cases h
        split
        · exact .failed hcall (.inl rfl) rfl
        · exact .failed hcall (.inr rfl) rfl
      | fill mBuf => cases h
      | stop => cases h
      | next now => cases h

namespace RateLimited

/-! ## The books of the loop -/

/-- The bytes of the header that no total has yet. -/
def inFlight : PacedCall → Nat
  | .none => 0
  | .writen w _ => w.inLen - w.nleft
  | .write _ n => n

/-- The tokens and bytes of an iteration: no debt until its `write` returns, and at most a buffer for its calls. -/
def Room (mBufLen : Int) (tokens : Rat) : PacedCall → Prop
  | .none => -(mBufLen : Rat) ≤ tokens
  | .writen w packetLen =>
    0 ≤ tokens ∧ w.nleft ≤ w.inLen ∧ (w.inLen - w.nleft : Nat) ≤ packetLen ∧ packetLen ≤ mBufLen
  | .write len n => 0 ≤ tokens ∧ len + n ≤ mBufLen ∧ n ≤ mBufLen

/-- A header takes no more than the iteration may write, and the `write` behind one does not fail. -/
def Pays (s : RateLimited) : RateEvent → Prop
  | .call (.took n) => match s.sender.call with
    | .writen w packetLen => (w.inLen - w.nleft + n : Nat) ≤ packetLen
    | _ => True
  | .call (.error _) => match s.sender.call with
    | .write _ n => n = 0
    | _ => True
  | _ => True

instance decidablePays (s : RateLimited) (e : RateEvent) : Decidable (s.Pays e) := by
  unfold Pays
  split <;> (try split) <;> infer_instance

/-- The tokens of the loop, and what they paid for. -/
def bucket (s : RateLimited) : Account Rat where
  time := secs s.time1
  tokens := s.tokens
  used := s.totLen

/-- Between the start and a state: the account, the bytes that are counted and the iteration under way. -/
structure Books (settings : RateSettings) (s₀ s : RateLimited) : Prop where
  within : Within settings.bytesPerSec s₀.bucket s.bucket
  counted : (s.accepted : Int) = s.totLen + inFlight s.sender.call
  room : Room settings.paced.mBufLen s.tokens s.sender.call
  ended : s.sender.ended = true → inFlight s.sender.call = 0

@[simp] theorem inFlight_none : inFlight .none = 0 := rfl
@[simp] theorem inFlight_writen (w : Writen) (packetLen : Int) : inFlight (.writen w packetLen) = w.inLen - w.nleft := rfl
@[simp] theorem inFlight_write (len : Int) (n : Nat) : inFlight (.write len n) = n := rfl

section
variable {settings : RateSettings} {s₀ s s' : RateLimited}

/-- A loop has no system call under way. -/
theorem step_loop {time2 now : Timeval} (hstep : s.step settings (.loop time2 now) = some s') :
    let filled := s.addTokens settings time2
    s.sender.call = .none ∧ secs s.time1 ≤ secs time2 ∧
      s' = if filled.tokens ≥ 0 then { filled with sender := filled.startWrite settings now } else filled := by
  unfold step at hstep
  obtain ⟨⟨-, hnone, -, hclock⟩, hsome⟩ := Option.ite_none_right_eq_some.mp hstep
  refine ⟨?_, hclock, (Option.some.inj hsome).symm⟩
  split at hnone
  · assumption
  · cases hnone

theorem step_call {e : PacedEvent} (hstep : s.step settings (.call e) = some s') :
    (∀ now, e ≠ .next now) ∧ s.runCall settings e = some s' := by
  unfold step at hstep
  split at hstep
  · rename_i hloop
    cases hloop
  · cases hstep
  · rename_i hnext heq
    cases heq
    exact ⟨hnext, hstep⟩

/-- The first system call of an iteration has no byte of it yet, and at most a buffer to take. -/
theorem startWrite_room (hnonneg : 0 ≤ settings.paced.mBufLen) (hpays : 0 ≤ s.tokens) (now : Timeval) :
    let sender := s.startWrite settings now
    sender.sent = s.sender.sent ∧ sender.ended = s.sender.ended ∧ inFlight sender.call = 0 ∧
      Room settings.paced.mBufLen s.tokens sender.call := by
  have hbounds := PacedSender.packetLen_bounds (s := s.sender) hnonneg
  intro sender
  by_cases htrip : settings.isTripTime = true
  · have hsender : sender = s.sender.runRateLimitedTCP settings.paced now := if_pos htrip
    rw [hsender, PacedSender.runRateLimitedTCP]
    dsimp only
    split
    · exact ⟨rfl, rfl, Nat.sub_self _, hpays, le_rfl, by rw [Nat.sub_self]; exact hbounds.1, hbounds.2⟩
    · refine ⟨rfl, rfl, rfl, hpays, ?_, hnonneg⟩
      have hmin := min_le_left (s.sender.packetLen settings.paced) s.sender.burstRemaining
      push_cast
      omega
  · have hsender : sender = { s.sender with call := .write (s.sender.packetLen settings.paced) 0 } := if_neg htrip
    rw [hsender]
    refine ⟨rfl, rfl, rfl, hpays, ?_, hnonneg⟩
    push_cast
    omega

theorem Books.start (hnonneg : 0 ≤ settings.paced.mBufLen) (mBuf : Buf) (mAmount : Nat) (packetID : Int)
    (constructed : Timeval) :
    Books settings (init mBuf mAmount packetID constructed) (init mBuf mAmount packetID constructed) where
  within := .refl _ _
  counted := rfl
  room := by
    have hcast : (0 : Rat) ≤ settings.paced.mBufLen := by exact_mod_cast hnonneg
    show -(settings.paced.mBufLen : Rat) ≤ 0
    linarith
  ended := fun _ => rfl

/-- The tokens of a loop that is behind the one before it. -/
theorem Books.addTokens (h : Books settings s₀ s) (hcall : s.sender.call = .none) {time2 : Timeval}
    (hclock : secs s.time1 ≤ secs time2) : Books settings s₀ (s.addTokens settings time2) where
  within := by
    have hcredit := h.within.credit (secs time2)
    have htokens : (s.addTokens settings time2).bucket.tokens =
        s.bucket.tokens + settings.bytesPerSec * (secs time2 - s.bucket.time) := by
      show s.tokens + subSec time2 s.time1 * settings.bytesPerSec = _
      rw [subSec_eq, mul_comm]
      rfl
    rw [← htokens] at hcredit
    exact hcredit
  counted := h.counted
  room := by
    have hroom := h.room
    have hrate : 0 ≤ settings.bytesPerSec := by
      unfold RateSettings.bytesPerSec
      positivity
    have hcredit : 0 ≤ subSec time2 s.time1 * settings.bytesPerSec := by
      rw [subSec_eq]
      exact mul_nonneg (sub_nonneg.mpr hclock) hrate
    show Room _ (s.tokens + subSec time2 s.time1 * settings.bytesPerSec) s.sender.call
    rw [hcall] at hroom ⊢
    exact le_add_of_le_of_nonneg hroom hcredit
  ended := h.ended

/-- The start of a write, without a debt. -/
theorem Books.startWrite (hnonneg : 0 ≤ settings.paced.mBufLen) (h : Books settings s₀ s)
    (hcall : s.sender.call = .none) (hpays : 0 ≤ s.tokens) (now : Timeval) :
    Books settings s₀ { s with sender := s.startWrite settings now } := by
  obtain ⟨hsent, -, hinFlight, hroom⟩ := startWrite_room hnonneg hpays now
  have hcounted := h.counted
  rw [hcall] at hcounted
  refine ⟨h.within, ?_, hroom, fun _ => hinFlight⟩
  show ((s.startWrite settings now).sent.length : Int) = s.totLen + _
  rw [hsent, hinFlight]
  exact hcounted

/-- A loop. -/
theorem Books.loop (hnonneg : 0 ≤ settings.paced.mBufLen) (h : Books settings s₀ s) {time2 now : Timeval}
    (hstep : s.step settings (.loop time2 now) = some s') : Books settings s₀ s' := by
  obtain ⟨hcall, hclock, rfl⟩ := step_loop hstep
  have hfilled := h.addTokens hcall hclock
  split
  · rename_i hpays
    exact hfilled.startWrite hnonneg hcall hpays now
  · exact hfilled

/-- A system call whose bytes are paid for. -/
theorem Books.call (h : Books settings s₀ s) {e : PacedEvent} (hnext : ∀ now, e ≠ .next now)
    (hpays : s.Pays (.call e)) (hcall : s.runCall settings e = some s') : Books settings s₀ s' := by
  obtain ⟨called, hcalled, hs'⟩ := Option.map_eq_some_iff.mp hcall
  have hcounted := h.counted
  have hroom := h.room
  unfold accepted at hcounted
  unfold Pays at hpays
  cases PacedSender.call_cases hnext hcalled with
  | idle hnone hcall' sent =>
    rw [hnone] at hs' hcounted hroom
    cases hs'
    refine ⟨h.within, ?_, ?_, fun _ => ?_⟩
    · show (called.sent.length : Int) = s.totLen + inFlight called.call
      rw [sent, hcall']
      exact hcounted
    · show Room _ s.tokens called.call
      rw [hcall']
      exact hroom
    · show inFlight called.call = 0
      rw [hcall']
      rfl
  | @tookHeader w packetLen n _ hwriten hn hcall' sent hruns =>
    rw [hwriten] at hs' hcounted hroom hpays
    cases hs'
    obtain ⟨htokens, hnleft, hfits, hpacketLen⟩ := hroom
    dsimp only at hpays
    have hinFlight : inFlight called.call = w.inLen - w.nleft + n := by
      rw [hcall']
      split
      · rw [inFlight_write]
        omega
      · rw [inFlight_writen]
        dsimp only
        omega
    refine ⟨h.within, ?_, ?_, fun hended => ?_⟩
    · show (called.sent.length : Int) = s.totLen + inFlight called.call
      rw [inFlight_writen] at hcounted
      rw [sent, hinFlight]
      push_cast
      omega
    · show Room _ s.tokens called.call
      rw [hcall']
      split
      · refine ⟨htokens, ?_, ?_⟩
        · omega
        · omega
      · refine ⟨htokens, (Nat.sub_le ..).trans hnleft, ?_, hpacketLen⟩
        dsimp only
        omega
    · exact absurd (hended : called.ended = true) (by rw [hruns]; exact Bool.false_ne_true)
  | @failedHeader w packetLen errno _ hwriten hcall' sent hruns =>
    rw [hwriten] at hs' hcounted hroom hcall'
    cases hs'
    obtain ⟨htokens, hnleft, hfits, hpacketLen⟩ := hroom
    have hinFlight : inFlight called.call = w.inLen - w.nleft := by
      rcases hcall' with hsame | hwrite <;> simp only [*, inFlight]
    refine ⟨h.within, ?_, ?_, fun hended => ?_⟩
    · show (called.sent.length : Int) = s.totLen + inFlight called.call
      rw [sent, hinFlight]
      exact hcounted
    · show Room _ s.tokens called.call
      rcases hcall' with hsame | hwrite
      · rw [hsame]
        exact ⟨htokens, hnleft, hfits, hpacketLen⟩
      · rw [hwrite]
        refine ⟨htokens, ?_, ?_⟩
        · omega
        · omega
    · exact absurd (hended : called.ended = true) (by rw [hruns]; exact Bool.false_ne_true)
  | @took len n k _ hwrite hk hcall' sent =>
    rw [hwrite] at hs' hcounted hroom
    cases hs'
    obtain ⟨htokens, hfits, hn⟩ := hroom
    refine ⟨?_, ?_, ?_, fun _ => ?_⟩
    · have huse := h.within.use ((k + n : Nat) : Rat)
      have hused : ((s.totLen + (k + n : Nat) : Int) : Rat) = s.totLen + ((k + n : Nat) : Rat) := by push_cast; ring
      unfold bucket
      rw [hused]
      exact huse
    · show (called.sent.length : Int) = s.totLen + (k + n : Nat) + inFlight called.call
      rw [inFlight_write] at hcounted
      rw [sent, hcall', inFlight_none]
      push_cast
      omega
    · show Room _ (s.tokens - (k + n : Nat)) called.call
      have htook : ((k + n : Nat) : Rat) ≤ settings.paced.mBufLen := by
        exact_mod_cast (by push_cast; omega : ((k + n : Nat) : Int) ≤ settings.paced.mBufLen)
      rw [hcall']
      unfold Room
      linarith
    · show inFlight called.call = 0
      rw [hcall']
      rfl
  | @failed len n errno _ hwrite hcall' sent =>
    rw [hwrite] at hs' hcounted hroom hpays hcall'
    cases hs'
    obtain ⟨htokens, hfits, hn⟩ := hroom
    obtain rfl : n = 0 := hpays
    have hinFlight : inFlight called.call = 0 := by
      rcases hcall' with hsame | hnone <;> simp only [*, inFlight]
    refine ⟨h.within, ?_, ?_, fun _ => hinFlight⟩
    · show (called.sent.length : Int) = s.totLen + inFlight called.call
      rw [sent, hinFlight]
      exact hcounted
    · show Room _ s.tokens called.call
      rcases hcall' with hsame | hnone
      · rw [hsame]
        exact ⟨htokens, hfits, hn⟩
      · have hbuf : (0 : Rat) ≤ settings.paced.mBufLen := by exact_mod_cast hn
        rw [hnone]
        unfold Room
        linarith

/-- **One event keeps the books.** -/
theorem Books.next (hnonneg : 0 ≤ settings.paced.mBufLen) (h : Books settings s₀ s) {e : RateEvent} (hpays : s.Pays e)
    (hstep : s.step settings e = some s') : Books settings s₀ s' := by
  cases e with
  | loop time2 now => exact h.loop hnonneg hstep
  | call e =>
    obtain ⟨hnext, hcall⟩ := step_call hstep
    exact h.call hnext hpays hcall

/-- The bytes of the calls under way are less than the tokens and a buffer. -/
theorem Books.inFlight_le (h : Books settings s₀ s) :
    (inFlight s.sender.call : Rat) ≤ s.tokens + settings.paced.mBufLen := by
  have hroom := h.room
  revert hroom
  cases s.sender.call with
  | none =>
    intro hroom
    have howed : -(settings.paced.mBufLen : Rat) ≤ s.tokens := hroom
    rw [inFlight_none]
    push_cast
    linarith
  | writen w packetLen =>
    rintro ⟨htokens, -, hfits, hpacketLen⟩
    have hbytes : ((w.inLen - w.nleft : Nat) : Rat) ≤ settings.paced.mBufLen := by
      exact_mod_cast hfits.trans hpacketLen
    rw [inFlight_writen]
    linarith
  | write len n =>
    rintro ⟨htokens, -, hn⟩
    have hbytes : (n : Rat) ≤ settings.paced.mBufLen := by exact_mod_cast hn
    rw [inFlight_write]
    linarith

/-- Without headers every run pays for what it writes. -/
def NoHeader (s : RateLimited) : Prop := s.sender.call = .none ∨ ∃ len, s.sender.call = .write len 0

theorem NoHeader.pays (h : s.NoHeader) (e : RateEvent) : s.Pays e := by
  unfold Pays
  rcases h with hcall | ⟨len, hcall⟩ <;> rw [hcall] <;> split <;> trivial

theorem NoHeader.next (htrip : settings.isTripTime = false) (h : s.NoHeader) {e : RateEvent}
    (hstep : s.step settings e = some s') : s'.NoHeader := by
  cases e with
  | loop time2 now =>
    obtain ⟨hcall, -, rfl⟩ := step_loop hstep
    split
    · exact .inr ⟨_, congrArg PacedSender.call (if_neg (by rw [htrip]; exact Bool.false_ne_true))⟩
    · exact .inl hcall
  | call e =>
    obtain ⟨hnext, hcall⟩ := step_call hstep
    obtain ⟨called, hcalled, hs'⟩ := Option.map_eq_some_iff.mp hcall
    have hsame : s'.sender.call = called.call := by
      rw [← hs']
      cases s.sender.call <;> cases e <;> rfl
    unfold NoHeader at h ⊢
    rw [hsame]
    cases PacedSender.call_cases hnext hcalled with
    | idle hnone hcall' sent => exact .inl hcall'
    | tookHeader hwriten hn hcall' sent hruns => simp [hwriten] at h
    | failedHeader hwriten hcall' sent hruns => simp [hwriten] at h
    | took hwrite hk hcall' sent => exact .inl hcall'
    | failed hwrite hcall' sent =>
      rcases hcall' with hcall' | hcall' <;> rw [hcall']
      · exact h
      · exact .inl rfl

end

/-- The bytes are counted. At any later time they are no more than the tokens since `time1` was constructed and a buffer:
the tokens of the first update, those since then, and a buffer. -/
structure UnderRate (settings : RateSettings) (constructed : Timeval) (s : RateLimited) : Prop where
  totLen : s.sender.call = .none ∨ s.sender.ended = true → s.totLen = s.accepted
  accepted : ∀ t, secs s.time1 ≤ secs t →
    s.accepted ≤ settings.bytesPerSec * (secs t - secs constructed) + settings.paced.mBufLen
  sinceFirst : ∀ first t, s.firstUpdate = some first → secs s.time1 ≤ secs t →
    s.accepted ≤ settings.bytesPerSec * subSec first constructed + settings.bytesPerSec * (secs t - secs first) +
      settings.paced.mBufLen

section
variable {settings : RateSettings} {mBuf : Buf} {mAmount : Nat} {packetID : Int} {constructed : Timeval} {s : RateLimited}

theorem Books.underRate (h : Books settings (init mBuf mAmount packetID constructed) s) :
    s.UnderRate settings constructed := by
  have hcounted := h.counted
  have haccepted : ∀ t, secs s.time1 ≤ secs t →
      s.accepted ≤ settings.bytesPerSec * (secs t - secs constructed) + settings.paced.mBufLen := by
    intro t ht
    have hwithin := h.within
    have hinFlight := h.inFlight_le
    have hrate : 0 ≤ settings.bytesPerSec := by
      unfold RateSettings.bytesPerSec
      positivity
    have hlater : settings.bytesPerSec * (secs s.time1 - secs constructed) ≤
        settings.bytesPerSec * (secs t - secs constructed) :=
      mul_le_mul_of_nonneg_left (sub_le_sub_right ht _) hrate
    have hsum : (s.accepted : Rat) = s.totLen + inFlight s.sender.call := by exact_mod_cast hcounted
    have howed : -((settings.paced.mBufLen : Rat) - inFlight s.sender.call) ≤ s.bucket.tokens := by
      show _ ≤ s.tokens
      linarith
    have hused : (s.totLen : Rat) ≤ ((0 : Int) : Rat) + 0 + settings.bytesPerSec * (secs s.time1 - secs constructed) +
        (settings.paced.mBufLen - inFlight s.sender.call) := hwithin.used_le howed
    push_cast at hused
    linarith
  refine ⟨fun hdone => ?_, haccepted, fun first t _ ht => ?_⟩
  · have hnone : inFlight s.sender.call = 0 := by
      rcases hdone with hcall | hended
      · rw [hcall, inFlight_none]
      · exact h.ended hended
    omega
  · have hsplit : settings.bytesPerSec * subSec first constructed + settings.bytesPerSec * (secs t - secs first) =
        settings.bytesPerSec * (secs t - secs constructed) := by
      rw [subSec_eq]
      ring
    rw [hsplit]
    exact haccepted t ht

end

end RateLimited

open RateLimited

def slowClient : RateSettings where
  paced := { pacedAmount with modeAmount := false }
  isTripTime := true
  mAppRate := 64

/-- A header with its 8 bytes, and the debt of it. -/
def paidHeader : List RateEvent :=
  [.loop ⟨1, 0⟩ ⟨1, 0⟩, .call (.took 92), .call (.took 8), .loop ⟨2, 0⟩ ⟨2, 0⟩]

/-- The `write` behind a header would block, twice. -/
def blockedPayload : List RateEvent :=
  [.loop ⟨1, 0⟩ ⟨1, 0⟩, .call (.took 92), .call (.error .eagain), .loop ⟨1, 0⟩ ⟨1, 0⟩, .call (.took 8),
    .loop ⟨2, 0⟩ ⟨2, 0⟩, .call (.took 92), .call (.error .eagain)]

end Iperf2.Traffic
