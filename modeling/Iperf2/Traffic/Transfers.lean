import Iperf2.Lib.Transfer
import Iperf2.Traffic.Burst

/-!
# Transfers of a number of bytes

`recvn` and `writen` repeat a system call until `inLen` bytes are moved. What the system gives with each call, a count
or an error, is an input, and so are the bytes that the peer sends: a call that returns is the list of the results that
it gets. With `MSG_PEEK` the bytes stay in the socket and every `recv` starts over.

* `RecvnLoop.step`, `WritenLoop.step` : one system call;
* `RecvnLoop.run_moves`, `WritenLoop.run_moves` : the loops are transfers in rounds;
* `exact_transfers` : what both of them move and return;
* `recvn_writen` : `recvn` gives the buffer that `writen` took;
* `recvn_peek` : a peek leaves the stream as it is.
-/

namespace Iperf2.Traffic
open Transition Transfer

/-- The result of a system call: a count, or `SOCKET_ERROR` and an `errno`. -/
inductive CallResult
  | count (n : Nat)
  | error (errno : TcpErrno)
  deriving DecidableEq

namespace CallResult

def fatal : CallResult → Bool
  | .count _ => false
  | .error errno => errno.fatal

/-- The bytes of a call. -/
def size : CallResult → Nat
  | .count n => n
  | .error _ => 0

end CallResult

/-- How many bytes the calls moved. -/
def moved : List CallResult → Nat
  | [] => 0
  | call :: calls => call.size + moved calls

/-! ## The loops -/

/-- The variables of `recvn`, with the buffer and the bytes that are still to come from the peer. -/
structure RecvnLoop where
  ptr : Nat
  nleft : Int
  nread : Int
  outBuf : Buf
  incoming : List Byte
  done : Bool

namespace RecvnLoop

/-- A `recv` and the `switch` behind it. It gives no more than `nleft` bytes, and none that the peer did not send. -/
def round (inLen : Int) (s : RecvnLoop) : CallResult → Option RecvnLoop
  | .error errno =>
    some (if errno.fatal then { s with
      nread := -1
      done := true }
    else { s with nread := inLen - s.nleft })
  | .count n =>
    -- the peer closed
    if n = 0 then some { s with
      nread := inLen - s.nleft
      done := true }
    else if n ≤ s.nleft ∧ n ≤ s.incoming.length then some { s with
      ptr := s.ptr + n
      nleft := s.nleft - n
      nread := inLen - (s.nleft - n)
      outBuf := s.outBuf.store s.ptr (s.incoming.take n)
      incoming := s.incoming.drop n }
    else none

/-- `while (nleft > 0)` -/
def finished (s : RecvnLoop) : Bool := s.done || decide (s.nleft ≤ 0)

def step (inLen : Int) (s : RecvnLoop) (call : CallResult) : Option RecvnLoop :=
  if s.finished then none else s.round inLen call

/-- The same with `MSG_PEEK`: the result of `recv` stays in `nread`. -/
def peekRound (s : RecvnLoop) : CallResult → Option RecvnLoop
  | .error errno =>
    some { s with
      nread := -1
      done := errno.fatal }
  | .count n =>
    if n = 0 then some { s with
      nread := 0
      done := true }
    else if n ≤ s.nleft ∧ n ≤ s.incoming.length then some { s with
      nread := n
      outBuf := s.outBuf.store s.ptr (s.incoming.take n) }
    else none

/-- `while (nleft != nread)` -/
def peekOver (s : RecvnLoop) : Bool := s.done || decide (s.nleft = s.nread)

def peekStep (s : RecvnLoop) (call : CallResult) : Option RecvnLoop := if s.peekOver then none else s.peekRound call

def start (inLen : Int) (outBuf : Buf) (incoming : List Byte) : RecvnLoop where
  ptr := 0
  nleft := inLen
  nread := 0
  outBuf
  incoming
  done := false

end RecvnLoop

/-- `recvn` : the state in which it returns, if `calls` are the results it gets up to there. -/
def recvn (peek : Bool) (inLen : Int) (outBuf : Buf) (incoming : List Byte) (calls : List CallResult) :
    Option RecvnLoop :=
  -- `assert(inLen > 0)`
  if inLen > 0 then
    let s := RecvnLoop.start inLen outBuf incoming
    if peek then (run RecvnLoop.peekStep Any s calls).filter (·.peekOver)
    else (run (RecvnLoop.step inLen) Any s calls).filter (·.finished)
  else none

/-- The variables of `writen`, with the bytes that the socket took. -/
structure WritenLoop where
  ptr : Nat
  nleft : Int
  nwritten : Int
  sent : List Byte
  done : Bool

namespace WritenLoop

/-- A `write` and the `switch` behind it. It takes no more than `nleft` bytes. -/
def round (inBuf : Buf) (inLen : Int) (s : WritenLoop) : CallResult → Option WritenLoop
  | .error errno =>
    some (if !(errno = .eintr) || errno = .eagain then { s with
      nwritten := inLen - s.nleft
      done := true }
    else { s with nwritten := inLen - s.nleft })
  | .count n =>
    -- write timeout - retry
    if n = 0 then some { s with nwritten := inLen - s.nleft }
    else if n ≤ s.nleft then some { s with
      ptr := s.ptr + n
      nleft := s.nleft - n
      nwritten := inLen - (s.nleft - n)
      sent := s.sent ++ inBuf.window s.ptr n }
    else none

def finished (s : WritenLoop) : Bool := s.done || decide (s.nleft ≤ 0)

def step (inBuf : Buf) (inLen : Int) (s : WritenLoop) (call : CallResult) : Option WritenLoop :=
  if s.finished then none else s.round inBuf inLen call

def start (inLen : Int) : WritenLoop where
  ptr := 0
  nleft := inLen
  nwritten := 0
  sent := []
  done := false

end WritenLoop

/-- `writen` : the state in which it returns, if `calls` are the results it gets up to there. -/
def writen (inBuf : Buf) (inLen : Int) (calls : List CallResult) : Option WritenLoop :=
  -- `assert(inLen > 0)`
  if inLen > 0 then (run (WritenLoop.step inBuf inLen) Any (.start inLen) calls).filter (·.finished) else none

/-! ## A receive is a transfer -/

/-- What a `recv` is for the transfer. -/
def CallResult.received : CallResult → Round
  | .error errno => if errno.fatal then .stop else .again
  | .count n => if n = 0 then .stop else .move n

namespace RecvnLoop
variable {inLen : Int} {s s' : RecvnLoop} {call : CallResult} {calls : List CallResult}

/-- What a call does: it fails, for good or not, finds the end of the stream, or gives bytes. -/
theorem step_cases (h : s.step inLen call = some s') :
    (∃ errno, call = .error errno ∧ errno.fatal = true ∧ s' = { s with nread := -1, done := true }) ∨
    (∃ errno, call = .error errno ∧ errno.fatal = false ∧ s' = { s with nread := inLen - s.nleft }) ∨
    (call = .count 0 ∧ s' = { s with nread := inLen - s.nleft, done := true }) ∨
    ∃ n : Nat, call = .count n ∧ 0 < n ∧ n ≤ s.nleft ∧ n ≤ s.incoming.length ∧ s' = { s with
      ptr := s.ptr + n
      nleft := s.nleft - n
      nread := inLen - (s.nleft - n)
      outBuf := s.outBuf.store s.ptr (s.incoming.take n)
      incoming := s.incoming.drop n } := by
  rw [step] at h
  split at h
  · cases h
  · cases call with
    | error errno =>
      cases hfatal : errno.fatal with
      | true => exact .inl ⟨errno, rfl, hfatal, by simpa [round, hfatal] using h.symm⟩
      | false => exact .inr (.inl ⟨errno, rfl, hfatal, by simpa [round, hfatal] using h.symm⟩)
    | count n =>
      simp only [round] at h
      split at h
      · rename_i hzero
        exact .inr (.inr (.inl ⟨by rw [hzero], by simpa using h.symm⟩))
      · split at h
        · rename_i hpos hle
          exact .inr (.inr (.inr ⟨n, rfl, Nat.pos_of_ne_zero hpos, hle.1, hle.2, by simpa using h.symm⟩))
        · cases h

theorem nleft_pos (h : s.step inLen call = some s') : 0 < s.nleft := by
  rw [step] at h
  split at h
  · cases h
  · rename_i hover
    simp only [finished, Bool.or_eq_true, decide_eq_true_eq, not_or] at hover
    omega

theorem run_done (hdone : s.done = true) (h : run (step inLen) Any s calls = some s') : calls = [] ∧ s' = s := by
  refine run_of_stuck _ _ (fun a => ?_) h
  rw [step, finished, hdone, Bool.true_or, if_pos rfl]

/-- Bytes of a stream that are stored in two pieces, one behind the other. -/
theorem store_take_add (b : Buf) (o : Nat) {xs : List Byte} {n : Nat} (hle : n ≤ xs.length) (m : Nat) :
    (b.store o (xs.take n)).store (o + n) ((xs.drop n).take m) = b.store o (xs.take (n + m)) := by
  have hstore := Buf.store_append b o (xs.take n) ((xs.drop n).take m)
  rw [List.length_take_of_le hle] at hstore
  rw [hstore, List.take_add]

/-- From a round on, the loop is a transfer of what is left. -/
theorem run_moves (h : run (step inLen) Any s calls = some s') (hover : s'.finished = true) (hdone : s.done = false)
    (hleft : 0 ≤ s.nleft) (hnread : s.nread = inLen - s.nleft) :
    ∃ n, Moves s.nleft.toNat (calls.map (·.received)) n ∧ n ≤ s.incoming.length ∧
      s'.outBuf = s.outBuf.store s.ptr (s.incoming.take n) ∧ s'.incoming = s.incoming.drop n ∧
      s'.nread = if calls.any (·.fatal) then -1 else inLen - s.nleft + n := by
  induction calls generalizing s with
  | nil =>
    obtain rfl : s = s' := Option.some.inj h
    rw [finished, hdone, Bool.false_or, decide_eq_true_eq] at hover
    have hzero : s.nleft = 0 := by omega
    refine ⟨0, ?_, Nat.zero_le _, ?_, rfl, ?_⟩
    · rw [hzero]
      exact .finish
    · rw [List.take_zero, Buf.store_nil]
    · rw [hnread, List.any_nil]
      simp
  | cons call calls ih =>
    obtain ⟨-, mid, hstep, hrest⟩ := (run_cons _ _).mp h
    have hpos : 0 < s.nleft.toNat := by
      have := nleft_pos hstep
      omega
    rcases step_cases hstep with ⟨errno, rfl, hfatal, rfl⟩ | ⟨errno, rfl, hfatal, rfl⟩ | ⟨rfl, rfl⟩ |
      ⟨n, rfl, hn, hle, hincoming, rfl⟩
    · -- a fatal error
      obtain ⟨rfl, rfl⟩ := run_done rfl hrest
      refine ⟨0, ?_, Nat.zero_le _, ?_, rfl, ?_⟩
      · simpa [CallResult.received, hfatal] using Moves.stop hpos
      · rw [List.take_zero, Buf.store_nil]
      · simp [CallResult.fatal, hfatal]
    · -- the call is repeated
      obtain ⟨n, hmoves, hn, hbuf, hstream, hret⟩ := ih hrest hdone hleft rfl
      refine ⟨n, ?_, hn, hbuf, hstream, ?_⟩
      · simpa [CallResult.received, hfatal] using Moves.again hpos hmoves
      · simpa [CallResult.fatal, hfatal] using hret
    · -- the end of the stream
      obtain ⟨rfl, rfl⟩ := run_done rfl hrest
      refine ⟨0, ?_, Nat.zero_le _, ?_, rfl, ?_⟩
      · simpa [CallResult.received] using Moves.stop hpos
      · rw [List.take_zero, Buf.store_nil]
      · simp [CallResult.fatal]
    · -- bytes behind those that are there
      obtain ⟨m, hmoves, hm, hbuf, hstream, hret⟩ := ih hrest hdone (by simpa using hle) rfl
      refine ⟨n + m, ?_, ?_, ?_, ?_, ?_⟩
      · have hmoves' : Moves (s.nleft.toNat - n) (calls.map (·.received)) m := by
          rwa [show s.nleft.toNat - n = (s.nleft - n).toNat by omega]
        simpa [CallResult.received, Nat.ne_of_gt hn] using Moves.move hn (by omega) hmoves'
      · rw [List.length_drop] at hm
        omega
      · rw [hbuf]
        exact store_take_add s.outBuf s.ptr hincoming m
      · rw [hstream, List.drop_drop]
      · rw [hret, List.any_cons, CallResult.fatal, Bool.false_or]
        split
        · rfl
        · push_cast
          omega

end RecvnLoop

theorem CallResult.size_received (call : CallResult) : call.received.size = call.size := by
  unfold received size
  cases call with
  | error errno =>
    dsimp only
    split <;> rfl
  | count n =>
    dsimp only
    split
    · rename_i hzero
      rw [hzero]
      rfl
    · rfl

/-! ## A send is a transfer -/

/-- What a `write` is for the transfer. -/
def CallResult.sent : CallResult → Round
  | .error errno => if errno = .eintr then .again else .stop
  | .count n => if n = 0 then .again else .move n

theorem CallResult.size_sent (call : CallResult) : call.sent.size = call.size := by
  unfold sent size
  cases call with
  | error errno =>
    dsimp only
    split <;> rfl
  | count n =>
    dsimp only
    split
    · rename_i hzero
      rw [hzero]
      rfl
    · rfl

/-- Bytes that are counted by the rounds of the calls. -/
theorem total_map {f : CallResult → Round} (hf : ∀ call, (f call).size = call.size) (calls : List CallResult) :
    total (calls.map f) = moved calls := by
  induction calls with
  | nil => rfl
  | cons call calls ih => rw [List.map_cons, total_cons, moved, hf, ih]

namespace WritenLoop
variable {inBuf : Buf} {inLen : Int} {s s' : WritenLoop} {call : CallResult} {calls : List CallResult}

/-- What a call does: it fails for good, takes nothing, or takes bytes. -/
theorem step_cases (h : s.step inBuf inLen call = some s') :
    (∃ errno, call = .error errno ∧ errno ≠ .eintr ∧ s' = { s with nwritten := inLen - s.nleft, done := true }) ∨
    ((call = .error .eintr ∨ call = .count 0) ∧ s' = { s with nwritten := inLen - s.nleft }) ∨
    ∃ n : Nat, call = .count n ∧ 0 < n ∧ n ≤ s.nleft ∧ s' = { s with
      ptr := s.ptr + n
      nleft := s.nleft - n
      nwritten := inLen - (s.nleft - n)
      sent := s.sent ++ inBuf.window s.ptr n } := by
  rw [step] at h
  split at h
  · cases h
  · cases call with
    | error errno =>
      by_cases heintr : errno = .eintr
      · refine .inr (.inl ⟨.inl (by rw [heintr]), ?_⟩)
        simpa [round, heintr] using h.symm
      · exact .inl ⟨errno, rfl, heintr, by simpa [round, heintr] using h.symm⟩
    | count n =>
      simp only [round] at h
      split at h
      · rename_i hzero
        exact .inr (.inl ⟨.inr (by rw [hzero]), by simpa using h.symm⟩)
      · split at h
        · rename_i hpos hle
          exact .inr (.inr ⟨n, rfl, Nat.pos_of_ne_zero hpos, hle, by simpa using h.symm⟩)
        · cases h

theorem nleft_pos (h : s.step inBuf inLen call = some s') : 0 < s.nleft := by
  rw [step] at h
  split at h
  · cases h
  · rename_i hover
    simp only [finished, Bool.or_eq_true, decide_eq_true_eq, not_or] at hover
    omega

theorem run_done (hdone : s.done = true) (h : run (step inBuf inLen) Any s calls = some s') :
    calls = [] ∧ s' = s := by
  refine run_of_stuck _ _ (fun a => ?_) h
  rw [step, finished, hdone, Bool.true_or, if_pos rfl]

/-- From a round on, the loop is a transfer of what is left. -/
theorem run_moves (h : run (step inBuf inLen) Any s calls = some s') (hover : s'.finished = true)
    (hdone : s.done = false) (hleft : 0 ≤ s.nleft) (hnwritten : s.nwritten = inLen - s.nleft) :
    ∃ n, Moves s.nleft.toNat (calls.map (·.sent)) n ∧ s'.sent = s.sent ++ inBuf.window s.ptr n ∧
      s'.nwritten = inLen - s.nleft + n := by
  induction calls generalizing s with
  | nil =>
    obtain rfl : s = s' := Option.some.inj h
    rw [finished, hdone, Bool.false_or, decide_eq_true_eq] at hover
    have hzero : s.nleft = 0 := by omega
    refine ⟨0, ?_, (List.append_nil _).symm, ?_⟩
    · rw [hzero]
      exact .finish
    · rw [hnwritten]
      simp
  | cons call calls ih =>
    obtain ⟨-, mid, hstep, hrest⟩ := (run_cons _ _).mp h
    have hpos : 0 < s.nleft.toNat := by
      have := nleft_pos hstep
      omega
    rcases step_cases hstep with ⟨errno, rfl, heintr, rfl⟩ | ⟨hcall, rfl⟩ | ⟨n, rfl, hn, hle, rfl⟩
    · -- an error that ends the loop
      obtain ⟨rfl, rfl⟩ := run_done rfl hrest
      refine ⟨0, ?_, (List.append_nil _).symm, ?_⟩
      · simpa [CallResult.sent, heintr] using Moves.stop hpos
      · simp
    · -- the call is repeated
      obtain ⟨n, hmoves, hsent, hret⟩ := ih hrest hdone hleft rfl
      refine ⟨n, ?_, hsent, hret⟩
      have hagain : call.sent = .again := by
        rcases hcall with rfl | rfl <;> rfl
      rw [List.map_cons, hagain]
      exact .again hpos hmoves
    · -- bytes behind those that are taken
      obtain ⟨m, hmoves, hsent, hret⟩ := ih hrest hdone (by simpa using hle) rfl
      refine ⟨n + m, ?_, ?_, ?_⟩
      · have hmoves' : Moves (s.nleft.toNat - n) (calls.map (·.sent)) m := by
          rwa [show s.nleft.toNat - n = (s.nleft - n).toNat by omega]
        simpa [CallResult.sent, Nat.ne_of_gt hn] using Moves.move hn (by omega) hmoves'
      · rw [hsent, List.append_assoc, ← Buf.window_append]
      · rw [hret]
        push_cast
        omega

end WritenLoop

/-! ## What is moved -/

/-- What `recvn` did with the stream and its buffer, and what it returned. -/
structure ExactRecvn (inLen : Int) (outBuf : Buf) (incoming : List Byte) (calls : List CallResult) (s : RecvnLoop) :
    Prop where
  buffer : s.outBuf = outBuf.store 0 (incoming.take (moved calls))
  stream : s.incoming = incoming.drop (moved calls)
  le_length : moved calls ≤ incoming.length
  le_inLen : moved calls ≤ inLen
  nread : s.nread ≠ -1 → s.nread = moved calls
  fatal : s.nread = -1 ↔ ∃ call ∈ calls, call.fatal = true
  full : (∀ call ∈ calls, call.fatal = false) → .count 0 ∉ calls → s.nread = inLen

/-- What `writen` sent, and what it returned. -/
structure ExactWriten (inBuf : Buf) (inLen : Int) (calls : List CallResult) (s : WritenLoop) : Prop where
  sent : s.sent = inBuf.window 0 (moved calls)
  le_inLen : moved calls ≤ inLen
  nwritten : s.nwritten = moved calls
  full : (∀ errno, .error errno ∈ calls → errno = .eintr) → s.nwritten = inLen

theorem recvn_exact {inLen : Int} {outBuf : Buf} {incoming : List Byte} {calls : List CallResult} {s : RecvnLoop}
    (h : recvn false inLen outBuf incoming calls = some s) : ExactRecvn inLen outBuf incoming calls s := by
  unfold recvn at h
  split at h
  · rename_i hpos
    obtain ⟨hrun, hover⟩ := Option.filter_eq_some_iff.mp h
    obtain ⟨n, hmoves, hlen, hbuf, hstream, hret⟩ := RecvnLoop.run_moves hrun hover rfl (Int.le_of_lt hpos)
      (Int.sub_self inLen).symm
    obtain rfl : n = moved calls := hmoves.eq_total.trans (total_map CallResult.size_received calls)
    have hle := hmoves.le
    have hinLen : (RecvnLoop.start inLen outBuf incoming).nleft = inLen := rfl
    rw [hinLen] at hmoves hle hret
    rw [Int.sub_self, Int.zero_add] at hret
    refine ⟨hbuf, hstream, hlen, by omega, ?_, ?_, ?_⟩
    · intro hne
      split at hret
      · exact absurd hret hne
      · exact hret
    · rw [← List.any_eq_true]
      split at hret
      · rename_i hany
        exact iff_of_true hret hany
      · rename_i hany
        exact iff_of_false (by omega) hany
    · intro hfatal heof
      have hany : calls.any (·.fatal) = false := by simpa using hfatal
      have hstop : .stop ∉ calls.map (·.received) := by
        intro hmem
        obtain ⟨call, hcall, hround⟩ := List.mem_map.mp hmem
        cases call with
        | error errno =>
          have herrno : errno.fatal = false := hfatal _ hcall
          simp [CallResult.received, herrno] at hround
        | count n =>
          by_cases hn : n = 0
          · rw [hn] at hcall
            exact heof hcall
          · simp [CallResult.received, hn] at hround
      have hfull := hmoves.full hstop
      rw [hret, hany, if_neg Bool.false_ne_true, hfull]
      exact Int.toNat_of_nonneg (Int.le_of_lt hpos)
  · cases h

theorem writen_exact {inBuf : Buf} {inLen : Int} {calls : List CallResult} {s : WritenLoop}
    (h : writen inBuf inLen calls = some s) : ExactWriten inBuf inLen calls s := by
  unfold writen at h
  split at h
  · rename_i hpos
    obtain ⟨hrun, hover⟩ := Option.filter_eq_some_iff.mp h
    obtain ⟨n, hmoves, hsent, hret⟩ := WritenLoop.run_moves hrun hover rfl (Int.le_of_lt hpos)
      (Int.sub_self inLen).symm
    obtain rfl : n = moved calls := hmoves.eq_total.trans (total_map CallResult.size_sent calls)
    have hle := hmoves.le
    have hinLen : (WritenLoop.start inLen).nleft = inLen := rfl
    rw [hinLen] at hmoves hle hret
    rw [Int.sub_self, Int.zero_add] at hret
    refine ⟨hsent, by omega, hret, ?_⟩
    intro heintr
    have hstop : .stop ∉ calls.map (·.sent) := by
      intro hmem
      obtain ⟨call, hcall, hround⟩ := List.mem_map.mp hmem
      cases call with
      | error errno => simp [CallResult.sent, heintr errno hcall] at hround
      | count n => by_cases hn : n = 0 <;> simp [CallResult.sent, hn] at hround
    have hfull := hmoves.full hstop
    rw [hret, hfull]
    exact Int.toNat_of_nonneg (Int.le_of_lt hpos)
  · cases h

/-- `recvn` and `writen` move what the calls moved, in order, and return how much that is. -/
theorem exact_transfers (inLen : Int) (buf : Buf) (incoming : List Byte) (calls : List CallResult) :
    (∀ s, recvn false inLen buf incoming calls = some s → ExactRecvn inLen buf incoming calls s) ∧
    (∀ s, writen buf inLen calls = some s → ExactWriten buf inLen calls s) :=
  ⟨fun _ => recvn_exact, fun _ => writen_exact⟩

/-- A short count, an interrupt and a timeout on both sides. -/
theorem exact_transfers_retried :
    (∃ s, recvn false 3 Buf.zero [1, 2, 3, 4] [.count 1, .error .eintr, .error .eagain, .count 2] = some s ∧
      ExactRecvn 3 Buf.zero [1, 2, 3, 4] [.count 1, .error .eintr, .error .eagain, .count 2] s) ∧
    ∃ s, writen Buf.zero 3 [.count 0, .count 1, .error .eintr, .count 2] = some s ∧
      ExactWriten Buf.zero 3 [.count 0, .count 1, .error .eintr, .count 2] s :=
  ⟨⟨_, rfl, (exact_transfers _ _ _ _).1 _ rfl⟩, ⟨_, rfl, (exact_transfers _ _ [] _).2 _ rfl⟩⟩

/-! ## Both sides -/

/-- What one side writes without an error the other side reads, whatever the pieces are. -/
theorem recvn_writen {inBuf outBuf : Buf} {inLen : Int} {rest : List Byte} {writes reads : List CallResult}
    {sender : WritenLoop} {receiver : RecvnLoop} (hwriten : writen inBuf inLen writes = some sender)
    (hfull : sender.nwritten = inLen) (hrecvn : recvn false inLen outBuf (sender.sent ++ rest) reads = some receiver)
    (hread : receiver.nread = inLen) (hpos : 0 ≤ inLen) :
    receiver.outBuf = outBuf.store 0 (inBuf.window 0 inLen.toNat) ∧ receiver.incoming = rest := by
  have hw := writen_exact hwriten
  have hr := recvn_exact hrecvn
  have hmoved : moved writes = inLen.toNat := by
    have := hw.nwritten
    omega
  have hmoved' : moved reads = inLen.toNat := by
    have := hr.nread (by omega)
    omega
  have hlen : sender.sent.length = inLen.toNat := by rw [hw.sent, Buf.window_length, hmoved]
  refine ⟨?_, ?_⟩
  · rw [hr.buffer, hmoved', List.take_left' hlen, hw.sent, hmoved]
  · rw [hr.stream, hmoved', List.drop_left' hlen]

/-! ## Peeking -/

namespace RecvnLoop

/-- What a peek leaves in the socket and in the buffer. -/
structure Peeked (inLen : Int) (stream : List Byte) (s : RecvnLoop) : Prop where
  incoming : s.incoming = stream
  ptr : s.ptr = 0
  nleft : s.nleft = inLen
  nread : s.nread ≤ 0 ∨ s.outBuf.window 0 s.nread.toNat = stream.take s.nread.toNat

theorem Peeked.step {inLen : Int} {stream : List Byte} {s s' : RecvnLoop} {call : CallResult}
    (peeked : Peeked inLen stream s) (h : s.peekStep call = some s') : Peeked inLen stream s' := by
  rw [peekStep] at h
  split at h
  · cases h
  · cases call with
    | error errno =>
      simp only [peekRound, Option.some.injEq] at h
      subst h
      exact ⟨peeked.incoming, peeked.ptr, peeked.nleft, .inl (show (-1 : Int) ≤ 0 by decide)⟩
    | count n =>
      simp only [peekRound] at h
      split at h
      · cases h
        exact ⟨peeked.incoming, peeked.ptr, peeked.nleft, .inl (Int.le_refl 0)⟩
      · split at h
        · rename_i hle
          cases h
          refine ⟨peeked.incoming, peeked.ptr, peeked.nleft, .inr ?_⟩
          have hlen : (s.incoming.take n).length = n := List.length_take_of_le hle.2
          have hwindow := Buf.window_store_of_le s.outBuf 0 (s.incoming.take n) (n := 0) (m := n) (by omega)
          rw [List.drop_zero, List.take_of_length_le (Nat.le_of_eq hlen)] at hwindow
          rw [peeked.ptr, Int.toNat_natCast, ← peeked.incoming]
          exact hwindow
        · cases h

end RecvnLoop

/-- A peek that returns `inLen` has the start of the stream in the buffer, and nothing is taken from the stream. -/
theorem recvn_peek {inLen : Int} {outBuf : Buf} {incoming : List Byte} {calls : List CallResult} {s : RecvnLoop}
    (h : recvn true inLen outBuf incoming calls = some s) :
    s.incoming = incoming ∧
      (s.nread = inLen → s.outBuf.window 0 inLen.toNat = incoming.take inLen.toNat) := by
  unfold recvn at h
  split at h
  · rename_i hpos
    have hrun := (Option.filter_eq_some_iff.mp h).1
    have hpeeked : RecvnLoop.Peeked inLen incoming s :=
      (Reachable.of_run _ _ .start hrun).invariant ⟨rfl, rfl, rfl, .inl (Int.le_refl 0)⟩
        fun _ _ _ peeked _ hstep => peeked.step hstep
    refine ⟨hpeeked.incoming, fun hnread => ?_⟩
    rcases hpeeked.nread with hle | hwindow
    · omega
    · rwa [hnread] at hwindow
  · cases h

end Iperf2.Traffic
