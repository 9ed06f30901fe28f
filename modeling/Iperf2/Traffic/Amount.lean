import Iperf2.Traffic.Burst

/-!
# TCP tests of an amount

With `-n`, `Client::RunTCP` counts `mAmount` down by what its writes take and stops when it is zero. A write without
bursts is limited to the amount that is left. With bursts the limit is what is left of the burst, so the amount is kept
as long as every burst fits into it.

* `AmountSender.step` : the loop of `Traffic.Burst` with its amount, and the loop without bursts;
* `AmountSender.issued` : how much the next system call asks for;
* `AmountSender.Exact` : what is sent and what is left are the amount, and no call asks for more;
* `AmountSender.Fits` : a burst that starts has room in the amount that is left;
* `AmountSender.Tally` : the bytes of each call under way; `Tally.next`;
* `tcp_amount` : runs whose bursts fit are exact, and no others with more than a header in a write.
-/

namespace Iperf2.Traffic
open Report Transition

/-- What the loop reads of the settings. `mBufLen` is an `int`. -/
structure AmountSettings where
  mBufLen : BitVec 32
  isburst : Bool
  fileInput : Bool
  startTime : Timeval

/-- The buffer length as the bursts use it: no bytes are taken of a negative one. -/
def AmountSettings.tcp (settings : AmountSettings) : TcpSettings where
  mBufLen := settings.mBufLen.toInt.toNat
  startTime := settings.startTime

/-- The state of `Client::RunTCP` with `-n`. -/
structure AmountSender where
  sender : TcpSender
  mAmount : Nat

/-- An iteration without bursts. A `write` that takes nothing says that the peer is closed, which ends the loop unless it
sends a file. -/
def TcpSender.write (fileInput : Bool) (writelen : BitVec 32) (s : TcpSender) (e : SendEvent) : Option TcpSender :=
  if s.ended then none
  else match e with
  | .fill mBuf => some { s with mBuf }
  | .stop => some { s with ended := true }
  | .burst .. => none
  | .took n =>
    if n ≤ writelen.toInt then
      some { s with
        ended := n = 0 ∧ fileInput = false
        sent := s.sent + n }
    else none
  | .error errno => some (if errno.fatal then { s with ended := true } else s)

/-- The `packetLen` of the iteration that an event completes: what a `write` took, or what a `writen` returns. -/
def TcpSender.packetLen (s : TcpSender) (e : SendEvent) : Nat :=
  match s.writen, e with
  | none, .took n => n
  | some w, .took n => if w.nleft - n = 0 then w.inLen else 0
  | some w, .error errno => if errno = .eintr then 0 else w.inLen - w.nleft
  | _, _ => 0

theorem TcpSender.packetLen_took {s : TcpSender} (hwriten : s.writen = none) (n : Nat) : s.packetLen (.took n) = n := by
  unfold TcpSender.packetLen
  rw [hwriten]

theorem TcpSender.packetLen_idle {s : TcpSender} (hwriten : s.writen = none) {e : SendEvent} (he : ∀ n, e ≠ .took n) :
    s.packetLen e = 0 := by
  unfold TcpSender.packetLen
  rw [hwriten]
  cases e with
  | took n => exact absurd rfl (he n)
  | fill mBuf => rfl
  | stop => rfl
  | burst size tick now => rfl
  | error errno => rfl

/-- The size of a burst, not below the minimum. -/
def TcpSender.burstSize (size : BitVec 32) : Int :=
  if size.toInt < sizeofTcpBurstPayload then (sizeofTcpBurstPayload : Int) else size.toInt

/-- An event of the loop with bursts, by what it does to the bytes that are counted. A `writen` that returns less than a
header ends the program. -/
inductive TcpSender.Counts (settings : TcpSettings) (s : TcpSender) : SendEvent → TcpSender → Prop
  | idle {e s'} (hwriten : s.writen = none) (hwriten' : s'.writen = none) (sent : s'.sent = s.sent)
      (remaining : s'.burstRemaining = s.burstRemaining) (hlen : s.packetLen e = 0) : Counts settings s e s'
  | burst {size tick now s'} (hwriten : s.writen = none)
      (hwriten' : ∃ len, s'.writen = some ⟨len, len⟩ ∧ len ≤ settings.mBufLen ∧ (len : Int) ≤ s'.burstRemaining)
      (sent : s'.sent = s.sent) (remaining : s'.burstRemaining = burstSize size) :
      Counts settings s (.burst size tick now) s'
  | took {n : Nat} {s'} (hwriten : s.writen = none) (hn : n ≤ s.burstRemaining) (hwriten' : s'.writen = none)
      (sent : s'.sent = s.sent + n) (remaining : s'.burstRemaining = s.burstRemaining - n) :
      Counts settings s (.took n) s'
  | tookHeader {w n s'} (hwriten : s.writen = some w) (hn : n ≤ w.nleft)
      (hwriten' : s'.writen = some { w with nleft := w.nleft - n }) (sent : s'.sent = s.sent + n)
      (remaining : s'.burstRemaining = s.burstRemaining) (hlen : s.packetLen (.took n) = 0) :
      Counts settings s (.took n) s'
  | retry {w e} (hwriten : s.writen = some w) (hlen : s.packetLen e = 0) : Counts settings s e s
  | returned {w n e s'} (hwriten : s.writen = some w) (hn : n ≤ w.nleft) (sent : s'.sent = s.sent + n)
      (hlen : s.packetLen e = w.inLen - w.nleft + n)
      (hs' : s'.writen = none ∧ s'.burstRemaining = s.burstRemaining - (w.inLen - w.nleft + n : Nat) ∨
        s'.writen.isSome ∧ s'.ended = true) : Counts settings s e s'

theorem TcpSender.written_returned (s : TcpSender) {w : Writen} (hwriten : s.writen = some w) (k : Nat) :
    (s.written k).sent = s.sent ∧ ((s.written k).writen = none ∧ (s.written k).burstRemaining = s.burstRemaining - k ∨
      (s.written k).writen.isSome ∧ (s.written k).ended = true) := by
  unfold TcpSender.written
  split
  · exact ⟨rfl, .inr ⟨by rw [hwriten]; rfl, rfl⟩⟩
  · exact ⟨rfl, .inl ⟨rfl, rfl⟩⟩

/-- A burst starts when the one before it is done. -/
theorem TcpSender.step_starts {settings : TcpSettings} {s s' : TcpSender} {size : BitVec 32} {tick : Option (BitVec 32)}
    {now : Timeval} {data : List Byte} (h : s.step settings (.burst size tick now) = some (s', data)) :
    s.ended = false ∧ s.writen = none ∧ ¬ s.burstRemaining > 0 ∧ s' = s.startBurst settings size tick now := by
  unfold TcpSender.step at h
  split at h
  · cases h
  · rename_i hruns
    split at h
    · rename_i hwriten
      obtain ⟨hdone, hsome⟩ := Option.ite_none_left_eq_some.mp h
      cases hsome
      exact ⟨Bool.not_eq_true _ ▸ hruns, hwriten, hdone, rfl⟩
    · cases h

theorem TcpSender.step_counts {settings : TcpSettings} {s : TcpSender} {e : SendEvent}
    {s' : TcpSender} {data : List Byte} (hvalid : ∀ w, s.writen = some w → w.nleft ≤ w.inLen)
    (h : s.step settings e = some (s', data)) : s.Counts settings e s' := by
  unfold TcpSender.step at h
  split at h
  · cases h
  · split at h
    · rename_i hwriten
      cases e with
      | fill mBuf =>
        cases h
        exact .idle hwriten hwriten rfl rfl (TcpSender.packetLen_idle hwriten fun _ => by simp)
      | stop =>
        cases h
        exact .idle hwriten hwriten rfl rfl (TcpSender.packetLen_idle hwriten fun _ => by simp)
      | burst size tick now =>
        obtain ⟨-, hburst⟩ := Option.ite_none_left_eq_some.mp h
        cases hburst
        have hmin := (burstSize_bounds size).1
        refine .burst hwriten ⟨_, rfl, Nat.min_le_left .., ?_⟩ rfl rfl
        change (sizeofTcpBurstPayload : Int) ≤ TcpSender.burstSize size at hmin
        show ((min settings.mBufLen (TcpSender.burstSize size).toNat : Nat) : Int) ≤ TcpSender.burstSize size
        have hright := Nat.min_le_right settings.mBufLen (TcpSender.burstSize size).toNat
        omega
      | took n =>
        obtain ⟨hn, htook⟩ := Option.ite_none_right_eq_some.mp h
        split at htook
        · rename_i hzero
          cases htook
          exact .idle hwriten hwriten rfl rfl ((TcpSender.packetLen_took hwriten n).trans hzero)
        · cases htook
          exact .took hwriten (by omega) hwriten rfl rfl
      | error errno =>
        obtain ⟨-, herror⟩ := Option.ite_none_right_eq_some.mp h
        cases herror
        have hlen : s.packetLen (.error errno) = 0 := TcpSender.packetLen_idle hwriten fun _ => by simp
        split
        · exact .idle hwriten hwriten rfl rfl hlen
        · exact .idle hwriten hwriten rfl rfl hlen
    · rename_i w hwriten
      have hnleft := hvalid w hwriten
      cases e with
      | took n =>
        obtain ⟨hn, htook⟩ := Option.ite_none_right_eq_some.mp h
        cases htook
        split
        · rename_i hdone
          obtain ⟨hsent, hreturned⟩ := TcpSender.written_returned
            { s with
              writen := some { w with nleft := w.nleft - n }
              sent := s.sent + n } rfl w.inLen
          have hall : w.inLen = w.inLen - w.nleft + n := by omega
          refine .returned hwriten hn hsent ?_ ?_
          · simp only [TcpSender.packetLen, hwriten, hdone, if_true]
            exact hall
          · rw [← hall]
            exact hreturned
        · rename_i hmore
          exact .tookHeader hwriten hn rfl rfl rfl (by simp only [TcpSender.packetLen, hwriten, hmore, if_false])
      | error errno =>
        cases h
        split
        · rename_i heintr
          exact .retry hwriten (by simp only [TcpSender.packetLen, hwriten, heintr, if_true])
        · rename_i hfails
          obtain ⟨hsent, hreturned⟩ := TcpSender.written_returned s hwriten (w.inLen - w.nleft)
          exact .returned hwriten (Nat.zero_le _) hsent
            (by simp only [TcpSender.packetLen, hwriten, hfails, if_false, Nat.add_zero]) hreturned
      | fill mBuf => cases h
      | stop => cases h
      | burst size tick now => cases h

namespace AmountSender

/-- At the start of the loop, with the buffer and the packet id that the first payload left. -/
def init (mBuf : Buf) (packetID : Int) (mAmount : Nat) : AmountSender where
  sender := (BurstStream.init mBuf mBuf packetID).client
  mAmount

/-- `Client::InProgress`, but for the clock, the interrupt and the peer's close. -/
def inProgress (settings : AmountSettings) (s : AmountSender) : Bool :=
  settings.fileInput || !(s.mAmount == 0)

/-- The write length from the amount that is left, in `int`s. -/
def writelen (settings : AmountSettings) (s : AmountSender) : BitVec 32 :=
  if s.mAmount < settings.mBufLen.toNat then BitVec.ofNat 32 s.mAmount else settings.mBufLen

/-- One event of the loop. It looks at the amount when no call is under way. -/
def step (settings : AmountSettings) (s : AmountSender) (e : SendEvent) : Option AmountSender :=
  let goesOn := match s.sender.writen, e with
    | none, .burst .. => s.inProgress settings
    | none, .took _ => s.inProgress settings
    | none, .error _ => s.inProgress settings
    | _, _ => true
  if goesOn then
    let called := if settings.isburst then (s.sender.step settings.tcp e).map (·.1)
      else s.sender.write settings.fileInput (s.writelen settings) e
    -- `mAmount` may be unsigned, so don't let it underflow
    called.map fun sender => ⟨sender, s.mAmount - s.sender.packetLen e⟩
  else none

/-- What the next system call asks for, as a `size_t`. -/
def issued (settings : AmountSettings) (s : AmountSender) : Nat :=
  match s.sender.writen with
  | some w => w.nleft
  | none =>
    if s.inProgress settings then
      if settings.isburst then min settings.tcp.mBufLen s.sender.burstRemaining.toNat
      else (BitVec.ofInt 64 (s.writelen settings).toInt).toNat
    else 0

/-- Between the calls what is sent and what is left are the amount, so all of it is sent when the loop stops on it. No call
asks for more than is left. -/
structure Exact (settings : AmountSettings) (amount : Nat) (s : AmountSender) : Prop where
  total : s.sender.writen = none → s.sender.sent + s.mAmount = amount
  within : s.sender.ended = false → s.sender.sent + s.issued settings ≤ amount

/-- A burst that starts fits into the amount that is left. -/
def Fits (s : AmountSender) : SendEvent → Prop
  | .burst size _ _ => TcpSender.burstSize size ≤ s.mAmount
  | _ => True

instance decidableFits (s : AmountSender) : (e : SendEvent) → Decidable (s.Fits e)
  | .burst size _ _ => inferInstanceAs (Decidable (TcpSender.burstSize size ≤ s.mAmount))
  | .fill _ => .isTrue trivial
  | .stop => .isTrue trivial
  | .took _ => .isTrue trivial
  | .error _ => .isTrue trivial

/-- All bursts have this size. -/
def Sized (size : BitVec 32) (_ : AmountSender) : SendEvent → Prop
  | .burst size' _ _ => size' = size
  | _ => True

/-- No amount up to this one makes a negative `int` of the write length. -/
def LengthOk (settings : AmountSettings) (amount : Nat) : Prop :=
  0 ≤ settings.mBufLen.toInt ∨ amount < 2 ^ 31 ∧ amount < settings.mBufLen.toNat

/-! ## With bursts -/

/-- The bytes of the loop with bursts: what is left of the burst is no more than what is left of the amount. What a `writen`
has sent is subtracted from both when it returns. -/
structure Tally (amount : Nat) (s : AmountSender) : Prop where
  idle : s.sender.writen = none → s.sender.sent + s.mAmount = amount ∧ s.sender.burstRemaining ≤ s.mAmount
  writing : s.sender.ended = false → ∀ w, s.sender.writen = some w → w.nleft ≤ w.inLen ∧
    s.sender.sent + s.mAmount = amount + (w.inLen - w.nleft) ∧ (w.inLen : Int) ≤ s.sender.burstRemaining ∧
      s.sender.burstRemaining ≤ s.mAmount

section
variable {settings : AmountSettings} {amount : Nat} {s s' : AmountSender} {e : SendEvent}

/-- A step is one of the loop without the amount. -/
theorem step_burst (hburst : settings.isburst = true) (h : s.step settings e = some s') :
    s.sender.ended = false ∧ ∃ sender data, s.sender.step settings.tcp e = some (sender, data) ∧
      s' = ⟨sender, s.mAmount - s.sender.packetLen e⟩ := by
  unfold AmountSender.step at h
  obtain ⟨-, hcalled⟩ := Option.ite_none_right_eq_some.mp h
  rw [if_pos hburst] at hcalled
  obtain ⟨sender, hsender, hs'⟩ := Option.map_eq_some_iff.mp hcalled
  obtain ⟨⟨sender, data⟩, hstep, rfl⟩ := Option.map_eq_some_iff.mp hsender
  refine ⟨?_, sender, data, hstep, hs'.symm⟩
  unfold TcpSender.step at hstep
  split at hstep
  · cases hstep
  · rename_i hruns
    exact Bool.not_eq_true _ ▸ hruns

theorem Tally.start (mBuf : Buf) (packetID : Int) (amount : Nat) : Tally amount (init mBuf packetID amount) where
  idle := fun _ => ⟨Nat.zero_add amount, Int.natCast_nonneg amount⟩
  writing := fun _ w hw => by cases hw

/-- **A loop whose bursts fit keeps the tally.** -/
theorem Tally.next (hburst : settings.isburst = true) (h : Tally amount s) (hfits : s.Fits e)
    (hstep : s.step settings e = some s') : Tally amount s' := by
  obtain ⟨hruns, sender, data, hsender, rfl⟩ := step_burst hburst hstep
  have hcounts := TcpSender.step_counts (fun w hw => (h.writing hruns w hw).1) hsender
  cases hcounts with
  | idle hwriten hwriten' sent remaining hlen =>
    obtain ⟨htotal, hroom⟩ := h.idle hwriten
    refine ⟨fun _ => ?_, fun _ w hw => ?_⟩
    · rw [sent, remaining, hlen]
      exact ⟨htotal, hroom⟩
    · rw [hwriten'] at hw
      cases hw
  | @burst size tick now _ hwriten hwriten' sent remaining =>
    obtain ⟨htotal, -⟩ := h.idle hwriten
    obtain ⟨len, hwriten', -, hlen⟩ := hwriten'
    have hnone : s.sender.packetLen (.burst size tick now) = 0 := TcpSender.packetLen_idle hwriten fun _ => by simp
    refine ⟨fun hidle => ?_, fun _ w hw => ?_⟩
    · rw [hwriten'] at hidle
      cases hidle
    · rw [hwriten'] at hw
      cases hw
      dsimp only
      rw [sent, hnone, Nat.sub_self, remaining]
      exact ⟨le_rfl, htotal, remaining ▸ hlen, hfits⟩
  | @took n _ hwriten hn hwriten' sent remaining =>
    obtain ⟨htotal, hroom⟩ := h.idle hwriten
    have hlen := TcpSender.packetLen_took hwriten n
    refine ⟨fun _ => ?_, fun _ w hw => ?_⟩
    · dsimp only
      rw [sent, remaining, hlen]
      omega
    · rw [hwriten'] at hw
      cases hw
  | tookHeader hwriten hn hwriten' sent remaining hlen =>
    obtain ⟨hnleft, htotal, hinLen, hroom⟩ := h.writing hruns _ hwriten
    refine ⟨fun hidle => ?_, fun _ w hw => ?_⟩
    · rw [hwriten'] at hidle
      cases hidle
    · rw [hwriten'] at hw
      cases hw
      dsimp only
      rw [sent, remaining, hlen]
      omega
  | retry hwriten hlen =>
    rw [hlen]
    exact h
  | returned hwriten hn sent hlen hs' =>
    obtain ⟨hnleft, htotal, hinLen, hroom⟩ := h.writing hruns _ hwriten
    rcases hs' with ⟨hwriten', remaining⟩ | ⟨hwriten', hended⟩
    · refine ⟨fun _ => ?_, fun _ w hw => ?_⟩
      · dsimp only
        rw [sent, remaining, hlen]
        omega
      · rw [hwriten'] at hw
        cases hw
    · refine ⟨fun hidle => ?_, fun hruns' => ?_⟩
      · rw [hidle] at hwriten'
        cases hwriten'
      · rw [hended] at hruns'
        cases hruns'

theorem Tally.exact (hburst : settings.isburst = true) (h : Tally amount s) : s.Exact settings amount where
  total := fun hwriten => (h.idle hwriten).1
  within := fun hruns => by
    unfold issued
    split
    · rename_i w hwriten
      obtain ⟨hnleft, htotal, hinLen, hroom⟩ := h.writing hruns w hwriten
      omega
    · rename_i hwriten
      obtain ⟨htotal, hroom⟩ := h.idle hwriten
      have hmin := Nat.min_le_right settings.tcp.mBufLen s.sender.burstRemaining.toNat
      rw [if_pos hburst]
      split
      · omega
      · omega

/-! ## Without bursts -/

omit settings e s' in
theorem LengthOk.mono {settings : AmountSettings} {left : Nat} (h : LengthOk settings amount) (hle : left ≤ amount) :
    LengthOk settings left := by
  unfold LengthOk at *
  omega

/-- The write length is not negative, and no more than the amount that is left. -/
theorem writelen_bounds (h : LengthOk settings s.mAmount) :
    0 ≤ (s.writelen settings).toInt ∧ (s.writelen settings).toInt ≤ s.mAmount := by
  have hunsigned : 0 ≤ settings.mBufLen.toInt → settings.mBufLen.toInt = settings.mBufLen.toNat ∧
      settings.mBufLen.toNat < 2 ^ 31 := fun hnonneg => by
    have hlt : settings.mBufLen.toInt < 2147483648 := BitVec.toInt_lt
    have hmsb := BitVec.toInt_eq_toNat_cond settings.mBufLen
    have hwidth := settings.mBufLen.isLt
    split at hmsb <;> omega
  unfold writelen
  unfold LengthOk at h
  split
  · rename_i hless
    have hsmall : s.mAmount < 2 ^ 31 := by
      rcases h with hnonneg | ⟨hsmall, -⟩
      · exact hless.trans (hunsigned hnonneg).2
      · exact hsmall
    have hvalue : (BitVec.ofNat 32 s.mAmount).toInt = s.mAmount := by
      have hmod : (BitVec.ofNat 32 s.mAmount).toNat = s.mAmount := Nat.mod_eq_of_lt (by omega)
      rw [BitVec.toInt_eq_toNat_of_lt (by omega), hmod]
    rw [hvalue]
    omega
  · rename_i hmore
    have hnonneg : 0 ≤ settings.mBufLen.toInt := by
      rcases h with hnonneg | ⟨-, hless⟩
      · exact hnonneg
      · exact absurd hless hmore
    have hint := (hunsigned hnonneg).1
    omega

/-- A loop without bursts has no call under way between its events. -/
structure Plain (amount : Nat) (s : AmountSender) : Prop where
  writen : s.sender.writen = none
  total : s.sender.sent + s.mAmount = amount

/-- **A loop without bursts takes what it counts.** -/
theorem Plain.next (hburst : settings.isburst = false) (hlength : LengthOk settings amount) (h : Plain amount s)
    (hstep : s.step settings e = some s') : Plain amount s' := by
  have htotal := h.total
  have hbounds := writelen_bounds (hlength.mono (by omega : s.mAmount ≤ amount))
  unfold AmountSender.step at hstep
  obtain ⟨-, hcalled⟩ := Option.ite_none_right_eq_some.mp hstep
  rw [if_neg (by rw [hburst]; exact Bool.false_ne_true)] at hcalled
  obtain ⟨sender, hwrite, rfl⟩ := Option.map_eq_some_iff.mp hcalled
  unfold TcpSender.write at hwrite
  split at hwrite
  · cases hwrite
  · cases e with
    | fill mBuf =>
      cases hwrite
      refine ⟨h.writen, ?_⟩
      simp only [TcpSender.packetLen, h.writen]
      exact htotal
    | stop =>
      cases hwrite
      refine ⟨h.writen, ?_⟩
      simp only [TcpSender.packetLen, h.writen]
      exact htotal
    | burst size tick now => cases hwrite
    | took n =>
      obtain ⟨hn, htook⟩ := Option.ite_none_right_eq_some.mp hwrite
      cases htook
      refine ⟨h.writen, ?_⟩
      simp only [TcpSender.packetLen, h.writen]
      omega
    | error errno =>
      cases hwrite
      refine ⟨?_, ?_⟩
      · split
        · exact h.writen
        · exact h.writen
      · simp only [TcpSender.packetLen, h.writen]
        split
        · exact htotal
        · exact htotal

theorem Plain.exact (hburst : settings.isburst = false) (hlength : LengthOk settings amount) (h : Plain amount s) :
    s.Exact settings amount where
  total := fun _ => h.total
  within := fun _ => by
    have htotal := h.total
    have hbounds := writelen_bounds (hlength.mono (by omega : s.mAmount ≤ amount))
    have hsize : (BitVec.ofInt 64 (s.writelen settings).toInt).toNat = (s.writelen settings).toInt.toNat := by
      have hlt : (s.writelen settings).toInt < 2147483648 := BitVec.toInt_lt
      rw [BitVec.toNat_ofInt]
      congr 1
      exact Int.emod_eq_of_lt hbounds.1 (by omega)
    unfold issued
    rw [h.writen]
    dsimp only
    split
    · rw [if_neg (by rw [hburst]; exact Bool.false_ne_true), hsize]
      omega
    · omega

/-! ## Bursts of one size -/

/-- The amount that is left is what is left of the burst, and whole bursts. -/
def Whole (size : BitVec 32) (s : AmountSender) : Prop :=
  s.sender.ended = false →
    0 ≤ s.sender.burstRemaining ∧ TcpSender.burstSize size ∣ s.mAmount - s.sender.burstRemaining

/-- With an amount of whole bursts every burst fits. -/
theorem Whole.fits {size : BitVec 32} (hburst : settings.isburst = true) (hfile : settings.fileInput = false)
    (h : Whole size s) (hsized : Sized size s e) (hstep : s.step settings e = some s') : s.Fits e := by
  obtain ⟨hruns, sender, data, hsender, -⟩ := step_burst hburst hstep
  obtain ⟨hnonneg, hwhole⟩ := h hruns
  cases e with
  | burst size' tick now =>
    obtain rfl : size' = size := hsized
    unfold AmountSender.step at hstep
    obtain ⟨hgoesOn, -⟩ := Option.ite_none_right_eq_some.mp hstep
    obtain ⟨-, hwriten, hdone, -⟩ := TcpSender.step_starts hsender
    have hzero : s.sender.burstRemaining = 0 := by omega
    have hleft : 0 < s.mAmount := by
      rw [hwriten] at hgoesOn
      unfold inProgress at hgoesOn
      rw [hfile] at hgoesOn
      simpa [Nat.pos_iff_ne_zero] using hgoesOn
    rw [hzero, Int.sub_zero] at hwhole
    exact Int.le_of_dvd (by omega) hwhole
  | fill mBuf => trivial
  | stop => trivial
  | took n => trivial
  | error errno => trivial

theorem Whole.next {size : BitVec 32} (hburst : settings.isburst = true) (hfile : settings.fileInput = false)
    (htally : Tally amount s) (h : Whole size s) (hsized : Sized size s e) (hstep : s.step settings e = some s') :
    Whole size s' := by
  have hfits := h.fits hburst hfile hsized hstep
  obtain ⟨hruns, sender, data, hsender, rfl⟩ := step_burst hburst hstep
  obtain ⟨hnonneg, hwhole⟩ := h hruns
  have hcounts := TcpSender.step_counts (fun w hw => (htally.writing hruns w hw).1) hsender
  cases hcounts with
  | idle hwriten hwriten' sent remaining hlen =>
    intro _
    rw [remaining, hlen]
    exact ⟨hnonneg, hwhole⟩
  | @burst size' tick now _ hwriten hwriten' sent remaining =>
    obtain rfl : size' = size := hsized
    intro _
    -- the burst before this one is done
    have hnone : s.sender.packetLen (.burst size' tick now) = 0 := TcpSender.packetLen_idle hwriten fun _ => by simp
    have hmin : (sizeofTcpBurstPayload : Int) ≤ TcpSender.burstSize size' := (TcpSender.burstSize_bounds size').1
    obtain ⟨-, -, hdone, -⟩ := TcpSender.step_starts hsender
    have hzero : s.sender.burstRemaining = 0 := by omega
    rw [hzero, Int.sub_zero] at hwhole
    dsimp only
    rw [remaining, hnone, Nat.sub_zero]
    exact ⟨by omega, Int.dvd_sub hwhole (Int.dvd_refl _)⟩
  | @took n _ hwriten hn hwriten' sent remaining =>
    obtain ⟨-, hroom⟩ := htally.idle hwriten
    have hlen := TcpSender.packetLen_took hwriten n
    have hsame : ((s.mAmount - n : Nat) : Int) - (s.sender.burstRemaining - n) = s.mAmount - s.sender.burstRemaining := by
      omega
    intro _
    dsimp only
    rw [remaining, hlen, hsame]
    exact ⟨by omega, hwhole⟩
  | tookHeader hwriten hn hwriten' sent remaining hlen =>
    intro _
    rw [remaining, hlen]
    exact ⟨hnonneg, hwhole⟩
  | retry hwriten hlen =>
    intro _
    rw [hlen]
    exact ⟨hnonneg, hwhole⟩
  | @returned w n _ _ hwriten hn sent hlen hs' =>
    obtain ⟨hnleft, -, hinLen, hroom⟩ := htally.writing hruns _ hwriten
    rcases hs' with ⟨hwriten', remaining⟩ | ⟨hwriten', hended⟩
    · have hsame : ((s.mAmount - (w.inLen - w.nleft + n) : Nat) : Int) -
          (s.sender.burstRemaining - (w.inLen - w.nleft + n : Nat)) = s.mAmount - s.sender.burstRemaining := by omega
      intro _
      dsimp only
      rw [remaining, hlen, hsame]
      exact ⟨by omega, hwhole⟩
    · intro hruns'
      rw [hended] at hruns'
      cases hruns'

/-! ## Bursts that do not fit -/

/-- The loop goes on in the same burst, with `n` bytes more. -/
structure GoesOn (n : Nat) (s s' : AmountSender) : Prop where
  runs : s'.sender.ended = false
  writen : s'.sender.writen = none
  sent : s'.sender.sent = s.sender.sent + n
  remaining : s'.sender.burstRemaining = s.sender.burstRemaining - n
  mAmount : s'.mAmount = s.mAmount - n

/-- A `write` of a byte within a burst. -/
theorem step_byte (hburst : settings.isburst = true) (hruns : s.sender.ended = false) (hwriten : s.sender.writen = none)
    (hleft : 0 < s.mAmount) (hmBufLen : 0 < settings.tcp.mBufLen) (hremaining : 0 < s.sender.burstRemaining) :
    ∃ s', s.step settings (.took 1) = some s' ∧ GoesOn 1 s s' := by
  have hgoesOn : s.inProgress settings = true := by
    unfold inProgress
    simp [Nat.pos_iff_ne_zero.mp hleft]
  have htook : s.sender.burstRemaining > 0 ∧ 1 ≤ min settings.tcp.mBufLen s.sender.burstRemaining.toNat := by omega
  refine ⟨⟨{ s.sender with
    burstRemaining := s.sender.burstRemaining - 1
    sent := s.sender.sent + 1 }, s.mAmount - 1⟩, ?_, hruns, hwriten, rfl, rfl, rfl⟩
  unfold AmountSender.step TcpSender.step TcpSender.packetLen
  simp only [hwriten, hgoesOn, hburst, hruns, if_true]
  simp [htook]

/-- A `writen` that takes a header and fails then. -/
theorem step_header (hburst : settings.isburst = true) (hruns : s.sender.ended = false) {w : Writen}
    (hwriten : s.sender.writen = some w) (hinLen : sizeofTcpBurstPayload < w.inLen) (hnleft : w.nleft = w.inLen) :
    ∃ s', Reachable (AmountSender.step settings) Any s s' ∧ GoesOn sizeofTcpBurstPayload s s' := by
  have hmore : ¬ w.nleft - sizeofTcpBurstPayload = 0 := by omega
  have hdone : w.inLen - (w.nleft - sizeofTcpBurstPayload) = sizeofTcpBurstPayload := by omega
  let taken : TcpSender := { s.sender with
    writen := some { w with nleft := w.nleft - sizeofTcpBurstPayload }
    sent := s.sender.sent + sizeofTcpBurstPayload }
  have htook : s.step settings (.took sizeofTcpBurstPayload) = some ⟨taken, s.mAmount⟩ := by
    unfold AmountSender.step TcpSender.step TcpSender.packetLen
    simp only [hwriten, hburst, hruns, if_true, if_neg hmore]
    simp [hnleft, hinLen.le, taken, hruns]
  have hfails : AmountSender.step settings ⟨taken, s.mAmount⟩ (.error .eagain) =
      some ⟨{ taken with
        writen := none
        burstRemaining := s.sender.burstRemaining - sizeofTcpBurstPayload }, s.mAmount - sizeofTcpBurstPayload⟩ := by
    unfold AmountSender.step TcpSender.step TcpSender.packetLen TcpSender.written
    simp only [taken, hburst, hruns, hdone, if_true]
    simp
  exact ⟨_, (Reachable.start.next _ trivial htook).next _ trivial hfails, hruns, rfl, rfl, rfl, rfl⟩

/-- A call that asks for more than the amount that is left. -/
theorem not_exact (hruns : s.sender.ended = false) (htotal : s.sender.sent + s.mAmount = amount)
    (hmore : s.mAmount < s.issued settings) : ¬ s.Exact settings amount := fun exact => by
  have hwithin := exact.within hruns
  omega

theorem issued_payload (hburst : settings.isburst = true) (hwriten : s.sender.writen = none) (hleft : 0 < s.mAmount) :
    s.issued settings = min settings.tcp.mBufLen s.sender.burstRemaining.toNat := by
  have hgoesOn : s.inProgress settings = true := by
    unfold inProgress
    simp [Nat.pos_iff_ne_zero.mp hleft]
  unfold issued
  rw [hwriten]
  dsimp only
  rw [hgoesOn, if_pos rfl, if_pos hburst]

/-- With more left of the burst than of the amount, some `write` asks for more: byte by byte the loop comes to where the
buffer is longer than the amount. -/
theorem overruns (hburst : settings.isburst = true) (hmBufLen : 2 ≤ settings.tcp.mBufLen) (left : Nat) :
    ∀ s : AmountSender, s.sender.ended = false → s.sender.writen = none → s.mAmount = left + 1 →
      (s.mAmount : Int) < s.sender.burstRemaining → s.sender.sent + s.mAmount = amount →
      ∃ s', Reachable (AmountSender.step settings) Any s s' ∧ ¬ s'.Exact settings amount := by
  induction left with
  | zero =>
    intro s hruns hwriten hleft hmore htotal
    refine ⟨s, .start, not_exact hruns htotal ?_⟩
    rw [issued_payload hburst hwriten (by omega)]
    omega
  | succ left ih =>
    intro s hruns hwriten hleft hmore htotal
    obtain ⟨s', hbyte, goesOn⟩ := step_byte hburst hruns hwriten (by omega) (by omega) (by omega)
    have hsent := goesOn.sent
    have hremaining := goesOn.remaining
    have hmAmount := goesOn.mAmount
    obtain ⟨s'', hs'', hnot⟩ := ih s' goesOn.runs goesOn.writen (by omega) (by omega) (by omega)
    exact ⟨s'', (Reachable.start.next (.took 1) trivial hbyte).trans hs'', hnot⟩

/-- A burst that starts with more than is left of the amount goes on to ask for it. -/
theorem burst_overruns (hburst : settings.isburst = true) (hmBufLen : sizeofTcpBurstPayload < settings.tcp.mBufLen)
    (h : Tally amount s) (hfits : ¬ s.Fits e) (hstep : s.step settings e = some s') :
    ∃ s'', Reachable (AmountSender.step settings) Any s' s'' ∧ ¬ s''.Exact settings amount := by
  obtain ⟨hruns, sender, data, hsender, rfl⟩ := step_burst hburst hstep
  cases e with
  | burst size tick now =>
    have hmore : (s.mAmount : Int) < TcpSender.burstSize size := not_le.mp hfits
    have hmin : (sizeofTcpBurstPayload : Int) ≤ TcpSender.burstSize size := (TcpSender.burstSize_bounds size).1
    obtain ⟨-, hwriten, -, hstarted⟩ := TcpSender.step_starts hsender
    obtain ⟨htotal, -⟩ := h.idle hwriten
    have hlen : s.sender.packetLen (.burst size tick now) = 0 := TcpSender.packetLen_idle hwriten fun _ => by simp
    generalize hwritelen : min settings.tcp.mBufLen (TcpSender.burstSize size).toNat = writelen
    obtain ⟨hwriten', hruns', hsent', hremaining'⟩ : sender.writen = some ⟨writelen, writelen⟩ ∧
        sender.ended = false ∧ sender.sent = s.sender.sent ∧ sender.burstRemaining = TcpSender.burstSize size := by
      subst hwritelen hstarted
      exact ⟨rfl, hruns, rfl, rfl⟩
    rw [hlen, Nat.sub_zero]
    by_cases hover : s.mAmount < writelen
    · -- the first `writen` asks for more
      refine ⟨_, .start, not_exact hruns' (by rw [hsent']; exact htotal) ?_⟩
      unfold issued
      rw [hwriten']
      exact hover
    · -- it takes a header, and the rest of the burst follows
      have hwhole : writelen = settings.tcp.mBufLen := by omega
      obtain ⟨s', hs', goesOn⟩ := @step_header settings ⟨sender, s.mAmount⟩ hburst hruns' _ hwriten'
        (by dsimp only; omega) rfl
      have hsent := goesOn.sent
      have hremaining := goesOn.remaining
      have hmAmount := goesOn.mAmount
      dsimp only at hsent hremaining hmAmount
      have hleft : s'.mAmount = s.mAmount - sizeofTcpBurstPayload - 1 + 1 := by omega
      have htotal' : s'.sender.sent + s'.mAmount = amount := by omega
      have hbytes : 2 ≤ settings.tcp.mBufLen := le_trans (by decide) hmBufLen
      obtain ⟨s'', hs'', hnot⟩ := overruns hburst hbytes _ s' goesOn.runs goesOn.writen hleft (by omega) htotal'
      exact ⟨s'', hs'.trans hs'', hnot⟩
  | fill mBuf => exact absurd trivial hfits
  | stop => exact absurd trivial hfits
  | took n => exact absurd trivial hfits
  | error errno => exact absurd trivial hfits

end

end AmountSender

open AmountSender

/-- **The amount of a TCP test.** Without bursts every run is exact, with a write length that is no negative `int`. With
bursts every run is whose bursts fit into the amount that is left; in particular every run with bursts of one size, of which
the amount is a multiple. Where a burst does not fit, the run goes on to ask for more than is left, if the buffer is longer
than a header. -/
theorem tcp_amount (settings : AmountSettings) (mBuf : Buf) (packetID : Int) (amount : Nat) :
    (settings.isburst = false → LengthOk settings amount →
        ∀ s, Reachable (AmountSender.step settings) Any (.init mBuf packetID amount) s → s.Exact settings amount) ∧
      (settings.isburst = true →
        ∀ s, Reachable (AmountSender.step settings) Fits (.init mBuf packetID amount) s → s.Exact settings amount) ∧
      (settings.isburst = true → settings.fileInput = false → ∀ size, TcpSender.burstSize size ∣ amount →
        ∀ s, Reachable (AmountSender.step settings) (Sized size) (.init mBuf packetID amount) s →
          s.Exact settings amount) ∧
      (settings.isburst = true → sizeofTcpBurstPayload < settings.tcp.mBufLen →
        ∀ s e s', Reachable (AmountSender.step settings) Fits (.init mBuf packetID amount) s → ¬ s.Fits e →
          s.step settings e = some s' →
          ∃ s'', Reachable (AmountSender.step settings) Any s' s'' ∧ ¬ s''.Exact settings amount) := by
  have htally : settings.isburst = true → ∀ s, Reachable (AmountSender.step settings) Fits (.init mBuf packetID amount) s →
      Tally amount s := fun hburst s hs =>
    hs.invariant (.start mBuf packetID amount) fun _ _ _ h hfits hstep => h.next hburst hfits hstep
  refine ⟨fun hburst hlength s hs => ?_, fun hburst s hs => ?_, fun hburst hfile size hsize s hs => ?_,
    fun hburst hmBufLen s e s' hs hnot hstep => ?_⟩
  · have hplain : Plain amount s :=
      hs.invariant ⟨rfl, Nat.zero_add amount⟩ fun _ _ _ h _ hstep => h.next hburst hlength hstep
    exact hplain.exact hburst hlength
  · exact (htally hburst s hs).exact hburst
  · have hwhole : Whole size (.init mBuf packetID amount) := fun _ => by
      show 0 ≤ (0 : Int) ∧ _ ∣ (amount : Int) - 0
      rw [Int.sub_zero]
      exact ⟨le_rfl, hsize⟩
    have hboth := hs.invariant (I := fun s => Tally amount s ∧ Whole size s) ⟨.start mBuf packetID amount, hwhole⟩
      fun _ _ _ h hsized hstep => ⟨h.1.next hburst (h.2.fits hburst hfile hsized hstep) hstep,
        h.2.next hburst hfile h.1 hsized hstep⟩
    exact hboth.1.exact hburst
  · exact burst_overruns hburst hmBufLen (htally hburst s hs) hnot hstep

/-! A test of 200 bytes, in bursts of 100. -/

def tripTimes : AmountSettings where
  mBufLen := 100
  isburst := true
  fileInput := false
  startTime := ⟨1, 0⟩

def burstOf100 : SendEvent := .burst 100 none ⟨1, 0⟩

/-- A burst in two writes, the next one in one. -/
theorem tcp_amount_bursts :
    ∃ s, run (AmountSender.step tripTimes) Fits (.init .zero 1 200)
        [burstOf100, .took 95, .error .eagain, .took 5, burstOf100, .took 100, .stop] = some s ∧
      (s.sender.sent, s.mAmount) = (200, 0) ∧ s.Exact tripTimes 200 := by
  have hrun : (run (AmountSender.step tripTimes) Fits (.init .zero 1 200)
      [burstOf100, .took 95, .error .eagain, .took 5, burstOf100, .took 100, .stop]).map
      (fun s => (s.sender.sent, s.mAmount)) = some (200, 0) := by decide +kernel
  obtain ⟨s, hs, hvalues⟩ := Option.map_eq_some_iff.mp hrun
  exact ⟨s, hs, hvalues, (tcp_amount tripTimes .zero 1 200).2.1 rfl s (.of_run _ _ .start hs)⟩

/-- With `-n 150` the second burst asks for 100 bytes where 50 are left, and 200 are sent when the loop stops. -/
theorem tcp_amount_fails :
    (∃ s, Reachable (AmountSender.step tripTimes) Any (.init .zero 1 150) s ∧ s.mAmount = 50 ∧
        s.issued tripTimes = 100) ∧
      ∃ s, Reachable (AmountSender.step tripTimes) Any (.init .zero 1 150) s ∧ s.sender.writen = none ∧
        s.inProgress tripTimes = false ∧ s.sender.sent = 200 ∧ ¬ s.Exact tripTimes 150 := by
  have hissued : (run (AmountSender.step tripTimes) Any (.init .zero 1 150) [burstOf100, .took 100, burstOf100]).map
      (fun s => (s.mAmount, s.issued tripTimes)) = some (50, 100) := by decide +kernel
  have hstopped : (run (AmountSender.step tripTimes) Any (.init .zero 1 150)
      [burstOf100, .took 100, burstOf100, .took 100]).map
      (fun s => (s.sender.writen.isNone, s.inProgress tripTimes, s.sender.sent)) = some (true, false, 200) := by
    decide +kernel
  refine ⟨?_, ?_⟩
  · obtain ⟨s, hs, hvalues⟩ := Option.map_eq_some_iff.mp hissued
    exact ⟨s, .of_run _ _ .start hs, Prod.mk.inj hvalues⟩
  · obtain ⟨s, hs, hvalues⟩ := Option.map_eq_some_iff.mp hstopped
    obtain ⟨hwriten, hvalues⟩ := Prod.mk.inj hvalues
    obtain ⟨hstops, hsent⟩ := Prod.mk.inj hvalues
    have hnone := Option.isNone_iff_eq_none.mp hwriten
    refine ⟨s, .of_run _ _ .start hs, hnone, hstops, hsent, fun exact => ?_⟩
    have htotal := exact.total hnone
    omega

end Iperf2.Traffic
