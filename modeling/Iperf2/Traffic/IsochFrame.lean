import Iperf2.Traffic.Client

/-!
# The writes of a frame

`Client::RunUDPIsochronous` writes a frame in pieces of at most the payload length, and raises what is left to the
minimum payload when it is less. The writes here are all taken in full, and the loop runs until its frame is written.

* `isochWrite_frameWrite` : a write of the loop, as `isochWrite` has it;
* `sends_iff` : how many bytes a frame takes, when the payload length is not below the minimum;
* `not_sends_short` : a payload length below the minimum;
* `isoch_frame_bound` : when the loop ends with less than a minimum payload beyond the frame.
-/

namespace Iperf2.Traffic
open Report

/-! ## The loop -/

/-- The inner loop: the bytes left of the frame, the amount left of the test, and the bytes written so far. -/
@[ext]
structure FrameLoop where
  bytecnt : Int
  mAmount : Int
  sent : Int

/-- The length that a write asks for. -/
def writeAsked (settings : ClientSettings) (f : FrameLoop) : Int :=
  if settings.isModeAmount ∧ f.mAmount < settings.mBufLen then f.mAmount
  else if f.bytecnt < settings.mBufLen then f.bytecnt
  else settings.mBufLen

/-- A write of `currLen` bytes. -/
def frameWritten (settings : ClientSettings) (f : FrameLoop) (currLen : Int) : FrameLoop where
  bytecnt :=
    if f.bytecnt - currLen > 0 ∧ f.bytecnt - currLen < settings.udpPayloadMinimum then settings.udpPayloadMinimum
    else f.bytecnt - currLen
  mAmount :=
    if settings.isModeAmount then (if f.mAmount ≥ currLen then f.mAmount - currLen else 0) else f.mAmount
  sent := f.sent + currLen

/-- A write that is taken in full. -/
def frameWrite (settings : ClientSettings) (f : FrameLoop) : FrameLoop :=
  frameWritten settings f (writeAsked settings f)

/-- The writes of a frame, without the tests of `InProgress`. -/
def frameLoop (settings : ClientSettings) : (fuel : Nat) → FrameLoop → Option FrameLoop
  | 0, _ => none
  | fuel + 1, f => if f.bytecnt > 0 then frameLoop settings fuel (frameWrite settings f) else some f

/-- The loop ends, and has written `total` bytes. -/
def Sends (settings : ClientSettings) (f : FrameLoop) (total : Int) : Prop :=
  ∃ fuel f', frameLoop settings fuel f = some f' ∧ f'.sent = total

/-- A write of `RunUDPIsochronous`. -/
theorem isochWrite_frameWrite (settings : ClientSettings) (frameid : Int) (s : UdpClient) (bytecnt sent : Int)
    (now : Timeval) (len : { n : Int // 0 < n }) :
    (isochWrite settings frameid s bytecnt ⟨now, .accepted len⟩).2.1 =
        (frameWritten settings ⟨bytecnt, s.mAmount, sent⟩ len.1).bytecnt ∧
      (isochWrite settings frameid s bytecnt ⟨now, .accepted len⟩).1.mAmount =
        (frameWritten settings ⟨bytecnt, s.mAmount, sent⟩ len.1).mAmount := ⟨rfl, rfl⟩

section
variable {settings : ClientSettings} {f : FrameLoop} {total : Int}

theorem sends_done (hdone : f.bytecnt ≤ 0) : Sends settings f total ↔ f.sent = total := by
  have hnot : ¬ f.bytecnt > 0 := not_lt.mpr hdone
  constructor
  · rintro ⟨fuel, f', hloop, rfl⟩
    cases fuel with
    | zero => cases hloop
    | succ fuel =>
      rw [frameLoop, if_neg hnot] at hloop
      rw [Option.some.inj hloop]
  · rintro rfl
    exact ⟨1, f, if_neg hnot, rfl⟩

theorem sends_next (hleft : 0 < f.bytecnt) : Sends settings f total ↔ Sends settings (frameWrite settings f) total := by
  constructor
  · rintro ⟨fuel, f', hloop, htotal⟩
    cases fuel with
    | zero => cases hloop
    | succ fuel =>
      rw [frameLoop, if_pos hleft] at hloop
      exact ⟨fuel, f', hloop, htotal⟩
  · rintro ⟨fuel, f', hloop, htotal⟩
    refine ⟨fuel + 1, f', ?_, htotal⟩
    rw [frameLoop, if_pos hleft]
    exact hloop

/-- What every write keeps, with bytes left of the frame, keeps the loop going. -/
theorem not_sends {I : FrameLoop → Prop} (hleft : ∀ f, I f → 0 < f.bytecnt)
    (hnext : ∀ f, I f → I (frameWrite settings f)) (h : I f) : ¬ Sends settings f total := by
  rintro ⟨fuel, f', hloop, -⟩
  induction fuel generalizing f with
  | zero => cases hloop
  | succ fuel ih =>
    rw [frameLoop, if_pos (hleft f h)] at hloop
    exact ih (hnext f h) hloop

/-- **A payload length below the minimum**: what is left of the frame is raised to more than the payload. -/
theorem not_sends_short (hshort : settings.mBufLen < settings.udpPayloadMinimum) (hbuf : 1 ≤ settings.mBufLen)
    (hleft : settings.udpPayloadMinimum ≤ f.bytecnt) : ¬ Sends settings f total := by
  apply not_sends (I := fun f => settings.udpPayloadMinimum ≤ f.bytecnt)
  · intro f hf
    omega
  · intro f hf
    have hasked : writeAsked settings f ≤ settings.mBufLen := by
      unfold writeAsked
      split
      · omega
      · split <;> omega
    simp only [frameWrite, frameWritten]
    split <;> omega
  · exact hleft

/-- An amount that is used up before the frame. -/
theorem not_sends_empty (hamount : settings.isModeAmount = true) (hbuf : 1 ≤ settings.mBufLen)
    (hmin : 1 ≤ settings.udpPayloadMinimum) (hempty : f.mAmount = 0) (hleft : 0 < f.bytecnt) :
    ¬ Sends settings f total := by
  apply not_sends (I := fun f => f.mAmount = 0 ∧ 0 < f.bytecnt)
  · rintro f ⟨-, hf⟩
    exact hf
  · rintro f ⟨hzero, hf⟩
    have hasked : writeAsked settings f = 0 := by
      rw [writeAsked, if_pos ⟨hamount, by omega⟩, hzero]
    rw [frameWrite, hasked]
    simp only [frameWritten, hamount, hzero]
    refine ⟨by simp, ?_⟩
    split <;> omega
  · exact ⟨hempty, hleft⟩

/-! ## The bytes of a frame -/

/-- A write that is not limited by the amount. -/
def Unlimited (settings : ClientSettings) (mAmount : Int) : Prop :=
  settings.isModeAmount = true → settings.mBufLen ≤ mAmount

theorem writeAsked_unlimited (h : Unlimited settings f.mAmount) :
    writeAsked settings f = min f.bytecnt settings.mBufLen := by
  have hnot : ¬ (settings.isModeAmount = true ∧ f.mAmount < settings.mBufLen) := by
    rintro ⟨hamount, hlt⟩
    exact absurd (h hamount) (not_le.mpr hlt)
  rw [writeAsked, if_neg hnot]
  split <;> omega

theorem not_unlimited {mAmount : Int} (h : ¬ Unlimited settings mAmount) :
    settings.isModeAmount = true ∧ mAmount < settings.mBufLen := by
  rw [Unlimited, Classical.not_imp, not_le] at h
  exact h

/-- The amount after a write. -/
theorem frameWritten_mAmount {currLen : Int} (hle : settings.isModeAmount = true → currLen ≤ f.mAmount) :
    (frameWritten settings f currLen).mAmount =
      if settings.isModeAmount then f.mAmount - currLen else f.mAmount := by
  simp only [frameWritten]
  split
  · rename_i hamount
    rw [if_pos (hle hamount)]
  · rfl

/-- An amount that a write uses up before the frame is written. -/
theorem not_sends_cut (hbuf : 1 ≤ settings.mBufLen) (hmin : 1 ≤ settings.udpPayloadMinimum)
    (hamount : settings.isModeAmount = true) (hlt : f.mAmount < settings.mBufLen) (hpos : 0 < f.bytecnt)
    (hcut : f.mAmount < f.bytecnt) : ¬ Sends settings f total := by
  have hasked : writeAsked settings f = f.mAmount := if_pos ⟨hamount, hlt⟩
  rw [sends_next hpos, frameWrite, hasked]
  apply not_sends_empty hamount hbuf hmin
  · rw [frameWritten_mAmount fun _ => le_refl _, if_pos hamount]
    exact sub_self f.mAmount
  · simp only [frameWritten]
    split <;> omega

/-- What the last write of a frame has, after `rounds` payloads that leave `rest` bytes. -/
def lastWrite (settings : ClientSettings) (rounds : Nat) (rest : Int) : Int :=
  if rounds = 0 then rest else max rest settings.udpPayloadMinimum

/-- The last write. -/
theorem sends_last {rest mAmount sent : Int} (hbuf : 1 ≤ settings.mBufLen) (hmin : 1 ≤ settings.udpPayloadMinimum)
    (hpos : 0 < rest) (hle : rest ≤ settings.mBufLen) :
    Sends settings ⟨rest, mAmount, sent⟩ total ↔
      (Unlimited settings mAmount ∧ total = sent + rest) ∨
        (settings.isModeAmount = true ∧ rest ≤ mAmount ∧ mAmount < settings.mBufLen ∧ total = sent + mAmount) := by
  by_cases hfull : Unlimited settings mAmount
  · have hasked : writeAsked settings ⟨rest, mAmount, sent⟩ = rest := by
      rw [writeAsked_unlimited hfull]
      exact min_eq_left hle
    have hdone : (frameWritten settings ⟨rest, mAmount, sent⟩ rest).bytecnt ≤ 0 := by
      simp [frameWritten]
    rw [sends_next hpos, frameWrite, hasked, sends_done hdone]
    simp only [frameWritten, hfull, true_and]
    constructor
    · intro h
      exact .inl h.symm
    · rintro (h | ⟨hamount, -, hlt, -⟩)
      · exact h.symm
      · exact absurd (hfull hamount) (not_le.mpr hlt)
  · obtain ⟨hamount, hlt⟩ := not_unlimited hfull
    simp only [hfull, hamount, hlt, false_and, false_or, true_and]
    by_cases hcover : rest ≤ mAmount
    · have hasked : writeAsked settings ⟨rest, mAmount, sent⟩ = mAmount := if_pos ⟨hamount, hlt⟩
      have hdone : (frameWritten settings ⟨rest, mAmount, sent⟩ mAmount).bytecnt ≤ 0 := by
        simp only [frameWritten]
        split <;> omega
      rw [sends_next hpos, frameWrite, hasked, sends_done hdone]
      simp only [frameWritten, hcover, true_and]
      exact eq_comm
    · simp only [hcover, false_and, iff_false]
      exact not_sends_cut hbuf hmin hamount hlt hpos (not_le.mp hcover)

theorem succ_payloads (rounds : Nat) :
    ((rounds + 1 : Nat) : Int) * settings.mBufLen = rounds * settings.mBufLen + settings.mBufLen := by
  rw [Nat.cast_succ, Int.add_mul, Int.one_mul]

theorem payloads_nonneg (hbuf : 1 ≤ settings.mBufLen) (rounds : Nat) : 0 ≤ rounds * settings.mBufLen :=
  Int.mul_nonneg (Int.natCast_nonneg rounds) (by omega)

/-- A write of a whole payload: what is left has the minimum. -/
theorem frameWrite_payload {rounds : Nat} {rest mAmount sent : Int} (hmin : 1 ≤ settings.udpPayloadMinimum)
    (hpayload : settings.udpPayloadMinimum ≤ settings.mBufLen) (hpos : 0 < rest) (hfull : Unlimited settings mAmount) :
    frameWrite settings ⟨rounds * settings.mBufLen + settings.mBufLen + rest, mAmount, sent⟩ =
      ⟨rounds * settings.mBufLen + (if rounds = 0 then max rest settings.udpPayloadMinimum else rest),
        if settings.isModeAmount then mAmount - settings.mBufLen else mAmount, sent + settings.mBufLen⟩ := by
  have hrounds := payloads_nonneg (hmin.trans hpayload) rounds
  have hasked : writeAsked settings ⟨rounds * settings.mBufLen + settings.mBufLen + rest, mAmount, sent⟩ =
      settings.mBufLen := by
    rw [writeAsked_unlimited hfull]
    apply min_eq_right
    show settings.mBufLen ≤ rounds * settings.mBufLen + settings.mBufLen + rest
    omega
  rw [frameWrite, hasked]
  ext
  · simp only [frameWritten]
    rcases Nat.eq_zero_or_eq_succ_pred rounds with hzero | hsucc
    · rw [hzero] at hrounds ⊢
      rw [if_pos rfl, Nat.cast_zero, Int.zero_mul]
      split <;> omega
    · have hmore := payloads_nonneg (hmin.trans hpayload) rounds.pred
      rw [hsucc] at hrounds ⊢
      rw [succ_payloads, if_neg (Nat.succ_ne_zero _), if_neg (by omega)]
      omega
  · exact frameWritten_mAmount hfull
  · rfl

/-- **The bytes of a frame** of `rounds` payloads and `rest` bytes: the last write has at least the minimum, or is cut
or filled up to the amount that is left. -/
theorem sends_iff (hmin : 1 ≤ settings.udpPayloadMinimum) (hpayload : settings.udpPayloadMinimum ≤ settings.mBufLen)
    (rounds : Nat) {rest mAmount sent : Int} (hpos : 0 < rest) (hle : rest ≤ settings.mBufLen) :
    Sends settings ⟨rounds * settings.mBufLen + rest, mAmount, sent⟩ total ↔
      (Unlimited settings (mAmount - rounds * settings.mBufLen) ∧
        total = sent + rounds * settings.mBufLen + lastWrite settings rounds rest) ∨
      (settings.isModeAmount = true ∧ rounds * settings.mBufLen + lastWrite settings rounds rest ≤ mAmount ∧
        mAmount < rounds * settings.mBufLen + settings.mBufLen ∧ total = sent + mAmount) := by
  have hbuf : 1 ≤ settings.mBufLen := hmin.trans hpayload
  induction rounds generalizing rest mAmount sent with
  | zero =>
    simp only [Nat.cast_zero, zero_mul, zero_add, add_zero, sub_zero, lastWrite, if_true]
    exact sends_last hbuf hmin hpos hle
  | succ rounds ih =>
    have hrounds := payloads_nonneg hbuf rounds
    have hleft : 0 < (⟨rounds * settings.mBufLen + settings.mBufLen + rest, mAmount, sent⟩ : FrameLoop).bytecnt := by
      show 0 < rounds * settings.mBufLen + settings.mBufLen + rest
      omega
    have hlast : 0 < lastWrite settings (rounds + 1) rest := by
      rw [lastWrite, if_neg (Nat.succ_ne_zero rounds)]
      omega
    rw [succ_payloads]
    by_cases hfull : Unlimited settings mAmount
    · rw [sends_next hleft, frameWrite_payload hmin hpayload hpos hfull]
      have hrest : lastWrite settings rounds (if rounds = 0 then max rest settings.udpPayloadMinimum else rest) =
          lastWrite settings (rounds + 1) rest := by
        unfold lastWrite
        rw [if_neg (Nat.succ_ne_zero rounds)]
        split <;> rfl
      have hpos' : 0 < if rounds = 0 then max rest settings.udpPayloadMinimum else rest := by
        split <;> omega
      have hle' : (if rounds = 0 then max rest settings.udpPayloadMinimum else rest) ≤ settings.mBufLen := by
        split <;> omega
      apply (ih hpos' hle').trans
      rw [hrest]
      cases hamount : settings.isModeAmount with
      | true =>
        simp only [Unlimited, hamount, if_true, true_and, forall_const]
        generalize lastWrite settings (rounds + 1) rest = last at *
        omega
      | false =>
        simp only [Unlimited, hamount, Bool.false_eq_true, false_and, or_false, IsEmpty.forall_iff, true_and]
        omega
    · obtain ⟨hamount, hlt⟩ := not_unlimited hfull
      have hcut : ¬ Sends settings ⟨rounds * settings.mBufLen + settings.mBufLen + rest, mAmount, sent⟩ total := by
        apply not_sends_cut hbuf hmin hamount hlt hleft
        show mAmount < rounds * settings.mBufLen + settings.mBufLen + rest
        omega
      have hnot : ¬ Unlimited settings (mAmount - (rounds * settings.mBufLen + settings.mBufLen)) := by
        intro h
        have := h hamount
        omega
      apply iff_of_false hcut
      rintro (⟨h, -⟩ | ⟨-, hle, -⟩)
      · exact hnot h
      · omega

end

/-! ## The frame -/

/-- The payloads before the last write of a frame. -/
def payloads (settings : ClientSettings) (burstsize : Int) : Nat := ((burstsize - 1) / settings.mBufLen).toNat

/-- Their bytes. -/
def bytesBefore (settings : ClientSettings) (burstsize : Int) : Int :=
  payloads settings burstsize * settings.mBufLen

/-- The bytes of the last write. -/
def lastBytes (settings : ClientSettings) (burstsize : Int) : Int :=
  max (burstsize - bytesBefore settings burstsize) settings.udpPayloadMinimum

/-- The conditions for a frame: a payload is not below the minimum, the frame is not empty, and the amount left covers
the writes of the frame; the last of them is not filled up to an amount that is left, but for less than a minimum. -/
structure Fits (settings : ClientSettings) (frame : Frame) (mAmount : Int) : Prop where
  payload : settings.udpPayloadMinimum ≤ settings.mBufLen
  positive : 1 ≤ frame.bytecnt
  amount : settings.isModeAmount = true →
    bytesBefore settings (frame.burstsize settings) + lastBytes settings (frame.burstsize settings) ≤ mAmount ∧
      (bytesBefore settings (frame.burstsize settings) + settings.mBufLen ≤ mAmount ∨
        mAmount < frame.bytecnt + settings.udpPayloadMinimum)

section
variable {settings : ClientSettings} {burstsize : Int}

theorem bytesBefore_bounds (hbuf : 1 ≤ settings.mBufLen) (hpos : 1 ≤ burstsize) :
    bytesBefore settings burstsize < burstsize ∧ burstsize ≤ bytesBefore settings burstsize + settings.mBufLen := by
  have hnonneg : 0 ≤ (burstsize - 1) / settings.mBufLen := Int.ediv_nonneg (by omega) (by omega)
  have hpayloads : (payloads settings burstsize : Int) = (burstsize - 1) / settings.mBufLen :=
    Int.toNat_of_nonneg hnonneg
  have hdiv := Int.mul_ediv_add_emod (burstsize - 1) settings.mBufLen
  have hlow := Int.emod_nonneg (burstsize - 1) (show settings.mBufLen ≠ 0 by omega)
  have hhigh := Int.emod_lt_of_pos (burstsize - 1) (show 0 < settings.mBufLen by omega)
  rw [bytesBefore, hpayloads, Int.mul_comm]
  omega

/-- A frame that is one write, or has a whole payload before its last write. -/
theorem bytesBefore_cases (hbuf : 1 ≤ settings.mBufLen) (burstsize : Int) :
    payloads settings burstsize = 0 ∧ bytesBefore settings burstsize = 0 ∨
      payloads settings burstsize ≠ 0 ∧ settings.mBufLen ≤ bytesBefore settings burstsize := by
  unfold bytesBefore
  rcases Nat.eq_zero_or_eq_succ_pred (payloads settings burstsize) with hzero | hsucc
  · left
    rw [hzero, Nat.cast_zero, Int.zero_mul]
    exact ⟨rfl, rfl⟩
  · right
    have hmore := payloads_nonneg hbuf (payloads settings burstsize).pred
    rw [hsucc, succ_payloads]
    exact ⟨Nat.succ_ne_zero _, by omega⟩

/-- **The bytes of a frame**. -/
theorem frame_sends_iff (hmin : 1 ≤ settings.udpPayloadMinimum)
    (hpayload : settings.udpPayloadMinimum ≤ settings.mBufLen) (hburst : settings.udpPayloadMinimum ≤ burstsize)
    (mAmount total : Int) :
    Sends settings ⟨burstsize, mAmount, 0⟩ total ↔
      (Unlimited settings (mAmount - bytesBefore settings burstsize) ∧
        total = bytesBefore settings burstsize + lastBytes settings burstsize) ∨
      (settings.isModeAmount = true ∧ bytesBefore settings burstsize + lastBytes settings burstsize ≤ mAmount ∧
        mAmount < bytesBefore settings burstsize + settings.mBufLen ∧ total = mAmount) := by
  have hbuf := hmin.trans hpayload
  obtain ⟨hlow, hhigh⟩ := bytesBefore_bounds hbuf (hmin.trans hburst)
  have hlast : lastWrite settings (payloads settings burstsize) (burstsize - bytesBefore settings burstsize) =
      lastBytes settings burstsize := by
    rw [lastWrite, lastBytes]
    rcases bytesBefore_cases hbuf burstsize with ⟨hzero, hnone⟩ | ⟨hne, -⟩
    · rw [if_pos hzero]
      omega
    · rw [if_neg hne]
  have hsends : Sends settings ⟨payloads settings burstsize * settings.mBufLen +
      (burstsize - bytesBefore settings burstsize), mAmount, 0⟩ total ↔ _ :=
    sends_iff hmin hpayload _ (by omega) (by omega)
  rw [hlast] at hsends
  rw [bytesBefore] at hsends ⊢
  simpa only [Int.add_sub_cancel, Int.zero_add, add_sub_cancel] using hsends

/-- **The bound of a frame**: the loop writes the frame, and less than a minimum payload beyond it. -/
theorem isoch_frame_bound (hbuf : 1 ≤ settings.mBufLen) (hmin : 1 ≤ settings.udpPayloadMinimum) (frame : Frame)
    (mAmount : Int) :
    (∃ total, Sends settings ⟨frame.burstsize settings, mAmount, 0⟩ total ∧ frame.bytecnt ≤ total ∧
        total < frame.bytecnt + settings.udpPayloadMinimum) ↔ Fits settings frame mAmount := by
  have hburst : settings.udpPayloadMinimum ≤ frame.burstsize settings ∧ frame.bytecnt ≤ frame.burstsize settings ∧
      (frame.burstsize settings = settings.udpPayloadMinimum ∨ frame.burstsize settings = frame.bytecnt) := by
    unfold Frame.burstsize
    split <;> omega
  obtain ⟨hburstmin, hburstle, hburstcases⟩ := hburst
  by_cases hpayload : settings.udpPayloadMinimum ≤ settings.mBufLen
  · obtain ⟨hlow, hhigh⟩ := bytesBefore_bounds hbuf (hmin.trans hburstmin)
    have hwhole := bytesBefore_cases hbuf (frame.burstsize settings)
    have hlast : lastBytes settings (frame.burstsize settings) =
      max (frame.burstsize settings - bytesBefore settings (frame.burstsize settings)) settings.udpPayloadMinimum := rfl
    simp only [frame_sends_iff hmin hpayload hburstmin]
    constructor
    · rintro ⟨total, ⟨hfull, rfl⟩ | ⟨hamount, hcover, -, rfl⟩, hle, hlt⟩
      · refine ⟨hpayload, by omega, fun hamount => ?_⟩
        have := hfull hamount
        omega
      · exact ⟨hpayload, by omega, fun _ => ⟨hcover, .inr hlt⟩⟩
    · intro h
      have hpos := h.positive
      by_cases hfull : Unlimited settings (mAmount - bytesBefore settings (frame.burstsize settings))
      · exact ⟨_, .inl ⟨hfull, rfl⟩, by omega, by omega⟩
      · obtain ⟨hamount, hlt⟩ := not_unlimited hfull
        obtain ⟨hcover, hrest⟩ := h.amount hamount
        exact ⟨mAmount, .inr ⟨hamount, hcover, by omega, rfl⟩, by omega, by omega⟩
  · constructor
    · rintro ⟨total, hsends, -⟩
      exact absurd hsends (not_sends_short (not_le.mp hpayload) hbuf hburstmin)
    · intro h
      exact absurd h.payload hpayload

end

/-- A frame of a 20 Mbit stream in datagrams of 1470 bytes. -/
theorem isoch_frame_bound_default : ∃ total,
    Sends ⟨false, 1470, 108⟩ ⟨41666, 0, 0⟩ total ∧ 41666 ≤ total ∧ total < 41774 := by
  have hfits : Fits ⟨false, 1470, 108⟩ ⟨41666, 1, []⟩ 0 := ⟨by decide, by decide, fun h => absurd h (by decide)⟩
  exact (isoch_frame_bound (by decide) (by decide) ⟨41666, 1, []⟩ 0).mpr hfits

/-- The same frame in datagrams of 100 bytes, which are shorter than the header. -/
theorem isoch_frame_not_bound : ¬ ∃ total, Sends ⟨false, 100, 108⟩ ⟨41666, 0, 0⟩ total := by
  rintro ⟨total, hsends⟩
  exact not_sends_short (by decide) (by decide) (by decide) hsends

end Iperf2.Traffic
