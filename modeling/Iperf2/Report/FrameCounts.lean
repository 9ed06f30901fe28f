import Iperf2.Report.Run
import Mathlib.Data.List.Pairwise

/-!
# The frame counts of an isochronous client

`reporter_handle_packet_isochronous` counts frames, lost frames and slips by the ids of the frames that are complete.
The very first frame sets the frame count to its id, and is counted once more by the comparison with the id before it,
which is zero.

* `Exceeds.step` : the frames counted stay above the frames by the id of the first one;
* `isochRun_keeps` : what one frame keeps, all frames keep;
* `isochRun_counted` : with ids that an `int` holds that is all that is wrong;
* `frame_accounting` : the counts are right only while no frame is complete.
-/

namespace Iperf2.Report

/-! ## Frames -/

/-- The record of a complete frame. -/
def Complete (packet : ReportStruct) : Prop := packet.frameID ≠ 0 ∧ packet.transitReady = true

instance (packet : ReportStruct) : Decidable (Complete packet) := inferInstanceAs (Decidable (_ ∧ _))

/-- The ids of the complete frames. -/
def frameIDs (packets : List ReportStruct) : List Int := (packets.filter fun p => Complete p).map (·.frameID)

/-- How often ids are skipped after `prev`. -/
def skips (prev : Int) : List Int → Int
  | [] => 0
  | id :: ids => (if id > prev + 1 then 1 else 0) + skips id ids

/-- The report of a client after records. -/
def isochRun (stats : TransferInfo) (packets : List ReportStruct) : TransferInfo :=
  packets.foldl reporterHandlePacketIsochronous stats

/-- Every frame is counted once, frames and lost frames are the ids so far, and every skip is a slip. -/
structure FramesAccounted (i : IsochStats) (ids : List Int) : Prop where
  frames : i.framecnt.current = ids.length
  total : i.framecnt.current + i.framelostcnt.current = ids.getLastD 0
  slips : i.slipcnt.current = skips 0 ids

/-- Records that do not complete a frame leave the counts alone. -/
theorem isochRun_isochstats (packets : List ReportStruct) {stats : TransferInfo}
    (h : stats.common.threadMode = .client) :
    (isochRun stats packets).isochstats =
      (packets.filter fun p => Complete p).foldl (isochFrames .client) stats.isochstats := by
  induction packets generalizing stats with
  | nil => rfl
  | cons packet packets ih =>
    have hrest : (isochRun (reporterHandlePacketIsochronous stats packet) packets).isochstats = _ := ih h
    have hone : (reporterHandlePacketIsochronous stats packet).isochstats =
        if Complete packet then isochFrames .client stats.isochstats packet else stats.isochstats := by
      rw [← h]
      rfl
    change (isochRun (reporterHandlePacketIsochronous stats packet) packets).isochstats = _
    rw [hrest, hone]
    by_cases hcomplete : Complete packet
    · rw [if_pos hcomplete, List.filter_cons_of_pos (by simpa using hcomplete), List.foldl_cons]
    · rw [if_neg hcomplete, List.filter_cons_of_neg (by simpa using hcomplete)]

/-! ## One frame -/

/-- The counts of a client after `n` frames from `first` to `last` with `k` skips: no more slips than skips, and
whatever the differences of the ids wrap to, frames less slips are too many by `first`. -/
structure Exceeds (first last n k : Int) (i : IsochStats) : Prop where
  frameID : i.frameID = uint32 last
  last : first + n ≤ last + 1
  slips : i.slipcnt.current ≤ k
  frames : first + n + i.slipcnt.current ≤ i.framecnt.current + k

/-- The counts as they are if no difference wraps. -/
structure Counted (first last n k : Int) (i : IsochStats) : Prop where
  frameID : i.frameID = last
  slips : i.slipcnt.current = k
  frames : i.framecnt.current = n + first
  total : i.framecnt.current + i.framelostcnt.current = last + first

section
variable {first last n k : Int} {i : IsochStats} {packet : ReportStruct}

/-- The counts after a frame. -/
theorem isochFrames_client (i : IsochStats) (packet : ReportStruct) :
    let delta := int32 (packet.frameID - i.frameID)
    let after := isochFrames .client i packet
    after.frameID = uint32 packet.frameID ∧
      after.framecnt.current =
        (if i.frameID = 0 then packet.frameID else i.framecnt.current) + (if delta ≠ 0 then 1 else 0) ∧
      after.framelostcnt.current = i.framelostcnt.current + (if delta > 1 then delta - 1 else 0) ∧
      after.slipcnt.current = i.slipcnt.current + (if delta > 1 then 1 else 0) := by
  intro delta after
  refine ⟨rfl, ?_, ?_, ?_⟩
  · simp only [after, isochFrames]
    by_cases hdelta : delta ≠ 0
    · rw [if_pos hdelta, if_pos hdelta, ShiftCounter.add_current]
      split <;> rfl
    · rw [if_neg hdelta, if_neg hdelta, add_zero]
      split <;> rfl
  · simp only [after, isochFrames]
    by_cases hskip : delta > 1
    · rw [if_pos hskip, if_pos hskip, ShiftCounter.add_current]
    · rw [if_neg hskip, if_neg hskip, add_zero]
  · simp only [after, isochFrames]
    by_cases hskip : delta > 1
    · rw [if_pos ⟨hskip, by decide⟩, if_pos hskip, ShiftCounter.add_current]
    · rw [if_neg (fun h => hskip h.1), if_neg hskip, add_zero]

/-- The first frame sets the frame count to its id before it is counted. -/
theorem exceeds_first (hpos : 1 ≤ packet.frameID) :
    Exceeds packet.frameID packet.frameID 1 (if packet.frameID > 1 then 1 else 0)
      (isochFrames .client default packet) := by
  obtain ⟨hframeID, hframes, -, hslips⟩ := isochFrames_client default packet
  have hone : packet.frameID = 1 → int32 (packet.frameID - (default : IsochStats).frameID) = 1 := by
    intro heq
    rw [heq]
    decide
  generalize int32 (packet.frameID - (default : IsochStats).frameID) = delta at hframes hslips hone
  rw [if_pos (by rfl)] at hframes
  change _ = 0 + _ at hslips
  refine ⟨hframeID, by omega, ?_, ?_⟩
  · rw [hslips]
    split_ifs <;> omega
  · rw [hslips, hframes]
    split_ifs <;> omega

/-- A frame counts itself, and as lost the frames it skips: whatever the difference of the ids wraps to, frames less
slips grow by at least one frame and at most one skip. -/
theorem Exceeds.step (h : Exceeds first last n k i) (hlt : last < packet.frameID) :
    Exceeds first packet.frameID (n + 1) (k + if packet.frameID > last + 1 then 1 else 0)
      (isochFrames .client i packet) := by
  obtain ⟨hframeID, hframes, -, hslips⟩ := isochFrames_client i packet
  rw [h.frameID, int32_sub_uint32] at hframes hslips
  have hlast := h.last
  have hle := h.slips
  have hexceeds := h.frames
  -- the id that follows makes a difference of one
  have hone : packet.frameID = last + 1 → int32 (packet.frameID - last) = 1 := by
    intro heq
    rw [heq, add_sub_cancel_left]
    decide
  generalize int32 (packet.frameID - last) = delta at hframes hslips hone
  refine ⟨hframeID, by omega, ?_, ?_⟩
  · rw [hslips]
    split_ifs <;> omega
  · rw [hslips, hframes]
    split_ifs <;> omega

theorem counted_first (hpos : 1 ≤ packet.frameID) (hfits : packet.frameID < 2147483648) :
    Counted packet.frameID packet.frameID 1 (if packet.frameID > 1 then 1 else 0)
      (isochFrames .client default packet) := by
  obtain ⟨hframeID, hframes, hlost, hslips⟩ := isochFrames_client default packet
  have hdelta : int32 (packet.frameID - (default : IsochStats).frameID) = packet.frameID := by
    change int32 (packet.frameID - 0) = _
    rw [sub_zero, int32_of_lt (by omega) hfits]
  rw [hdelta] at hframes hlost hslips
  rw [if_pos (by rfl)] at hframes
  change _ = 0 + _ at hlost hslips
  refine ⟨?_, ?_, ?_, ?_⟩
  · rw [hframeID, uint32_of_lt (by omega) (by omega)]
  · rw [hslips, zero_add]
  · rw [hframes, if_pos (by omega), add_comm]
  · rw [hlost, hframes, if_pos (by omega)]
    split_ifs <;> omega

/-- A frame within an `int` counts itself, and the frames between it and the one before as lost. -/
theorem Counted.step (h : Counted first last n k i) (hpos : 1 ≤ last) (hlt : last < packet.frameID)
    (hfits : packet.frameID < 2147483648) :
    Counted first packet.frameID (n + 1) (k + if packet.frameID > last + 1 then 1 else 0)
      (isochFrames .client i packet) := by
  obtain ⟨hframeID, hframes, hlost, hslips⟩ := isochFrames_client i packet
  rw [h.frameID, int32_of_lt (by omega) (by omega)] at hframes hlost hslips
  rw [if_neg (by omega), if_pos (by omega), h.frames] at hframes
  have htotal := h.total
  rw [h.frames] at htotal
  refine ⟨?_, ?_, ?_, ?_⟩
  · rw [hframeID, uint32_of_lt (by omega) (by omega)]
  · rw [hslips, h.slips]
    split_ifs <;> omega
  · rw [hframes]
    omega
  · rw [hframes, hlost]
    split_ifs <;> omega

end

/-! ## Runs -/

section
variable {stats : TransferInfo} {packets : List ReportStruct}

/-- What every frame after the first one keeps, the run keeps. -/
theorem frames_run {P : Int → Int → Int → IsochStats → Prop} {frames : List ReportStruct} {last n k : Int}
    {i : IsochStats}
    (hstep : ∀ last n k i, ∀ packet ∈ frames, P last n k i → last < packet.frameID →
      P packet.frameID (n + 1) (k + if packet.frameID > last + 1 then 1 else 0) (isochFrames .client i packet))
    (h : P last n k i) (hids : (last :: frames.map (·.frameID)).Pairwise (· < ·)) :
    P ((frames.map (·.frameID)).getLastD last) (n + frames.length) (k + skips last (frames.map (·.frameID)))
      (frames.foldl (isochFrames .client) i) := by
  induction frames generalizing last n k i with
  | nil => simpa [skips] using h
  | cons packet frames ih =>
    have hlt : last < packet.frameID := List.rel_of_pairwise_cons hids (List.mem_cons_self ..)
    have hone := hstep last n k i packet (List.mem_cons_self ..) h hlt
    have hrest := ih (fun last n k i p hp => hstep last n k i p (List.mem_cons_of_mem _ hp)) hone hids.tail
    simpa only [List.map_cons, List.foldl_cons, skips, List.getLastD_cons, List.length_cons, Nat.cast_add,
      Nat.cast_one, add_assoc, add_comm (frames.length : Int)] using hrest

/-- The rule for a client that starts with fresh counts. -/
theorem isochRun_keeps {P : Int → Int → Int → IsochStats → Prop} {first : Int} {ids : List Int}
    (hmode : stats.common.threadMode = .client) (hfresh : stats.isochstats = default)
    (hids : frameIDs packets = first :: ids) (hlt : (first :: ids).Pairwise (· < ·))
    (hfirst : ∀ packet : ReportStruct, packet.frameID = first →
      P packet.frameID 1 (if packet.frameID > 1 then 1 else 0) (isochFrames .client default packet))
    (hstep : ∀ last n k i, ∀ packet : ReportStruct, packet.frameID ∈ ids → P last n k i → last < packet.frameID →
      P packet.frameID (n + 1) (k + if packet.frameID > last + 1 then 1 else 0) (isochFrames .client i packet)) :
    P (ids.getLastD first) (1 + ids.length) (skips 0 (first :: ids)) (isochRun stats packets).isochstats := by
  rw [isochRun_isochstats packets hmode, hfresh]
  unfold frameIDs at hids
  generalize packets.filter (fun p => Complete p) = frames at hids ⊢
  cases frames with
  | nil => cases hids
  | cons packet frames =>
    obtain ⟨rfl, rfl⟩ := List.cons.inj hids
    have hrun := frames_run (fun last n k i p hp => hstep last n k i p (List.mem_map_of_mem hp)) (hfirst packet rfl) hlt
    simpa only [List.length_map, List.foldl_cons, skips, zero_add] using hrun

/-- What a client has counted: too many frames by the id of the first one. -/
theorem isochRun_exceeds {first : Int} {ids : List Int} (hmode : stats.common.threadMode = .client)
    (hfresh : stats.isochstats = default) (hids : frameIDs packets = first :: ids)
    (hlt : (first :: ids).Pairwise (· < ·)) (hpos : 1 ≤ first) :
    Exceeds first (ids.getLastD first) (1 + ids.length) (skips 0 (first :: ids))
      (isochRun stats packets).isochstats := by
  apply isochRun_keeps hmode hfresh hids hlt
  · rintro packet rfl
    exact exceeds_first hpos
  · intro last n k i packet _ h hafter
    exact h.step hafter

/-- With ids that an `int` holds: too many by exactly that id, and the rest is right. -/
theorem isochRun_counted {first : Int} {ids : List Int} (hmode : stats.common.threadMode = .client)
    (hfresh : stats.isochstats = default) (hids : frameIDs packets = first :: ids)
    (hlt : (first :: ids).Pairwise (· < ·)) (hpos : 1 ≤ first) (hfits : ∀ id ∈ first :: ids, id < 2147483648) :
    Counted first (ids.getLastD first) (1 + ids.length) (skips 0 (first :: ids))
      (isochRun stats packets).isochstats := by
  have hboth : 1 ≤ ids.getLastD first ∧ Counted first (ids.getLastD first) (1 + ids.length) (skips 0 (first :: ids))
      (isochRun stats packets).isochstats := by
    apply isochRun_keeps (P := fun last n k i => 1 ≤ last ∧ Counted first last n k i) hmode hfresh hids hlt
    · rintro packet rfl
      exact ⟨hpos, counted_first hpos (hfits _ (List.mem_cons_self ..))⟩
    · rintro last n k i packet hmem ⟨hlast, h⟩ hafter
      exact ⟨by omega, h.step hlast hafter (hfits _ (List.mem_cons_of_mem _ hmem))⟩
  exact hboth.2

/-- The frames of a client are accounted for only while there are none. -/
theorem frame_accounting (hmode : stats.common.threadMode = .client) (hfresh : stats.isochstats = default)
    (hids : (frameIDs packets).Pairwise (· < ·)) (hpos : ∀ id ∈ frameIDs packets, 1 ≤ id) :
    FramesAccounted (isochRun stats packets).isochstats (frameIDs packets) ↔ frameIDs packets = [] := by
  constructor
  · intro haccounted
    cases hcons : frameIDs packets with
    | nil => rfl
    | cons first ids =>
      exfalso
      rw [hcons] at hids hpos haccounted
      have hfirst : 1 ≤ first := hpos first (List.mem_cons_self ..)
      have hexceeds := (isochRun_exceeds hmode hfresh hcons hids hfirst).frames
      have hframes := haccounted.frames
      have hslips := haccounted.slips
      rw [List.length_cons, Nat.cast_add, Nat.cast_one] at hframes
      omega
  · intro hnil
    have hframes : packets.filter (fun p => Complete p) = [] := List.map_eq_nil_iff.mp hnil
    have hcounts : (isochRun stats packets).isochstats = default := by
      rw [isochRun_isochstats packets hmode, hframes, hfresh]
      rfl
    rw [hnil, hcounts]
    exact ⟨rfl, rfl, rfl⟩

end

/-- A client before its first frame. -/
def freshClient : TransferInfo :=
  { (default : TransferInfo) with common := { (default : ReportCommon) with threadMode := .client } }

/-- The first frame of a client. -/
def frameOne : ReportStruct := { (default : ReportStruct) with frameID := 1, transitReady := true }

theorem frame_accounting_frameOne :
    FramesAccounted (isochRun freshClient [frameOne]).isochstats (frameIDs [frameOne]) ↔ frameIDs [frameOne] = [] :=
  frame_accounting rfl rfl (by decide) (by decide)

/-- One frame is counted twice. -/
theorem frameOne_twice : ¬ ∀ (stats : TransferInfo) (packets : List ReportStruct),
    stats.common.threadMode = .client → stats.isochstats = default → (frameIDs packets).Pairwise (· < ·) →
    (∀ id ∈ frameIDs packets, 1 ≤ id) →
    FramesAccounted (isochRun stats packets).isochstats (frameIDs packets) := by
  intro hall
  have hone := hall freshClient [frameOne] rfl rfl (by decide) (by decide)
  exact absurd hone.frames (by decide)

end Iperf2.Report
