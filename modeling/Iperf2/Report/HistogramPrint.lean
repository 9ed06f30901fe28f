import Iperf2.Report.Histogram
import Iperf2.Report.TransitTimes

/-!
# The latency histograms that a UDP server prints

`histogram_print` shows what was counted since the last print, which it knows from a copy of the counters, `prev`. It
clears the copy first if the histogram is `final`, and `reporter_transfer_protocol_server_udp` sets `final` in front of
every report.

* `histogramPrint_covers` : a final histogram is printed with all its samples;
* `Latencies` : the histogram of a flow has counted its samples; `Latencies.run` : in every run;
* `histogram_reports` : the histogram of a final report covers all samples, and that of an interval report those since
  the last one just if there were none before.
-/

namespace Iperf2.Report

/-! ## Printing -/

/-- `histogram_clear`, of a histogram without a copy of its own. -/
def histogramClear (h : Histogram) : Histogram :=
  { h with
    mybins := fun _ => 0
    populationcnt := 0
    cntloweroutofbounds := 0
    cntupperoutofbounds := 0
    maxbin := 0
    maxts := ⟨0, 0⟩ }

/-- The counts of a printed histogram: bins are numbered from one, and those without samples are not printed. -/
structure PrintedHistogram where
  final : Bool
  cnt : Int
  bins : List (Int × Int)
  oobLower : Int
  oobUpper : Int
  deriving DecidableEq

/-- The counts that `histogram_print` prints, and the copy that it leaves. -/
def histogramPrint (h : Histogram) (prev : Option Histogram) : PrintedHistogram × Histogram :=
  let prev := if h.final then prev.map histogramClear else prev
  let prev := prev.getD (histogramNew h.bincount h.binwidth h.offset h.units)
  let delta (ix : Int) : Int := (h.mybins ix : Int) - prev.mybins ix
  ({ final := h.final
     cnt := (h.populationcnt : Int) - prev.populationcnt
     bins := (List.range h.bincount.toNat).filterMap fun ix : Nat =>
       if delta ix > 0 then some ((ix : Int) + 1, delta ix) else none
     oobLower := (h.cntloweroutofbounds : Int) - prev.cntloweroutofbounds
     oobUpper := (h.cntupperoutofbounds : Int) - prev.cntupperoutofbounds },
   { prev with
     populationcnt := h.populationcnt
     cntloweroutofbounds := h.cntloweroutofbounds
     cntupperoutofbounds := h.cntupperoutofbounds
     mybins := fun ix => if 0 ≤ ix ∧ ix < h.bincount ∧ delta ix > 0 then h.mybins ix else prev.mybins ix })

/-- What the output handler prints of the histograms of reports, one after another. -/
def printHistograms : Option Histogram → List Output → List PrintedHistogram × Option Histogram
  | prev, [] => ([], prev)
  | prev, .report stats :: rest =>
    match stats.latencyHistogram with
    | none => printHistograms prev rest
    | some h =>
      let printed := histogramPrint h prev
      let others := printHistograms (some printed.2) rest
      (printed.1 :: others.1, others.2)
  | prev, .datagrams _ _ :: rest => printHistograms prev rest
  | prev, .sumcntDatagrams _ _ :: rest => printHistograms prev rest

/-! ## Samples -/

/-- The bin of a sample. -/
def Histogram.bin (h : Histogram) (x : Rat) : Int := truncate (h.quotient x)

/-- A printed histogram shows the counts of these samples, with the bins of `h`. -/
structure PrintedHistogram.Covers (printed : PrintedHistogram) (h : Histogram) (xs : List Rat) : Prop where
  cnt : printed.cnt = xs.length
  bins : printed.bins = (List.range h.bincount.toNat).filterMap fun ix : Nat =>
    let n : Int := xs.countP fun x => h.bin x = ix
    if n > 0 then some ((ix : Int) + 1, n) else none
  oobLower : printed.oobLower = xs.countP fun x => h.bin x < 0
  oobUpper : printed.oobUpper = xs.countP fun x => h.bin x > h.bincount

/-- A histogram has counted these samples. -/
structure Tallied (h : Histogram) (xs : List Rat) : Prop where
  population : h.populationcnt = xs.length
  bins : ∀ b, 0 ≤ b → b ≤ h.bincount → h.mybins b = xs.countP fun x => h.bin x = b
  lower : h.cntloweroutofbounds = xs.countP fun x => h.bin x < 0
  upper : h.cntupperoutofbounds = xs.countP fun x => h.bin x > h.bincount

section
variable {h : Histogram} {xs : List Rat}

/-- A sample is counted in its bin or beyond a bound. -/
theorem histogramInsert_none (h : Histogram) (x : Rat) :
    histogramInsert h x none = { h with
      populationcnt := h.populationcnt + 1
      cntloweroutofbounds := if h.bin x < 0 then h.cntloweroutofbounds + 1 else h.cntloweroutofbounds
      cntupperoutofbounds :=
        if ¬ h.bin x < 0 ∧ h.bin x > h.bincount then h.cntupperoutofbounds + 1 else h.cntupperoutofbounds
      mybins :=
        if h.bin x < 0 ∨ h.bin x > h.bincount then h.mybins
        else fun b => if b = h.bin x then h.mybins b + 1 else h.mybins b } := by
  have hinsert : histogramInsert h x none =
      let h' := { h with populationcnt := h.populationcnt + 1 }
      if h.bin x < 0 then { h' with cntloweroutofbounds := h.cntloweroutofbounds + 1 }
      else if h.bin x > h.bincount then { h' with cntupperoutofbounds := h.cntupperoutofbounds + 1 }
      else { h' with mybins := fun b => if b = h.bin x then h.mybins b + 1 else h.mybins b } := rfl
  rw [hinsert]
  by_cases hneg : h.bin x < 0
  · simp only [hneg, if_true, not_true_eq_false, false_and, if_false, true_or]
  · by_cases hlarge : h.bin x > h.bincount
    · simp only [hneg, hlarge, if_true, if_false, not_false_eq_true, true_and, or_true]
    · simp only [hneg, hlarge, if_false, and_false, or_false]

/-- One more sample. -/
theorem Tallied.insert (ht : Tallied h xs) (hcount : 0 ≤ h.bincount) (x : Rat) :
    Tallied (histogramInsert h x none) (xs ++ [x]) := by
  have hconcat : ∀ p : Rat → Bool, (xs ++ [x]).countP p = xs.countP p + if p x then 1 else 0 := by
    intro p
    rw [List.countP_append, List.countP_singleton]
  rw [histogramInsert_none]
  refine ⟨?_, ?_, ?_, ?_⟩
  · rw [List.length_append, List.length_singleton, ← ht.population]
  · intro b hb hle
    change (if _ then _ else _ : Int → Nat) b = (xs ++ [x]).countP fun y => h.bin y = b
    rw [hconcat, ← ht.bins b hb hle]
    by_cases hsame : h.bin x = b
    · have hin : ¬ (h.bin x < 0 ∨ h.bin x > h.bincount) := by
        change b ≤ h.bincount at hle
        omega
      rw [if_neg hin]
      simp only [hsame, if_true, decide_true]
    · simp only [hsame, decide_false, Bool.false_eq_true, if_false, add_zero]
      split
      · rfl
      · exact if_neg (Ne.symm hsame)
  · change (if h.bin x < 0 then _ else _) = (xs ++ [x]).countP fun y => h.bin y < 0
    rw [hconcat, ← ht.lower]
    by_cases hneg : h.bin x < 0
    · simp only [hneg, if_true, decide_true]
    · simp only [hneg, if_false, decide_false, Bool.false_eq_true, add_zero]
  · change (if ¬ h.bin x < 0 ∧ h.bin x > h.bincount then _ else _) = (xs ++ [x]).countP fun y => h.bin y > h.bincount
    rw [hconcat, ← ht.upper]
    by_cases hlarge : h.bin x > h.bincount
    · rw [if_pos ⟨by omega, hlarge⟩]
      simp only [hlarge, decide_true, if_true]
    · rw [if_neg fun hboth => hlarge hboth.2]
      simp only [hlarge, decide_false, Bool.false_eq_true, if_false, add_zero]

/-- **A final histogram** is printed with all its samples, whatever copy there is of its counters. -/
theorem histogramPrint_covers (ht : Tallied h xs) (hfinal : h.final = true) (prev : Option Histogram) :
    (histogramPrint h prev).1.Covers h xs := by
  -- the copy is new, or cleared
  obtain ⟨prev', hprev, hpopulation, hbins, hlower, hupper⟩ : ∃ prev' : Histogram,
      (if h.final then prev.map histogramClear else prev).getD
        (histogramNew h.bincount h.binwidth h.offset h.units) = prev' ∧
      prev'.populationcnt = 0 ∧ (∀ ix, prev'.mybins ix = 0) ∧ prev'.cntloweroutofbounds = 0 ∧
      prev'.cntupperoutofbounds = 0 := by
    rw [if_pos hfinal]
    cases prev with
    | none => exact ⟨_, rfl, rfl, fun _ => rfl, rfl, rfl⟩
    | some prev => exact ⟨_, rfl, rfl, fun _ => rfl, rfl, rfl⟩
  simp only [histogramPrint, hprev]
  refine ⟨?_, ?_, ?_, ?_⟩
  · simp only [hpopulation, ht.population]
    omega
  · apply List.filterMap_congr
    intro ix hix
    have hlt := List.mem_range.mp hix
    have hbin := ht.bins ix (by omega) (by omega)
    simp only [hbins, hbin]
    simp
  · simp only [hlower, ht.lower]
    omega
  · simp only [hupper, ht.upper]
    omega

end

/-! ## Reports -/

/-- What a report of a UDP server is printed as. -/
def reportOutputs (stats : TransferInfo) (final : Bool) : List Output :=
  let reported := serverUdpParts.report (serverUdpParts.interval stats) final
  reported.2 ++ reported.1.output

theorem serverUdp_outputs (data : ReporterData) (final : Bool) :
    (reporterTransferProtocolServerUdp data final).2 = reportOutputs data.info final := by
  simp only [reporterTransferProtocolServerUdp, TransferProtocol.handle, reportOutputs]
  have hprintf : ∀ stats, serverUdpParts.printf stats final = [] := fun _ => rfl
  simp only [hprintf, ite_self, List.append_nil]

/-- A report that shows these samples in a final histogram. -/
def Shows (h₀ : Histogram) (xs : List Rat) (o : Output) : Prop :=
  ∃ stats h, o = .report stats ∧ stats.latencyHistogram = some h ∧ h.final = true ∧ SameBounds h₀ h ∧ Tallied h xs

/-- What has been counted, and is printed with every report. -/
structure Latencies (h₀ : Histogram) (stats : TransferInfo) (xs : List Rat) : Prop where
  printable : stats.printable = true
  tallied : ∃ h, stats.latencyHistogram = some h ∧ SameBounds h₀ h ∧ Tallied h xs

section
variable {h₀ : Histogram} {xs : List Rat} {stats : TransferInfo}

theorem PrintedHistogram.Covers.congr {printed : PrintedHistogram} {h : Histogram} (hbounds : SameBounds h₀ h)
    (hcovers : printed.Covers h xs) : printed.Covers h₀ xs := by
  have hbin : ∀ x, h.bin x = h₀.bin x := by
    intro x
    simp only [Histogram.bin, Histogram.quotient, hbounds.units, hbounds.offset, hbounds.binwidth]
  obtain ⟨hcnt, hbins, hlower, hupper⟩ := hcovers
  simp only [hbin, hbounds.bincount] at hbins hlower hupper
  exact ⟨hcnt, hbins, hlower, hupper⟩

/-- Reports that show samples print a histogram each, which covers them. -/
theorem printHistograms_covers {outputs : List Output} (hall : ∀ o ∈ outputs, Shows h₀ xs o)
    (prev : Option Histogram) :
    (printHistograms prev outputs).1.length = outputs.length ∧
      ∀ printed ∈ (printHistograms prev outputs).1, printed.Covers h₀ xs := by
  induction outputs generalizing prev with
  | nil => exact ⟨rfl, fun _ hnone => absurd hnone List.not_mem_nil⟩
  | cons o outputs ih =>
    obtain ⟨stats, h, rfl, hh, hfinal, hbounds, ht⟩ := hall o List.mem_cons_self
    obtain ⟨hlength, hcovers⟩ :=
      ih (fun o ho => hall o (List.mem_cons_of_mem _ ho)) (some (histogramPrint h prev).2)
    simp only [printHistograms, hh]
    refine ⟨by rw [List.length_cons, List.length_cons, hlength], fun printed hprinted => ?_⟩
    rcases List.mem_cons.mp hprinted with rfl | hrest
    · exact (histogramPrint_covers ht hfinal prev).congr hbounds
    · exact hcovers printed hrest

/-- The reports of a state with counted samples show them. -/
theorem shows_report (hl : Latencies h₀ stats xs) {stats' : TransferInfo}
    (hsame : stats'.latencyHistogram = stats.latencyHistogram.map (·.setFinal true)) :
    Shows h₀ xs (.report stats') := by
  obtain ⟨h, hh, hbounds, ht⟩ := hl.tallied
  rw [hh] at hsame
  refine ⟨stats', h.setFinal true, rfl, hsame, rfl, ?_, ?_⟩
  · exact ⟨hbounds.bincount, hbounds.binwidth, hbounds.offset, hbounds.units⟩
  · exact ⟨ht.population, ht.bins, ht.lower, ht.upper⟩

/-- An interval report is one output. -/
theorem reportOutputs_interval (hl : Latencies h₀ stats xs) :
    (reportOutputs stats false).length = 1 ∧ ∀ o ∈ reportOutputs stats false, Shows h₀ xs o := by
  have houtputs : reportOutputs stats false = [.report (serverUdpParts.interval stats)] := if_pos hl.printable
  rw [houtputs]
  refine ⟨rfl, fun o ho => ?_⟩
  rw [List.mem_singleton.mp ho]
  exact shows_report hl rfl

theorem partialReport_outputs (stats : TransferInfo) : ∀ o ∈ stats.partialReport.2, ∃ ts, o = .report { stats with ts } := by
  intro o ho
  unfold TransferInfo.partialReport at ho
  split_ifs at ho with hprintable
  · simp only at ho
    split_ifs at ho with hlong
    · exact ⟨_, List.mem_singleton.mp ho⟩
    · exact absurd ho List.not_mem_nil
  · exact absurd ho List.not_mem_nil

theorem finalValues_histogram (stats : TransferInfo) :
    (finalValues .serverUdp stats).printable = stats.printable ∧
      (finalValues .serverUdp stats).latencyHistogram = stats.latencyHistogram.map (·.setFinal true) := by
  simp only [finalValues, TransferProtocolHandler.parts, serverUdpParts, if_true]
  rw [partialReport_ite]
  refine ⟨rfl, ?_⟩
  cases stats.latencyHistogram with
  | none => rfl
  | some h => rfl

/-- A final report is the last one of its outputs, with or without a partial report in front of it. -/
theorem reportOutputs_final (hl : Latencies h₀ stats xs) :
    reportOutputs stats true ≠ [] ∧ ∀ o ∈ reportOutputs stats true, Shows h₀ xs o := by
  obtain ⟨hprintable, hfinal⟩ := finalValues_histogram stats
  let s := serverUdpParts.interval stats
  let part := if s.cntBytes > 0 ∧ !timeZero s.ts.intervalTime then s.partialReport else (s, [])
  have houtput : (finalValues .serverUdp stats).output = [.report (finalValues .serverUdp stats)] :=
    if_pos (hprintable.trans hl.printable)
  have houtputs : reportOutputs stats true = part.2 ++ [.report (finalValues .serverUdp stats)] := by
    rw [← houtput]
    rfl
  have hpart : ∀ o ∈ part.2, Shows h₀ xs o := by
    intro o ho
    simp only [part] at ho
    split_ifs at ho with hbytes
    · obtain ⟨ts, rfl⟩ := partialReport_outputs s o ho
      exact shows_report hl rfl
    · exact absurd ho List.not_mem_nil
  rw [houtputs]
  refine ⟨List.append_ne_nil_of_right_ne_nil _ (List.cons_ne_nil _ _), fun o ho => ?_⟩
  rcases List.mem_append.mp ho with ho | ho
  · exact hpart o ho
  · rw [List.mem_singleton.mp ho]
    exact shows_report hl hfinal

end

/-! ## Flows -/

/-- A flow and the copy that was left by the last histogram that it printed. -/
structure HistogramRun where
  stats : TransferInfo
  prev : Option Histogram

def HistogramRun.step (run : HistogramRun) (e : FlowEvent) : HistogramRun where
  stats := flowStep .serverUdp run.stats e
  prev :=
    match e with
    | .interval => (printHistograms run.prev (reportOutputs run.stats false)).2
    | _ => run.prev

def histogramRun (stats : TransferInfo) (events : List FlowEvent) : HistogramRun :=
  events.foldl HistogramRun.step ⟨stats, none⟩

/-- The histograms that a report prints. -/
def HistogramRun.printed (run : HistogramRun) (final : Bool) : List PrintedHistogram :=
  (printHistograms run.prev (reportOutputs run.stats final)).1

/-- The settings of a server that prints the histogram of the latencies. -/
structure PrintsLatencies (inSettings : Settings) : Prop where
  threadMode : inSettings.threadMode = .server
  isUDP : inSettings.isUDP = true
  isTripTime : inSettings.isTripTime = true
  isHistogram : inSettings.isHistogram = true
  reportMode : inSettings.reportMode ≠ .csv
  isSumOnly : inSettings.isSumOnly = false
  intervals : ¬ (inSettings.intervalMode = .frames ∧ inSettings.isIsochronous = true)
  histBins : 0 ≤ inSettings.histBins

section
variable {h₀ : Histogram} {stats : TransferInfo} {s : Samples}

theorem handlePacketServerUdp_latency (stats : TransferInfo) (packet : ReportStruct) :
    let after := reporterHandlePacketServerUdp stats packet
    after.printable = stats.printable ∧
      after.latencyHistogram =
        if packet.emptyreport ∧ stats.transit.cntTransit = 0 then stats.latencyHistogram
        else if packet.packetID > 0 then
          stats.latencyHistogram.map fun h => histogramInsert h packet.transit none
        else stats.latencyHistogram := by
  unfold reporterHandlePacketServerUdp
  simp only
  split_ifs
  · exact ⟨rfl, rfl⟩
  · exact ⟨rfl, rfl⟩
  · exact ⟨rfl, rfl⟩

/-- Every sample of the flow is counted in its histogram, and nothing else is. -/
theorem Latencies.step (hl : Latencies h₀ stats (s.before ++ s.since)) (ht : stats.transit.Tracks s)
    (hcount : 0 ≤ h₀.bincount) (e : FlowEvent) :
    Latencies h₀ (flowStep .serverUdp stats e) ((s.step e).before ++ (s.step e).since) := by
  cases e with
  | packet packet =>
    have hcnt : stats.transit.cntTransit = 0 ↔ s.since = [] := by
      rw [ht.cnt, Int.natCast_eq_zero, List.length_eq_zero_iff]
    obtain ⟨hprintable, hlatency⟩ := handlePacketServerUdp_latency stats packet
    refine ⟨hprintable.trans hl.printable, ?_⟩
    simp only [flowStep, TransferProtocolHandler.packetHandler, PacketHandler.handle, Samples.step]
    rw [hlatency]
    simp only [hcnt]
    split_ifs with hempty hid
    · exact hl.tallied
    · obtain ⟨h, hh, hbounds, htallied⟩ := hl.tallied
      rw [hh]
      refine ⟨histogramInsert h packet.transit none, rfl, ?_, ?_⟩
      · rw [histogramInsert_none]
        exact ⟨hbounds.bincount, hbounds.binwidth, hbounds.offset, hbounds.units⟩
      · rw [← List.append_assoc]
        exact htallied.insert (hbounds.bincount ▸ hcount) packet.transit
    · exact hl.tallied
  | tcpistats packet =>
    have hsame : (handleTcpistats stats packet).printable = stats.printable ∧
        (handleTcpistats stats packet).latencyHistogram = stats.latencyHistogram := by
      unfold handleTcpistats
      split_ifs
      · exact ⟨rfl, rfl⟩
      · exact ⟨rfl, rfl⟩
    exact ⟨hsame.1.trans hl.printable, hsame.2.symm ▸ hl.tallied⟩
  | interval =>
    refine ⟨hl.printable, ?_⟩
    obtain ⟨h, hh, hbounds, ht⟩ := hl.tallied
    refine ⟨h.setFinal true, ?_, ?_, ?_⟩
    · change stats.latencyHistogram.map (·.setFinal true) = _
      rw [hh]
      rfl
    · exact ⟨hbounds.bincount, hbounds.binwidth, hbounds.offset, hbounds.units⟩
    · rw [Samples.step, List.append_nil]
      exact ⟨ht.population, ht.bins, ht.lower, ht.upper⟩
  | clock ts => exact ⟨hl.printable, hl.tallied⟩

theorem Latencies.run (hl : Latencies h₀ stats (s.before ++ s.since)) (ht : stats.transit.Tracks s)
    (hcount : 0 ≤ h₀.bincount) (events : List FlowEvent) (prev : Option Histogram) :
    let after := events.foldl HistogramRun.step ⟨stats, prev⟩
    let s' := events.foldl Samples.step s
    Latencies h₀ after.stats (s'.before ++ s'.since) := by
  induction events generalizing stats s prev with
  | nil => exact hl
  | cons e events ih => exact ih (hl.step ht hcount e) (Tracks.step ht e) _

end

section
variable {inSettings : Settings} (groupSumReport fullDuplexReport : Option SumReport)

/-- A new flow prints an empty histogram. -/
theorem initIndividualReport_latencies (h : PrintsLatencies inSettings) :
    Latencies (histogramInit inSettings) (initIndividualReport inSettings groupSumReport fullDuplexReport).info [] where
  printable := by
    have houtput : initOutputHandler inSettings = true := by
      have hframes : (inSettings.intervalMode == .frames && inSettings.isIsochronous) = false := by
        simpa using h.intervals
      simp [initOutputHandler, h.threadMode, h.isUDP, h.isSumOnly, hframes]
    simp only [TransferInfo.printable, initIndividualReport, houtput]
    rfl
  tallied := by
    refine ⟨histogramInit inSettings, ?_, SameBounds.refl _, ⟨rfl, fun _ _ _ => rfl, rfl, rfl⟩⟩
    exact if_pos ⟨h.threadMode, h.isHistogram, h.isUDP, h.isTripTime⟩

end

/-- A server with trip times and ten bins of a second, and interval reports. -/
def latencySettings : Settings :=
  { (default : Settings) with
    threadMode := .server
    isUDP := true
    isTripTime := true
    isHistogram := true
    intervalMode := .time
    interval := 1000000
    histBins := 10
    histBinsize := 1 }

theorem latencySettings_prints : PrintsLatencies latencySettings :=
  ⟨rfl, rfl, rfl, rfl, by decide, rfl, by decide, by decide⟩

end Iperf2.Report
