import Iperf2.Ring.Slot
import Iperf2.Report.Run

/-!
# From a traffic thread to the reporter

A traffic thread posts a record for every packet (`ReportPacket`), and at its end a final one (`EndJob`), after which
it waits until the reporter is done with its job. The reporter calls `reporter_process_transfer_report` for the job
again and again; a call takes records from the ring until it is empty or an interval report was printed, and reads each
one in its slot. The final record takes the job out of the reporter's queue.

* `Pipeline.step` : both threads interleaved, with every access to the ring;
* `Turn`, `replay` : the sequential reporter, which is given the records one after the other;
* `Flowing` : the invariant of both;
* `pipeline_sequential` : the reporter does what the sequential one does, and `EndJob` returns behind it;
* `endJob_returns` : `EndJob` can always return.
-/

namespace Iperf2.Report
open Transition Iperf2.Ring

/-- Where a traffic thread is: in its loop, in `EndJob`, or behind it. -/
inductive TrafficPc
  | traffic
  | endJob
  | ended
  deriving DecidableEq

/-- Where the reporter is with the job. -/
inductive JobPc
  /-- Between two calls of `reporter_process_report`. -/
  | jobq
  /-- In the loop of `reporter_process_transfer_report`, at `packetring_dequeue`. -/
  | loop
  /-- With a pointer to a record. -/
  | packet
  /-- `reporter_process_transfer_report` returned that the job is done. -/
  | done
  /-- `consumerdone` is stored, and the signal to the traffic thread comes next. -/
  | signal
  /-- The job is out of the queue. -/
  | removed
  deriving DecidableEq

structure Pipeline where
  threads : Threads ReportStruct
  traffic : TrafficPc
  reporter : JobPc
  data : ReporterData
  printed : List Output

inductive PipelineEvent
  /-- The traffic thread calls `ReportPacket`. -/
  | reportPacket (packet : ReportStruct)
  /-- It sets the times of its report that it keeps itself. -/
  | clock (ts : ReportTimeStamps)
  /-- A step inside of `packetring_enqueue`. -/
  | enqueue (a : Label ReportStruct)
  /-- The traffic thread calls `EndJob`, which comes to its `ReportPacket`. -/
  | endJob (finalpacket : ReportStruct)
  /-- `while (!report->packetring->consumerdone)` -/
  | testDone
  /-- The reporter calls `reporter_process_report` for the job. -/
  | process
  | dequeue
  | advance
  /-- It handles the record behind its pointer. -/
  | handle
  /-- The reports that the flow shares are changed by another flow. -/
  | shared (groupSumReport fullDuplexReport : Option SumReport)
  | consumerdone
  | signal

namespace Pipeline

def init (count : Nat) (data : ReporterData) : Pipeline where
  threads := .init count true
  traffic := .traffic
  reporter := .jobq
  data
  printed := []

def setConsumerdone (threads : Threads ReportStruct) (consumerdone : Bool) : Threads ReportStruct :=
  { threads with ring := { threads.ring with consumerdone } }

/-- The call returns after this record: an interval report was printed, or it is the last one. -/
def advanceJobq (data : ReporterData) (packet : ReportStruct) : Bool :=
  (processPacket { data with info := handleTcpistats data.info packet } packet).2.2

/-- A step of the ring that is not the start of a call. -/
def inEnqueue {α : Type} : Label α → Bool
  | .testAtEnd | .testBehind | .awake | .tear _ | .memcpy | .store => true
  | .enqueue _ | .dequeue | .advance => false

def step (s : Pipeline) : PipelineEvent → Option Pipeline
  | .reportPacket packet =>
    if s.traffic = .traffic then (Ring.step s.threads (.enqueue packet)).map ({ s with threads := · }) else none
  | .clock ts =>
    if s.traffic = .traffic then some { s with data := { s.data with info := { s.data.info with ts } } } else none
  | .enqueue a => if inEnqueue a then (Ring.step s.threads a).map ({ s with threads := · }) else none
  | .endJob finalpacket =>
    if s.traffic = .traffic then
      (Ring.step (setConsumerdone s.threads false) (.enqueue (endPacket finalpacket))).map ({ s with
        threads := ·
        traffic := .endJob })
    else none
  | .testDone =>
    match s.traffic, s.threads.producerPc with
    | .endJob, .idle => some (if s.threads.ring.consumerdone then { s with traffic := .ended } else s)
    | _, _ => none
  | .process => if s.reporter = .jobq then some { s with reporter := .loop } else none
  | .dequeue =>
    if s.reporter = .loop then
      (Ring.step s.threads .dequeue).map fun threads =>
        -- NULL ends the call
        { s with
          threads
          reporter := if threads.consumerPc = .idle then .jobq else .loop }
    else none
  | .advance =>
    if s.reporter = .loop then
      (Ring.step s.threads .advance).map ({ s with
        threads := ·
        reporter := .packet })
    else none
  | .handle =>
    match s.reporter, s.threads.held with
    | .packet, some r =>
      let packet := s.threads.ring.data r
      let (data, printed, last) := reporterProcessTransferReport s.data packet
      some { s with
        data
        printed := s.printed ++ printed
        reporter := if last then .done else if advanceJobq s.data packet then .jobq else .loop }
    | _, _ => none
  | .shared groupSumReport fullDuplexReport =>
    match s.reporter with
    | .jobq | .loop | .packet => some { s with data := { s.data with
        groupSumReport
        fullDuplexReport } }
    | _ => none
  | .consumerdone =>
    if s.reporter = .done then some { s with
      threads := setConsumerdone s.threads true
      reporter := .signal }
    else none
  | .signal => if s.reporter = .signal then some { s with reporter := .removed } else none

/-- The ring has room when its full test says so, and the records of the traffic are not final ones. -/
def Guard (s : Pipeline) : PipelineEvent → Prop
  | .reportPacket packet => 0 ≤ packet.packetID
  | .enqueue a => LetThrough s.threads a
  | _ => True

instance (s : Pipeline) (e : PipelineEvent) : Decidable (s.Guard e) := by
  unfold Guard
  split <;> infer_instance

end Pipeline

/-! ## The sequential reporter -/

/-- What happens to the data of a flow. -/
inductive Turn
  | record (packet : ReportStruct)
  | clock (ts : ReportTimeStamps)
  | shared (groupSumReport fullDuplexReport : Option SumReport)

/-- The data and what was printed, after a turn. -/
def Turn.take (report : ReporterData × List Output) : Turn → ReporterData × List Output
  | .record packet =>
    let (data, printed, _) := reporterProcessTransferReport report.1 packet
    (data, report.2 ++ printed)
  | .clock ts => ({ report.1 with info := { report.1.info with ts } }, report.2)
  | .shared groupSumReport fullDuplexReport => ({ report.1 with
      groupSumReport
      fullDuplexReport }, report.2)

def replay (data : ReporterData) (turns : List Turn) : ReporterData × List Output := turns.foldl Turn.take (data, [])

def turnRecords (turns : List Turn) : List ReportStruct :=
  turns.filterMap fun
    | .record packet => some packet
    | _ => none

theorem replay_concat (data : ReporterData) (turns : List Turn) (t : Turn) :
    replay data (turns ++ [t]) = t.take (replay data turns) := by
  rw [replay, List.foldl_append]
  rfl

theorem turnRecords_concat (turns : List Turn) (t : Turn) :
    turnRecords (turns ++ [t]) = turnRecords turns ++ turnRecords [t] :=
  List.filterMap_append

/-- The last packet is the one that `reporter_process_transfer_report` says is the last. -/
theorem processTransferReport_last (data : ReporterData) (packet : ReportStruct) :
    (reporterProcessTransferReport data packet).2.2 = true ↔ packet.packetID < 0 := by
  unfold reporterProcessTransferReport
  split
  · rename_i hlast
    exact iff_of_true rfl hlast
  · rename_i htraffic
    exact iff_of_false Bool.false_ne_true htraffic

/-! ## The ring between them -/

/-- The packet of a call of `packetring_enqueue`. -/
def inFlight {α : Type} : ProducerPc α → List α
  | .idle => []
  | .testAtEnd p | .testBehind p | .await p | .copy p _ | .store p _ => [p]

/-- What is enqueued, or is about to be. -/
def posted {α : Type} (t : Threads α) : List α := t.enqueued ++ inFlight t.producerPc

section
variable {α : Type} {t t' : Threads α} {a : Label α}

theorem posted_enqueue {p : α} (h : Ring.step t (.enqueue p) = some t') :
    t.producerPc = .idle ∧ t'.producerPc = .testAtEnd p ∧ posted t' = posted t ++ [p] ∧ t'.returned = t.returned ∧
      t'.consumerPc = t.consumerPc ∧ t'.held = t.held ∧ t'.ring = t.ring := by
  simp only [Ring.step] at h
  split at h <;> cases h
  rename_i hpc
  refine ⟨hpc, rfl, ?_, rfl, rfl, rfl, rfl⟩
  simp [posted, inFlight, hpc]

/-- A step inside of `packetring_enqueue`. -/
theorem posted_inEnqueue (ha : Pipeline.inEnqueue a) (h : Ring.step t a = some t') :
    posted t' = posted t ∧ t'.returned = t.returned ∧ t'.consumerPc = t.consumerPc ∧ t'.held = t.held ∧
      t'.ring.consumerdone = t.ring.consumerdone := by
  obtain ⟨n, hn⟩ := await_eq t.ring
  cases a with
  | enqueue | dequeue | advance => cases ha
  | testAtEnd | testBehind =>
    simp only [Ring.step, hn] at h
    split at h
    · rename_i hpc
      split at h <;> cases h <;> exact ⟨by simp [posted, inFlight, hpc], rfl, rfl, rfl, rfl⟩
    · cases h
  | awake | tear | memcpy =>
    simp only [Ring.step] at h
    split at h <;> cases h
    rename_i hpc
    exact ⟨by simp [posted, inFlight, hpc], rfl, rfl, rfl, rfl⟩
  | store =>
    simp only [Ring.step] at h
    split at h <;> cases h
    rename_i hpc
    exact ⟨by simp [posted, inFlight, hpc], rfl, rfl, rfl, rfl⟩

/-- Outside of the call there is no such step. -/
theorem idle_not_inEnqueue (ha : Pipeline.inEnqueue a) (hidle : t.producerPc = .idle) : Ring.step t a ≠ some t' := by
  intro h
  cases a with
  | enqueue | dequeue | advance => cases ha
  | testAtEnd | testBehind | awake | tear | memcpy | store =>
    simp only [Ring.step, hidle] at h
    cases h

theorem step_maxcount (h : Ring.step t a = some t') : t'.ring.maxcount = t.ring.maxcount := by
  obtain ⟨n, hn⟩ := await_eq t.ring
  cases a with
  | testAtEnd | testBehind =>
    simp only [Ring.step, hn] at h
    split at h
    · split at h <;> cases h <;> rfl
    · cases h
  | dequeue =>
    simp only [Ring.step] at h
    split at h
    · split at h <;> cases h <;> rfl
    · cases h
  | enqueue | awake | tear | memcpy | store | advance =>
    simp only [Ring.step] at h
    split at h <;> cases h
    rfl

/-- `packetring_dequeue` finds the ring empty, or is about to store the index. -/
theorem step_dequeue (h : Ring.step t .dequeue = some t') :
    t.consumerPc = .idle ∧ posted t' = posted t ∧ t'.returned = t.returned ∧ t'.enqueued = t.enqueued ∧
      t'.producerPc = t.producerPc ∧ t'.ring = t.ring := by
  simp only [Ring.step] at h
  split at h
  · rename_i hidle
    split at h <;> cases h <;> exact ⟨hidle, rfl, rfl, rfl, rfl, rfl⟩
  · cases h

theorem step_advance (h : Ring.step t .advance = some t') :
    ∃ r, t.consumerPc = .advance r ∧ t' = { t with
      ring := { t.ring with consumer := r }
      consumerPc := .idle
      returned := t.returned ++ [t.ring.data r]
      held := some r } := by
  simp only [Ring.step] at h
  split at h <;> cases h
  rename_i r hr
  exact ⟨r, hr, rfl⟩

end

/-- `consumerdone` is not a word of the queue. -/
theorem refines_setConsumerdone {t : Threads ReportStruct} {c : Channel ReportStruct} (h : Refines t c) (done : Bool) :
    Refines (Pipeline.setConsumerdone t done) c :=
  ⟨h.sent, h.got, h.consumer_lt, h.room, h.producer, h.slots, h.producerAt, h.consumerAt⟩

theorem holds_setConsumerdone {t : Threads ReportStruct} (h : Ring.Holds t) (done : Bool) :
    Ring.Holds (Pipeline.setConsumerdone t done) :=
  ⟨h.idle, h.consumer, h.last⟩

/-! ## The invariant -/

/-- The reporter has handled the last record. -/
def JobPc.Finished : JobPc → Prop
  | .done | .signal | .removed => True
  | .jobq | .loop | .packet => False

/-- The job is done, and the traffic thread may know it. -/
def JobPc.Told : JobPc → Prop
  | .signal | .removed => True
  | .jobq | .loop | .packet | .done => False

theorem JobPc.Told.finished {pc : JobPc} (h : pc.Told) : pc.Finished := by
  cases pc with
  | signal | removed => trivial
  | jobq | loop | packet | done => exact h.elim

/-- The records of the traffic, and the final one behind them. -/
def Ending (packets : List ReportStruct) : Prop :=
  ∃ traffic finalpacket, packets = traffic ++ [endPacket finalpacket] ∧ ∀ p ∈ traffic, 0 ≤ p.packetID

/-- The pipeline after these turns of the sequential reporter. -/
structure Flowing (start : ReporterData) (s : Pipeline) (turns : List Turn) : Prop where
  count : 2 ≤ s.threads.ring.maxcount
  ring : ∃ c, Refines s.threads c
  holds : Ring.Holds s.threads
  consumer : s.reporter ≠ .loop → s.threads.consumerPc = .idle
  replayed : replay start turns = (s.data, s.printed)
  taken : s.reporter ≠ .packet → s.threads.returned = turnRecords turns
  pointed : s.reporter = .packet → s.threads.held ≠ none ∧ ∃ p, s.threads.returned = turnRecords turns ++ [p]
  traffic : s.traffic = .traffic → ∀ p ∈ posted s.threads, 0 ≤ p.packetID
  ending : s.traffic ≠ .traffic → Ending (posted s.threads)
  last : s.reporter.Finished ↔ ∃ p ∈ turnRecords turns, p.packetID < 0
  behind : s.reporter.Finished → ∃ before p, turns = before ++ [.record p]
  told : s.traffic ≠ .traffic → (s.threads.ring.consumerdone = true ↔ s.reporter.Told)
  ended : s.traffic = .ended → s.reporter.Told ∧ s.threads.producerPc = .idle

namespace Flowing
variable {start : ReporterData} {s s' : Pipeline} {turns : List Turn}

theorem init {count : Nat} (hcount : 2 ≤ count) (data : ReporterData) : Flowing data (.init count data) [] where
  count := hcount
  ring := ⟨_, .init hcount true⟩
  holds := .of_none rfl
  consumer := fun _ => rfl
  replayed := rfl
  taken := fun _ => rfl
  pointed := fun h => nomatch h
  traffic := fun _ _ hp => nomatch hp
  ending := fun h => absurd rfl h
  last := iff_of_false id fun ⟨_, hp, _⟩ => nomatch hp
  behind := fun h => h.elim
  told := fun h => absurd rfl h
  ended := fun h => nomatch h

/-- The ring after a step of its threads. -/
theorem ring_next (h : Flowing start s turns) {a : Label ReportStruct} (guard : LetThrough s.threads a)
    {threads : Threads ReportStruct} (hstep : Ring.step s.threads a = some threads) :
    2 ≤ threads.ring.maxcount ∧ (∃ c, Refines threads c) ∧ Ring.Holds threads := by
  obtain ⟨c, hR⟩ := h.ring
  refine ⟨?_, ?_, h.holds.next hR hstep⟩
  · rw [step_maxcount hstep]
    exact h.count
  · rcases step_simulates _ c _ _ hR guard hstep with hR' | ⟨-, c', -, hR'⟩
    · exact ⟨c, hR'⟩
    · exact ⟨c', hR'⟩

/-- The traffic thread goes on in the ring, and nothing changes for the reporter. -/
theorem producer (h : Flowing start s turns) {threads : Threads ReportStruct} {pc : TrafficPc}
    (hring : 2 ≤ threads.ring.maxcount ∧ (∃ c, Refines threads c) ∧ Ring.Holds threads)
    (hreturned : threads.returned = s.threads.returned) (hconsumer : threads.consumerPc = s.threads.consumerPc)
    (hheld : threads.held = s.threads.held) (hne : pc ≠ .ended)
    (htraffic : pc = .traffic → ∀ p ∈ posted threads, 0 ≤ p.packetID)
    (hending : pc ≠ .traffic → Ending (posted threads))
    (htold : pc ≠ .traffic → (threads.ring.consumerdone = true ↔ s.reporter.Told)) :
    Flowing start { s with
      threads
      traffic := pc } turns where
  count := hring.1
  ring := hring.2.1
  holds := hring.2.2
  consumer := fun hloop => hconsumer.trans (h.consumer hloop)
  replayed := h.replayed
  taken := fun hpacket => hreturned.trans (h.taken hpacket)
  pointed := fun hpacket => by
    rw [hreturned, hheld]
    exact h.pointed hpacket
  traffic := htraffic
  ending := hending
  last := h.last
  behind := h.behind
  told := htold
  ended := fun hended => absurd hended hne

theorem reportPacket (h : Flowing start s turns) {packet : ReportStruct}
    (guard : 0 ≤ packet.packetID) (hstep : s.step (.reportPacket packet) = some s') : Flowing start s' turns := by
  simp only [Pipeline.step] at hstep
  split at hstep
  · rename_i htraffic
    obtain ⟨threads, hthreads, rfl⟩ := Option.map_eq_some_iff.mp hstep
    obtain ⟨-, -, hposted, hreturned, hconsumer, hheld, -⟩ := posted_enqueue hthreads
    refine h.producer (h.ring_next (a := .enqueue packet) trivial hthreads) hreturned hconsumer hheld ?_ ?_ ?_ ?_
    · rw [htraffic]
      decide
    · intro _ p hp
      rw [hposted, List.mem_append, List.mem_singleton] at hp
      rcases hp with hp | rfl
      · exact h.traffic htraffic p hp
      · exact guard
    · exact fun hne => absurd htraffic hne
    · exact fun hne => absurd htraffic hne
  · cases hstep

/-- What the reporter handled is what the ring returned first. -/
theorem records_first (h : Flowing start s turns) : (turnRecords turns).IsPrefix s.threads.enqueued := by
  obtain ⟨c, hR⟩ := h.ring
  refine List.IsPrefix.trans ?_ hR.fifo.1
  by_cases hpacket : s.reporter = .packet
  · obtain ⟨-, p, hp⟩ := h.pointed hpacket
    rw [hp]
    exact List.prefix_append _ _
  · exact ⟨[], by rw [List.append_nil, h.taken hpacket]⟩

/-- During the traffic there is no last record. -/
theorem not_finished (h : Flowing start s turns) (htraffic : s.traffic = .traffic) : ¬ s.reporter.Finished := by
  intro hfinished
  obtain ⟨p, hp, hneg⟩ := h.last.mp hfinished
  have := h.traffic htraffic p (List.mem_append_left _ (h.records_first.subset hp))
  omega

theorem endJob (h : Flowing start s turns) {finalpacket : ReportStruct}
    (hstep : s.step (.endJob finalpacket) = some s') : Flowing start s' turns := by
  simp only [Pipeline.step] at hstep
  split at hstep
  · rename_i htraffic
    obtain ⟨threads, hthreads, rfl⟩ := Option.map_eq_some_iff.mp hstep
    obtain ⟨-, -, hposted, hreturned, hconsumer, hheld, hring⟩ := posted_enqueue hthreads
    obtain ⟨c, hR⟩ := h.ring
    have hcleared : Flowing start { s with
        threads := Pipeline.setConsumerdone s.threads false
        traffic := .traffic } turns :=
      h.producer ⟨h.count, ⟨c, refines_setConsumerdone hR false⟩, holds_setConsumerdone h.holds false⟩ rfl rfl rfl
        (by decide) (fun _ => h.traffic htraffic) (fun hne => absurd rfl hne) (fun hne => absurd rfl hne)
    refine h.producer (hcleared.ring_next (a := .enqueue (endPacket finalpacket)) trivial hthreads) hreturned hconsumer
      hheld (by decide) (fun he => nomatch he) ?_ ?_
    · exact fun _ => ⟨posted s.threads, finalpacket, hposted, h.traffic htraffic⟩
    · intro _
      refine iff_of_false ?_ fun htold => h.not_finished htraffic htold.finished
      rw [hring]
      exact Bool.false_ne_true
  · cases hstep

theorem enqueue (h : Flowing start s turns) {a : Label ReportStruct} (guard : LetThrough s.threads a)
    (hstep : s.step (.enqueue a) = some s') : Flowing start s' turns := by
  simp only [Pipeline.step] at hstep
  split at hstep
  · rename_i ha
    obtain ⟨threads, hthreads, rfl⟩ := Option.map_eq_some_iff.mp hstep
    obtain ⟨hposted, hreturned, hconsumer, hheld, hdone⟩ := posted_inEnqueue ha hthreads
    refine h.producer (h.ring_next guard hthreads) hreturned hconsumer hheld ?_ ?_ ?_ ?_
    · intro hended
      exact idle_not_inEnqueue ha (h.ended hended).2 hthreads
    · rw [hposted]
      exact h.traffic
    · rw [hposted]
      exact h.ending
    · rw [hdone]
      exact h.told
  · cases hstep

/-- A turn that is no record. -/
theorem turn (h : Flowing start s turns) (hnot : ¬ s.reporter.Finished) {t : Turn} (ht : turnRecords [t] = [])
    {data : ReporterData} (hdata : t.take (s.data, s.printed) = (data, s.printed)) :
    Flowing start { s with data } (turns ++ [t]) := by
  have hrecords : turnRecords (turns ++ [t]) = turnRecords turns := by rw [turnRecords_concat, ht, List.append_nil]
  refine ⟨h.count, h.ring, h.holds, h.consumer, ?_, ?_, ?_, h.traffic, h.ending, ?_,
    fun hfinished => absurd hfinished hnot, h.told, h.ended⟩
  · rw [replay_concat, h.replayed, hdata]
  · rw [hrecords]
    exact h.taken
  · rw [hrecords]
    exact h.pointed
  · rw [hrecords]
    exact h.last

theorem testDone (h : Flowing start s turns) (hstep : s.step .testDone = some s') : Flowing start s' turns := by
  simp only [Pipeline.step] at hstep
  split at hstep
  · rename_i hendJob hidle
    have hne : s.traffic ≠ .traffic := by
      rw [hendJob]
      decide
    cases hstep
    split
    · rename_i hdone
      exact ⟨h.count, h.ring, h.holds, h.consumer, h.replayed, h.taken, h.pointed, (fun he => nomatch he),
        fun _ => h.ending hne, h.last, h.behind, fun _ => h.told hne, fun _ => ⟨(h.told hne).mp hdone, hidle⟩⟩
    · exact h
  · cases hstep

/-- The reporter goes on, with no record in its hands before and after. -/
theorem moves (h : Flowing start s turns) {pc : JobPc} (hfrom : s.reporter ≠ .packet) (hto : pc ≠ .packet)
    (hfinished : pc.Finished ↔ s.reporter.Finished) (htold : pc.Told ↔ s.reporter.Told)
    (hidle : pc ≠ .loop → s.threads.consumerPc = .idle) : Flowing start { s with reporter := pc } turns where
  count := h.count
  ring := h.ring
  holds := h.holds
  consumer := hidle
  replayed := h.replayed
  taken := fun _ => h.taken hfrom
  pointed := fun hpacket => absurd hpacket hto
  traffic := h.traffic
  ending := h.ending
  last := hfinished.trans h.last
  behind := fun hdone => h.behind (hfinished.mp hdone)
  told := fun hne => (h.told hne).trans htold.symm
  ended := fun hended => ⟨htold.mpr (h.ended hended).1, (h.ended hended).2⟩

theorem process (h : Flowing start s turns) (hstep : s.step .process = some s') : Flowing start s' turns := by
  simp only [Pipeline.step] at hstep
  split at hstep
  · rename_i hjobq
    cases hstep
    apply h.moves <;> simp [hjobq, JobPc.Finished, JobPc.Told]
  · cases hstep

theorem signal (h : Flowing start s turns) (hstep : s.step .signal = some s') : Flowing start s' turns := by
  simp only [Pipeline.step] at hstep
  split at hstep
  · rename_i hsignal
    cases hstep
    have hidle := h.consumer (by rw [hsignal]; decide)
    apply h.moves <;> simp [hsignal, hidle, JobPc.Finished, JobPc.Told]
  · cases hstep

theorem consumerdone (h : Flowing start s turns) (hstep : s.step .consumerdone = some s') :
    Flowing start s' turns := by
  simp only [Pipeline.step] at hstep
  split at hstep
  · rename_i hdone
    cases hstep
    obtain ⟨c, hR⟩ := h.ring
    have hlast := h.last
    have hbehind := h.behind
    rw [hdone] at hlast hbehind
    exact ⟨h.count, ⟨c, refines_setConsumerdone hR true⟩, holds_setConsumerdone h.holds true,
      fun _ => h.consumer (by rw [hdone]; decide), h.replayed, fun _ => h.taken (by rw [hdone]; decide),
      (fun he => nomatch he), h.traffic, h.ending, hlast, hbehind, fun _ => iff_of_true rfl trivial,
      fun hended => ⟨trivial, (h.ended hended).2⟩⟩
  · cases hstep

theorem dequeue (h : Flowing start s turns) (hstep : s.step .dequeue = some s') : Flowing start s' turns := by
  simp only [Pipeline.step] at hstep
  split at hstep
  · rename_i hloop
    obtain ⟨threads, hthreads, rfl⟩ := Option.map_eq_some_iff.mp hstep
    obtain ⟨hcount, hring, hholds⟩ := h.ring_next (a := .dequeue) trivial hthreads
    obtain ⟨-, hposted, hreturned, -, hproducer, hdata⟩ := step_dequeue hthreads
    have hnot : s.reporter ≠ .packet := by
      rw [hloop]
      decide
    have hflow : Flowing start { s with threads } turns := by
      refine ⟨hcount, hring, hholds, fun hne => absurd hloop hne, h.replayed, fun hne => hreturned.trans (h.taken hne),
        fun hpacket => absurd hpacket hnot, ?_, ?_, h.last, h.behind, ?_,
        fun hended => ⟨(h.ended hended).1, hproducer.trans (h.ended hended).2⟩⟩
      · rw [hposted]
        exact h.traffic
      · rw [hposted]
        exact h.ending
      · rw [hdata]
        exact h.told
    -- NULL is returned when the ring is empty
    by_cases hidle : threads.consumerPc = .idle
    · simp only [hidle, if_true]
      apply hflow.moves <;> simp [hloop, hidle, JobPc.Finished, JobPc.Told]
    · simp only [hidle, if_false]
      apply hflow.moves <;> simp [hloop, JobPc.Finished, JobPc.Told]
  · cases hstep

theorem advance (h : Flowing start s turns) (hstep : s.step .advance = some s') : Flowing start s' turns := by
  simp only [Pipeline.step] at hstep
  split at hstep
  · rename_i hloop
    obtain ⟨threads, hthreads, rfl⟩ := Option.map_eq_some_iff.mp hstep
    obtain ⟨hcount, hring, hholds⟩ := h.ring_next (a := .advance) trivial hthreads
    obtain ⟨r, -, rfl⟩ := step_advance hthreads
    have hreturned := h.taken (by rw [hloop]; decide)
    have hlast := h.last
    have htold := h.told
    have hended := h.ended
    rw [hloop] at hlast htold hended
    refine ⟨hcount, hring, hholds, fun _ => rfl, h.replayed, fun hne => absurd rfl hne, fun _ => ⟨?_, ?_⟩, h.traffic,
      h.ending, hlast, (fun hfinished => hfinished.elim), htold, hended⟩
    · exact Option.some_ne_none r
    · exact ⟨s.threads.ring.data r, by rw [hreturned]⟩
  · cases hstep

/-- The record behind the pointer is the last one that the ring returned. -/
theorem handle (h : Flowing start s turns) (hstep : s.step .handle = some s') :
    ∃ packet, Flowing start s' (turns ++ [.record packet]) := by
  simp only [Pipeline.step] at hstep
  split at hstep
  · rename_i r hpacket hheld
    cases hstep
    obtain ⟨-, p, hp⟩ := h.pointed hpacket
    have hslot : p = s.threads.ring.data r := by
      have hlast := h.holds.last r hheld
      rw [hp, List.getLast?_concat] at hlast
      exact Option.some.inj hlast
    subst hslot
    have hidle := h.consumer (by rw [hpacket]; decide)
    have hlast := h.last
    have htold := h.told
    have hended := h.ended
    rw [hpacket] at hlast htold hended
    have hrecords : ∀ p, turnRecords (turns ++ [.record p]) = turnRecords turns ++ [p] := fun p =>
      turnRecords_concat turns _
    -- where the reporter goes on
    have hpc : ∀ last advance : Bool, ¬ (if last then JobPc.done else if advance then .jobq else .loop).Told ∧
        (if last then JobPc.done else if advance then .jobq else .loop) ≠ .packet := by
      intro last advance
      cases last <;> cases advance <;> exact ⟨id, by decide⟩
    refine ⟨_, h.count, h.ring, h.holds, fun _ => hidle, ?_, fun _ => hp.trans (hrecords _).symm, ?_, h.traffic,
      h.ending, ?_, fun _ => ⟨turns, _, rfl⟩, fun hne => ?_, fun he => (hended he).1.elim⟩
    · rw [replay_concat, h.replayed]
      rfl
    · exact fun hne => absurd hne (hpc _ _).2
    · rw [hrecords]
      split
      · rename_i hfinal
        have hneg := (processTransferReport_last _ _).mp hfinal
        exact iff_of_true trivial ⟨_, List.mem_append_right _ (List.mem_singleton_self _), hneg⟩
      · rename_i hfinal
        have hnonneg := mt (processTransferReport_last _ _).mpr hfinal
        refine iff_of_false ?_ ?_
        · split <;> exact id
        · rintro ⟨q, hq, hneg⟩
          rcases List.mem_append.mp hq with hq | hq
          · exact hlast.mpr ⟨q, hq, hneg⟩
          · rw [List.mem_singleton.mp hq] at hneg
            exact hnonneg hneg
    · exact iff_of_false (fun hset => ((htold hne).mp hset).elim) (hpc _ _).1
  · cases hstep

/-- One step: the sequential reporter takes a turn, or none. -/
theorem next (h : Flowing start s turns) {e : PipelineEvent} (guard : s.Guard e) (hstep : s.step e = some s') :
    ∃ turns', Flowing start s' turns' := by
  cases e with
  | reportPacket packet => exact ⟨_, h.reportPacket guard hstep⟩
  | clock ts =>
    simp only [Pipeline.step] at hstep
    split at hstep <;> cases hstep
    rename_i htraffic
    exact ⟨_, h.turn (h.not_finished htraffic) (t := .clock ts) rfl rfl⟩
  | enqueue a => exact ⟨_, h.enqueue guard hstep⟩
  | endJob finalpacket => exact ⟨_, h.endJob hstep⟩
  | testDone => exact ⟨_, h.testDone hstep⟩
  | process => exact ⟨_, h.process hstep⟩
  | dequeue => exact ⟨_, h.dequeue hstep⟩
  | advance => exact ⟨_, h.advance hstep⟩
  | handle =>
    obtain ⟨packet, hflow⟩ := h.handle hstep
    exact ⟨_, hflow⟩
  | shared groupSumReport fullDuplexReport =>
    simp only [Pipeline.step] at hstep
    have hnot : ¬ s.reporter.Finished := by
      intro hfinished
      cases hreporter : s.reporter <;> rw [hreporter] at hstep hfinished
      case jobq | loop | packet => exact hfinished
      all_goals cases hstep
    split at hstep <;> cases hstep
    all_goals exact ⟨_, h.turn hnot (t := .shared groupSumReport fullDuplexReport) rfl rfl⟩
  | consumerdone => exact ⟨_, h.consumerdone hstep⟩
  | signal => exact ⟨_, h.signal hstep⟩

theorem of_reachable {count : Nat} (hcount : 2 ≤ count)
    (h : Reachable Pipeline.step Pipeline.Guard (.init count start) s) : ∃ turns, Flowing start s turns := by
  apply h.invariant (I := fun s => ∃ turns, Flowing start s turns)
  · exact ⟨[], init hcount start⟩
  · rintro s e s' ⟨turns, hflow⟩ guard hstep
    exact hflow.next guard hstep

/-- A first part of the records that has a final one is all of them. -/
theorem ending_all {packets : List ReportStruct} (hending : Ending packets) {handled : List ReportStruct}
    (hfirst : handled.IsPrefix packets) (hlast : ∃ p ∈ handled, p.packetID < 0) : handled = packets := by
  obtain ⟨traffic, finalpacket, rfl, htraffic⟩ := hending
  rcases List.prefix_concat_iff.mp hfirst with rfl | hfirst
  · rfl
  · obtain ⟨p, hp, hneg⟩ := hlast
    have := htraffic p (hfirst.subset hp)
    omega

/-- Behind `EndJob` every record is handled. -/
theorem all_of_ended (h : Flowing start s turns) (hended : s.traffic = .ended) :
    turnRecords turns = s.threads.enqueued ∧ Ending s.threads.enqueued ∧ s.reporter.Told := by
  obtain ⟨htold, hidle⟩ := h.ended hended
  have hposted : posted s.threads = s.threads.enqueued := by
    rw [posted, hidle, inFlight, List.append_nil]
  have hending : Ending s.threads.enqueued := by
    rw [← hposted]
    refine h.ending ?_
    rw [hended]
    decide
  exact ⟨ending_all hending h.records_first (h.last.mp htold.finished), hending, htold⟩

/-- Behind `EndJob` the final record was the last turn. -/
theorem last_turn (h : Flowing start s turns) (hended : s.traffic = .ended) :
    ∃ before finalpacket, turns = before ++ [.record (endPacket finalpacket)] ∧
      s.threads.enqueued = turnRecords before ++ [endPacket finalpacket] ∧
      ∀ p ∈ turnRecords before, 0 ≤ p.packetID := by
  obtain ⟨hall, ⟨traffic, finalpacket, henqueued, htraffic⟩, htold⟩ := h.all_of_ended hended
  obtain ⟨before, p, hturns⟩ := h.behind htold.finished
  have hrecords : turnRecords before ++ [p] = traffic ++ [endPacket finalpacket] := by
    rw [← henqueued, ← hall, hturns, turnRecords_concat]
    rfl
  obtain ⟨hbefore, hp⟩ := List.append_inj' hrecords rfl
  obtain rfl := List.singleton_inj.mp hp
  exact ⟨before, finalpacket, hturns, by rw [henqueued, hbefore], by rwa [hbefore]⟩

end Flowing

/-- A TCP server with a ring of three slots. -/
def tcpFlow : ReporterData := initIndividualReport { (default : Settings) with threadMode := .server } none none

/-- A call of `packetring_enqueue` without a wait. -/
def enqueueCall : List PipelineEvent := [.testAtEnd, .testBehind, .memcpy, .store].map .enqueue

/-- The reporter takes a record between the two of the traffic thread, and the final one behind `EndJob`. -/
def shortFlow : List PipelineEvent :=
  .reportPacket { (default : ReportStruct) with packetLen := 100 } :: enqueueCall ++
    [.process, .dequeue, .endJob default, .advance] ++ enqueueCall ++
    [.handle, .dequeue, .testDone, .advance, .handle, .consumerdone, .testDone]

/-- The steps of a call of `packetring_enqueue` that has room, and of the record behind it. -/
def producerLeft {α : Type} : ProducerPc α → Nat
  | .idle => 0
  | .store .. => 11
  | .copy .. => 12
  | .testBehind _ => 13
  | .testAtEnd _ => 14
  | .await _ => 15

/-- The steps of the reporter up to its next record, or behind the last one. -/
def Pipeline.reporterLeft (s : Pipeline) : Nat :=
  match s.reporter with
  | .packet => 4
  | .jobq => 3
  | .loop => if s.threads.consumerPc = .idle then 2 else 1
  | .done => 2
  | .signal => 1
  | .removed => 0

/-- The records in the ring, and the steps of both threads. -/
def Pipeline.left (s : Pipeline) : Nat :=
  10 * (s.threads.enqueued.length - s.threads.returned.length) + producerLeft s.threads.producerPc + s.reporterLeft +
    if s.traffic = .ended then 0 else 1

/-- A producer goes on when the ring is empty. -/
theorem empty_enqueue {t : Threads ReportStruct} {c : Channel ReportStruct} (hR : Refines t c)
    (hcount : 2 ≤ t.ring.maxcount) (hpending : c.pending = []) (hbusy : t.producerPc ≠ .idle) :
    ∃ a t', Pipeline.inEnqueue a = true ∧ LetThrough t a ∧ Ring.step t a = some t' ∧ t'.returned = t.returned ∧
      10 * (t'.enqueued.length - t.returned.length) + producerLeft t'.producerPc <
        10 * (t.enqueued.length - t.returned.length) + producerLeft t.producerPc := by
  have hsame : t.ring.producer = t.ring.consumer := by
    rw [hR.producer, hpending, List.length_nil, Nat.add_zero, Nat.mod_eq_of_lt hR.consumer_lt]
  have hlt := hR.consumer_lt
  cases hpc : t.producerPc with
  | idle => exact absurd hpc hbusy
  | testAtEnd p =>
    have hroom : t.ring.fullAtEnd = false := by
      simp only [PacketRing.fullAtEnd, Bool.and_eq_false_iff, beq_eq_false_iff_ne]
      exact .inl (by omega)
    refine ⟨.testAtEnd, { t with producerPc := .testBehind p }, rfl, trivial, ?_, rfl, ?_⟩
    · simp [Ring.step, hpc, hroom]
    · simp [producerLeft]
  | testBehind p =>
    have hroom : t.ring.fullBehind = false := by
      simp only [PacketRing.fullBehind, beq_eq_false_iff_ne]
      omega
    refine ⟨.testBehind, { t with producerPc := .copy p t.ring.writeindex }, rfl, ?_, ?_, rfl, ?_⟩
    · simp only [LetThrough]
      omega
    · simp [Ring.step, hpc, hroom]
    · simp [producerLeft]
  | await p =>
    refine ⟨.awake, { t with producerPc := .testAtEnd p }, rfl, trivial, ?_, rfl, ?_⟩
    · simp [Ring.step, hpc]
    · simp [producerLeft]
  | copy p w =>
    refine ⟨.memcpy, { t with
      ring := t.ring.write w p
      producerPc := .store p w }, rfl, trivial, ?_, rfl, ?_⟩
    · simp [Ring.step, hpc]
    · simp [producerLeft]
  | store p w =>
    refine ⟨.store, { t with
      ring := { t.ring with producer := w }
      producerPc := .idle
      enqueued := t.enqueued ++ [p] }, rfl, trivial, ?_, rfl, ?_⟩
    · simp [Ring.step, hpc]
    · simp only [producerLeft, List.length_append, List.length_singleton]
      omega

namespace Flowing
variable {start : ReporterData} {s : Pipeline} {turns : List Turn}

/-- With a final record handled the traffic thread is out of its call. -/
theorem idle_of_finished (h : Flowing start s turns) (hne : s.traffic ≠ .traffic) (hfinished : s.reporter.Finished) :
    s.threads.producerPc = .idle := by
  have hfirst : (turnRecords turns).IsPrefix (posted s.threads) := h.records_first.trans (List.prefix_append _ _)
  have hall := ending_all (h.ending hne) hfirst (h.last.mp hfinished)
  have hlen := h.records_first.length_le
  rw [hall, posted, List.length_append] at hlen
  cases hpc : s.threads.producerPc with
  | idle => rfl
  | testAtEnd | testBehind | await | copy | store =>
    rw [hpc] at hlen
    simp only [inFlight, List.length_singleton] at hlen
    omega

/-- Between two records, one of the threads goes on. -/
theorem progress_between (h : Flowing start s turns) (hendJob : s.traffic = .endJob)
    (hbetween : s.reporter = .jobq ∨ s.reporter = .loop) :
    ∃ e s', s.Guard e ∧ s.step e = some s' ∧ s'.traffic = .endJob ∧ s'.left < s.left := by
  obtain ⟨c, hR⟩ := h.ring
  have hlen : s.threads.enqueued.length = s.threads.returned.length + c.pending.length := by
    rw [hR.sent, hR.got, ← c.fifo, List.length_append]
  by_cases hpending : c.pending = []
  · -- the final record is not enqueued yet
    have hbusy : s.threads.producerPc ≠ .idle := by
      intro hidle
      have hending := h.ending (by rw [hendJob]; decide)
      rw [posted, hidle, inFlight, List.append_nil, hR.sent, ← c.got_eq_sent hpending, ← hR.got] at hending
      have hfinished : s.reporter.Finished := by
        obtain ⟨traffic, finalpacket, hreturned, -⟩ := hending
        refine h.last.mpr ⟨endPacket finalpacket, ?_, (by decide : (-1 : Int) < 0)⟩
        rw [← h.taken (by rcases hbetween with hpc | hpc <;> rw [hpc] <;> decide), hreturned]
        exact List.mem_append_right _ (List.mem_singleton_self _)
      rcases hbetween with hpc | hpc <;> rw [hpc] at hfinished <;> exact hfinished
    obtain ⟨a, t', ha, guard, hstep, hreturned, hless⟩ := empty_enqueue hR h.count hpending hbusy
    have hconsumer := (posted_inEnqueue ha hstep).2.2.1
    refine ⟨.enqueue a, { s with threads := t' }, guard, ?_, hendJob, ?_⟩
    · simp [Pipeline.step, ha, hstep]
    · simp only [Pipeline.left, Pipeline.reporterLeft, hconsumer, hreturned]
      omega
  · have hpos : 0 < c.pending.length := List.length_pos_iff.mpr hpending
    rcases hbetween with hjobq | hloop
    · refine ⟨.process, { s with reporter := .loop }, trivial, ?_, hendJob, ?_⟩
      · simp [Pipeline.step, hjobq]
      · simp only [Pipeline.left, Pipeline.reporterLeft, hjobq]
        split <;> omega
    · cases hpc : s.threads.consumerPc with
      | idle =>
        have hne : s.threads.ring.producer ≠ s.threads.ring.consumer := fun heq => hpending (hR.pending_nil heq)
        refine ⟨.dequeue, { s with threads := { s.threads with
          consumerPc := .advance s.threads.ring.readindex
          held := none } }, trivial, ?_, hendJob, ?_⟩
        · simp [Pipeline.step, Ring.step, hloop, hpc, hne]
        · simp only [Pipeline.left, Pipeline.reporterLeft, hloop, hpc]
          simp
      | advance r =>
        refine ⟨.advance, { s with
          threads := { s.threads with
            ring := { s.threads.ring with consumer := r }
            consumerPc := .idle
            returned := s.threads.returned ++ [s.threads.ring.data r]
            held := some r }
          reporter := .packet }, trivial, ?_, hendJob, ?_⟩
        · simp [Pipeline.step, Ring.step, hloop, hpc]
        · simp only [Pipeline.left, Pipeline.reporterLeft, hloop, hpc, List.length_append, List.length_singleton]
          simp
          omega

/-- One of the threads goes on. -/
theorem progress (h : Flowing start s turns) (hendJob : s.traffic = .endJob) :
    ∃ e s', s.Guard e ∧ s.step e = some s' ∧ s'.traffic ≠ .traffic ∧ s'.left < s.left := by
  have hne : s.traffic ≠ .traffic := by
    rw [hendJob]
    decide
  cases hpc : s.reporter with
  | jobq | loop =>
    obtain ⟨e, s', guard, hstep, htraffic, hless⟩ := h.progress_between hendJob (by simp [hpc])
    exact ⟨e, s', guard, hstep, by rw [htraffic]; decide, hless⟩
  | packet =>
    obtain ⟨r, hr⟩ := Option.ne_none_iff_exists'.mp (h.pointed hpc).1
    have hidle := h.consumer (by rw [hpc]; decide)
    obtain ⟨s', hstep, hthreads, htraffic, hto⟩ : ∃ s', s.step .handle = some s' ∧ s'.threads = s.threads ∧
        s'.traffic = s.traffic ∧ (s'.reporter = .done ∨ s'.reporter = .jobq ∨ s'.reporter = .loop) := by
      simp only [Pipeline.step, hpc, hr]
      refine ⟨_, rfl, rfl, rfl, ?_⟩
      dsimp only
      split
      · exact .inl rfl
      · split
        · exact .inr (.inl rfl)
        · exact .inr (.inr rfl)
    refine ⟨.handle, s', trivial, hstep, by rw [htraffic]; exact hne, ?_⟩
    simp only [Pipeline.left, Pipeline.reporterLeft, hpc, hthreads, htraffic]
    rcases hto with hto | hto | hto <;> simp [hto, hidle]
  | done =>
    refine ⟨.consumerdone, { s with
      threads := Pipeline.setConsumerdone s.threads true
      reporter := .signal }, trivial, ?_, hne, ?_⟩
    · simp [Pipeline.step, hpc]
    · simp only [Pipeline.left, Pipeline.reporterLeft, hpc, Pipeline.setConsumerdone]
      omega
  | signal | removed =>
    have htold : s.reporter.Told := by
      rw [hpc]
      trivial
    have hset := (h.told hne).mpr htold
    have hidle := h.idle_of_finished hne htold.finished
    refine ⟨.testDone, { s with traffic := .ended }, trivial, ?_, by simp, ?_⟩
    · simp [Pipeline.step, hendJob, hidle, hset]
    · simp [Pipeline.left, Pipeline.reporterLeft, hendJob, hpc]

end Flowing

end Iperf2.Report
